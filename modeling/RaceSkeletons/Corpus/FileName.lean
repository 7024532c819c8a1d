import RaceSkeletons.Text.Lower

/-!
# Normal file names

The name of every file in a corpus is brought into one form: lower case,
no underscores, and the fragment extension at its end.
-/

namespace RaceSkeletons

/-- The name with `.extension` behind it, unless it already ends so. -/
def withExtension (name extension : List Char) : List Char :=
  if ('.' :: extension).isSuffixOf name then name else name ++ '.' :: extension

/-- The normal form of a file name. -/
def normalName (name extension : String) : String :=
  String.ofList <|
    (Text.lower (withExtension name.toList extension.toList)).filter (· != '_')

end RaceSkeletons
