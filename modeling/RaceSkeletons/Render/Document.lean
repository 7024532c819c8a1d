/-!
# Documents

The machine-readable outputs are documents: records, lists, texts, numbers
and truth values. A document knows nothing of the format it is written in.
-/

namespace RaceSkeletons

/-- A value of a machine-readable output. The members of a record keep their
order. -/
inductive Document where
  | bool (value : Bool)
  | number (value : Nat)
  | text (value : String)
  | list (items : List Document)
  | record (members : List (String × Document))
  deriving Repr, Inhabited

end RaceSkeletons
