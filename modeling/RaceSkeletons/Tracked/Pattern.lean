import RaceSkeletons.Text.Blank
import RaceSkeletons.Text.Word

/-!
# Tracked variables

Skeletons name the variables under suspicion by a fixed identifier prefix
and a number: `racyVar0`, `racyVar12`. This module finds such names in the
text of a fragment: anywhere (`isReferenced`), or on the left of an
assignment (`isAssigned`).

A name starts at a word boundary. An assignment is a name with its whole
number, optional white space, and one `=` that is not the first half of a
comparison.
-/

namespace RaceSkeletons

/-- The naming convention of tracked variables. -/
structure TrackedPattern where
  leading : String
  deriving Repr, DecidableEq

namespace TrackedPattern

/-- The convention unless another prefix is configured. -/
def standard : TrackedPattern := ⟨"racyVar"⟩

/-- Whether a text is left of nothing or of a character that is no word
character. -/
def wordAt : Option Char → Bool
  | none => false
  | some c => Text.isWordChar c

/-- Whether a word starts or ends between the character `before` and the
text `rest`. -/
def isBoundary (before : Option Char) (rest : List Char) : Bool :=
  wordAt before != wordAt rest.head?

/-- What follows `start` in `text`, if the text begins with it. -/
def dropStart? : (start text : List Char) → Option (List Char)
  | [], text => some text
  | _ :: _, [] => none
  | s :: start, c :: text => if s = c then dropStart? start text else none

/-- Whether some position of a text passes a test on the character before
it and the text after it. -/
def anyPosition (test : Option Char → List Char → Bool) :
    Option Char → List Char → Bool
  | before, [] => test before []
  | before, c :: rest => test before (c :: rest) || anyPosition test (some c) rest

/-- What follows the prefix of a name that starts at this position. -/
def nameTail? (p : TrackedPattern) (before : Option Char) (rest : List Char) :
    Option (List Char) :=
  if isBoundary before rest then dropStart? p.leading.toList rest else none

def startsWithDigit : List Char → Bool
  | [] => false
  | c :: _ => Text.isDecimalDigit c

/-- Whether a text begins with one `=`. -/
def startsWithAssign : List Char → Bool
  | '=' :: '=' :: _ => false
  | '=' :: _ => true
  | _ => false

/-- Whether a tracked name starts at this position. -/
def referencedAt (p : TrackedPattern) (before : Option Char) (rest : List Char) : Bool :=
  match p.nameTail? before rest with
  | none => false
  | some tail => startsWithDigit tail

/-- Whether an assignment to a tracked name starts at this position. -/
def assignedAt (p : TrackedPattern) (before : Option Char) (rest : List Char) : Bool :=
  match p.nameTail? before rest with
  | none => false
  | some tail =>
    startsWithDigit tail &&
      startsWithAssign ((tail.dropWhile Text.isDecimalDigit).dropWhile Text.isBlank)

/-- Whether a text mentions a tracked variable. -/
def isReferenced (p : TrackedPattern) (text : String) : Bool :=
  anyPosition p.referencedAt none text.toList

/-- Whether a text assigns to a tracked variable. -/
def isAssigned (p : TrackedPattern) (text : String) : Bool :=
  anyPosition p.assignedAt none text.toList

end TrackedPattern

end RaceSkeletons
