import RaceSkeletons.Text.Utf8

/-!
# Environment variables

Settings are looked up in the environment by name. A variable whose value
is not valid UTF-8 counts as unset, and a number that cannot be read counts
as not given.
-/

namespace RaceSkeletons

/-- The variables of a process. -/
structure Environment where
  bindings : List (String × Bytes)
  deriving Repr, DecidableEq, Inhabited

/-- The text of a variable. -/
def Environment.text? (env : Environment) (name : String) : Option String :=
  (env.bindings.lookup name).bind Utf8.decode?

/-- The numbers that fit into a machine word are those below this one. -/
def wordLimit : Nat := Nat.pow 2 64

def readDecimal (n : Nat) : List Char → Option Nat
  | [] => some n
  | c :: rest => if c.isDigit then readDecimal (n * 10 + (c.toNat - '0'.toNat)) rest else none

/-- Reads a number that fits into a machine word: decimal digits, with a plus
sign in front at most. -/
def readWord? (s : String) : Option Nat :=
  let digits :=
    match s.toList with
    | '+' :: rest => rest
    | all => all
  if digits = [] then none else (readDecimal 0 digits).filter (· < wordLimit)

/-- The number that a variable holds. -/
def Environment.number? (env : Environment) (name : String) : Option Nat :=
  (env.text? name).bind readWord?

def Environment.isSet (env : Environment) (name : String) : Bool :=
  (env.text? name).any (· ≠ "")

end RaceSkeletons
