/-!
# Arithmetic of the shell

The expressions between `$((` and `))`: whole numbers of 64 bits, variables,
and the operators of the language in ten levels. A variable that is not set
counts as zero.
-/

namespace RaceSkeletons.Shell

/-- An operator between two operands. -/
inductive ArithmeticOperator where
  | either
  | both
  | bitOr
  | bitXor
  | bitAnd
  | equal
  | different
  | atMost
  | atLeast
  | less
  | greater
  | shiftLeft
  | shiftRight
  | plus
  | minus
  | times
  | quotient
  | remainder
  deriving Repr, DecidableEq

/-- An operator in front of its operand. -/
inductive ArithmeticSign where
  | keep
  | negate
  | invert
  | complement
  deriving Repr, DecidableEq

/-- An expression. -/
inductive Arithmetic where
  | number (n : Int)
  | named (name : String)
  | signed (sign : ArithmeticSign) (operand : Arithmetic)
  | joined (operator : ArithmeticOperator) (first second : Arithmetic)
  deriving Repr

/-- Why an expression has no value. -/
inductive ArithmeticFault where
  | divisionByZero
  | expectingPrimary
  | expectingEnd
  deriving Repr, DecidableEq

def ArithmeticFault.describe : ArithmeticFault → String
  | .divisionByZero => "division by zero"
  | .expectingPrimary => "expecting primary"
  | .expectingEnd => "expecting EOF"

namespace Arithmetic

/-- The operators, those that bind least first. -/
def levels : List (List (String × ArithmeticOperator)) := [
  [("||", .either)],
  [("&&", .both)],
  [("|", .bitOr)],
  [("^", .bitXor)],
  [("&", .bitAnd)],
  [("==", .equal), ("!=", .different)],
  [("<=", .atMost), (">=", .atLeast), ("<", .less), (">", .greater)],
  [("<<", .shiftLeft), (">>", .shiftRight)],
  [("+", .plus), ("-", .minus)],
  [("*", .times), ("/", .quotient), ("%", .remainder)]]

/-- A token of an expression. -/
inductive Token where
  | number (n : Nat)
  | name (text : String)
  | operator (text : String)
  deriving Repr, DecidableEq

/-- The signs of an expression, longer ones first. -/
def signs : List String :=
  ["||", "&&", "==", "!=", "<=", ">=", "<<", ">>", "|", "^", "&", "<", ">", "+", "-", "*", "/", "%",
   "!", "~", "(", ")"]

def digitValue (c : Char) : Nat :=
  if c.isDigit then c.toNat - '0'.toNat else c.toLower.toNat - 'a'.toNat + 10

/-- The number that letters and digits stand for: in base sixteen behind
`0x`, in base eight behind `0`, else in base ten. -/
def numeral? (s : List Char) : Option Nat :=
  let inBase := fun (base : Nat) (digits : List Char) =>
    if digits ≠ [] ∧ digits.all (fun c => c.isAlphanum && digitValue c < base) then
      some (digits.foldl (fun n c => n * base + digitValue c) 0)
    else none
  match s with
  | '0' :: 'x' :: rest => inBase 16 rest
  | '0' :: 'X' :: rest => inBase 16 rest
  | '0' :: c :: rest => inBase 8 (c :: rest)
  | s => inBase 10 s

/-- The tokens of an expression; none when a character has no meaning. -/
def tokens? : (fuel : Nat) → List Char → Option (List Token)
  | 0, _ => none
  | _ + 1, [] => some []
  | fuel + 1, c :: rest =>
    if c = ' ' ∨ c = '\t' ∨ c = '\n' then tokens? fuel rest
    else
      let isNameChar := fun (c : Char) => c.isAlphanum || c == '_'
      let word := (c :: rest).takeWhile isNameChar
      let behind := (c :: rest).dropWhile isNameChar
      if c.isDigit then
        match numeral? word with
        | some n => (tokens? fuel behind).map (.number n :: ·)
        | none => none
      else if word ≠ [] then (tokens? fuel behind).map (.name (String.ofList word) :: ·)
      else
        match signs.find? fun o => o.toList.isPrefixOf (c :: rest) with
        | some o => (tokens? fuel ((c :: rest).drop o.length)).map (.operator o :: ·)
        | none => none

/-- The sign that stands in front of an operand. -/
def signOf? : Token → Option ArithmeticSign
  | .operator "+" => some .keep
  | .operator "-" => some .negate
  | .operator "!" => some .invert
  | .operator "~" => some .complement
  | _ => none

/-- The operator of a level that a token is. -/
def operatorIn? (level : List (String × ArithmeticOperator)) : Token → Option ArithmeticOperator
  | .operator text => level.lookup text
  | _ => none

mutual

def readOperand : (fuel : Nat) → List Token → Option (Arithmetic × List Token)
  | 0, _ => none
  | _ + 1, [] => none
  | _ + 1, .number n :: rest => some (.number n, rest)
  | _ + 1, .name text :: rest => some (.named text, rest)
  | fuel + 1, .operator "(" :: rest =>
    match readLevel fuel levels rest with
    | some (inner, .operator ")" :: rest) => some (inner, rest)
    | _ => none
  | fuel + 1, t :: rest =>
    match signOf? t with
    | some sign => (readOperand fuel rest).map fun (e, rest) => (.signed sign e, rest)
    | none => none

/-- Reads operands that are joined by operators of the given levels. -/
def readLevel : (fuel : Nat) → List (List (String × ArithmeticOperator)) → List Token →
    Option (Arithmetic × List Token)
  | 0, _, _ => none
  | fuel + 1, [], ts => readOperand fuel ts
  | fuel + 1, level :: tighter, ts =>
    match readLevel fuel tighter ts with
    | none => none
    | some (first, rest) => readJoined fuel level tighter first rest

/-- Reads the operators of one level with the operands behind them. -/
def readJoined : (fuel : Nat) → List (String × ArithmeticOperator) →
    List (List (String × ArithmeticOperator)) → Arithmetic → List Token →
    Option (Arithmetic × List Token)
  | 0, _, _, _, _ => none
  | _ + 1, _, _, first, [] => some (first, [])
  | fuel + 1, level, tighter, first, t :: rest =>
    match operatorIn? level t with
    | none => some (first, t :: rest)
    | some operator =>
      match readLevel fuel tighter rest with
      | none => none
      | some (second, rest) => readJoined fuel level tighter (.joined operator first second) rest

end

def parse (text : String) : Except ArithmeticFault Arithmetic :=
  match tokens? (text.length + 1) text.toList with
  | none => .error .expectingPrimary
  | some ts =>
    match readLevel (20 * ts.length + 20) levels ts with
    | none => .error .expectingPrimary
    | some (e, []) => .ok e
    | some (_, _ :: _) => .error .expectingEnd

/-- A number brought into the range of 64 bits. -/
def wrap (n : Int) : Int :=
  Int.bmod n (Nat.pow 2 64)

def ofBool (b : Bool) : Int :=
  if b then 1 else 0

def bits (n : Int) : Nat :=
  (n % (Nat.pow 2 64 : Nat)).toNat

def apply (operator : ArithmeticOperator) (a b : Int) : Except ArithmeticFault Int :=
  match operator with
  | .either => .ok (ofBool (a ≠ 0 || b ≠ 0))
  | .both => .ok (ofBool (a ≠ 0 && b ≠ 0))
  | .bitOr => .ok (wrap (bits a ||| bits b))
  | .bitXor => .ok (wrap (bits a ^^^ bits b))
  | .bitAnd => .ok (wrap (bits a &&& bits b))
  | .equal => .ok (ofBool (a = b))
  | .different => .ok (ofBool (a ≠ b))
  | .atMost => .ok (ofBool (a ≤ b))
  | .atLeast => .ok (ofBool (b ≤ a))
  | .less => .ok (ofBool (a < b))
  | .greater => .ok (ofBool (b < a))
  | .shiftLeft => .ok (wrap (a * Nat.pow 2 (bits b % 64)))
  | .shiftRight => .ok (a / Nat.pow 2 (bits b % 64))
  | .plus => .ok (wrap (a + b))
  | .minus => .ok (wrap (a - b))
  | .times => .ok (wrap (a * b))
  | .quotient => if b = 0 then .error .divisionByZero else .ok (wrap (a.tdiv b))
  | .remainder => if b = 0 then .error .divisionByZero else .ok (a.tmod b)

def applySign (sign : ArithmeticSign) (a : Int) : Int :=
  match sign with
  | .keep => a
  | .negate => wrap (-a)
  | .invert => ofBool (a = 0)
  | .complement => wrap (-a - 1)

/-- The number that the text of a variable stands for. -/
def valueOf (text : String) : Int :=
  match text.toList with
  | '-' :: digits => wrap (-((numeral? digits).getD 0 : Nat))
  | digits => wrap ((numeral? digits).getD 0 : Nat)

/-- The value of an expression, given the texts of variables. -/
def eval (lookup : String → Option String) : Arithmetic → Except ArithmeticFault Int
  | .number n => .ok (wrap n)
  | .named name => .ok (((lookup name).map valueOf).getD 0)
  | .signed sign operand =>
    match eval lookup operand with
    | .error e => .error e
    | .ok a => .ok (applySign sign a)
  | .joined operator first second =>
    match eval lookup first with
    | .error e => .error e
    | .ok a =>
      if operator = .both ∧ a = 0 then .ok 0
      else if operator = .either ∧ a ≠ 0 then .ok 1
      else
        match eval lookup second with
        | .error e => .error e
        | .ok b => apply operator a b

/-- The value of the text of an expression; nothing at all counts as zero. -/
def evalText (lookup : String → Option String) (text : String) : Except ArithmeticFault Int :=
  if text.toList.all fun c => c == ' ' || c == '\t' || c == '\n' then .ok 0
  else
    match parse text with
    | .error e => .error e
    | .ok e => eval lookup e

end Arithmetic

end RaceSkeletons.Shell
