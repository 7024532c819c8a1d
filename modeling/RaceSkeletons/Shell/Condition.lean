import RaceSkeletons.Shell.Session

/-!
# Conditions

The conditions that scripts test: on texts, on numbers and on files.
-/

namespace RaceSkeletons.Shell

/-- Whether a path leads to a file that can be run, or to a directory. -/
def isRunnable (fs : FileSystem) (p : Path) : Bool :=
  match fs.target? p with
  | .ok (_, .file _ mode) => mode.executable
  | .ok (_, .program _) => true
  | .ok (_, .dir) => true
  | _ => false

/-- Whether a path leads to something that can be written. -/
def isWritable (fs : FileSystem) (p : Path) : Bool :=
  match fs.target? p with
  | .ok (_, .file _ mode) => mode.refusal?.isNone
  | .ok _ => true
  | .error _ => false

/-- Whether a path is a link itself. -/
def isLink (fs : FileSystem) (p : Path) : Bool :=
  match fs.locate false p with
  | .ok ⟨_, some (.link _)⟩ => true
  | _ => false

/-- Whether a path leads to something that is not empty. -/
def isFilled (fs : FileSystem) (p : Path) : Bool :=
  match fs.target? p with
  | .ok (_, .file content _) => content ≠ []
  | .ok (_, .dir) => true
  | .ok (_, .program _) => true
  | _ => false

/-- A condition on one operand. -/
def unaryCondition (fs : FileSystem) (sign operand : String) : Bool :=
  match sign with
  | "-n" => operand ≠ ""
  | "-z" => operand = ""
  | "-e" => fs.pathExists ⟨operand⟩
  | "-f" => fs.isFile ⟨operand⟩
  | "-d" => fs.isDir ⟨operand⟩
  | "-r" => fs.pathExists ⟨operand⟩
  | "-w" => isWritable fs ⟨operand⟩
  | "-x" => isRunnable fs ⟨operand⟩
  | "-s" => isFilled fs ⟨operand⟩
  | "-h" => isLink fs ⟨operand⟩
  | "-L" => isLink fs ⟨operand⟩
  | _ => false

/-- The signs of conditions on one operand. -/
def unarySigns : List String :=
  ["-n", "-z", "-e", "-f", "-d", "-r", "-w", "-x", "-s", "-h", "-L", "-t", "-b", "-c", "-g", "-k",
   "-p", "-u", "-O", "-G", "-S"]

/-- Why a condition is malformed. -/
inductive ConditionFault where
  | unexpectedOperator (after : String)
  | argumentExpected (sign : String)
  | closingExpected
  | illegalNumber (text : String)
  deriving Repr, DecidableEq

def ConditionFault.describe : ConditionFault → String
  | .unexpectedOperator "" => "unexpected operator"
  | .unexpectedOperator after => after ++ ": unexpected operator"
  | .argumentExpected sign => sign ++ ": argument expected"
  | .closingExpected => "closing paren expected"
  | .illegalNumber text => "Illegal number: " ++ text

/-- The number that an operand is. -/
def readNumber (text : String) : Except ConditionFault Int :=
  let digits :=
    match text.trimAscii.toString.toList with
    | '+' :: c :: rest => if c.isDigit then c :: rest else ['+']
    | digits => digits
  match (String.ofList digits).toInt? with
  | some n => .ok n
  | none => .error (.illegalNumber text)

/-- A condition on two numbers. -/
def compareNumbers (holds : Int → Int → Bool) (a b : String) : Except ConditionFault Bool :=
  match readNumber a, readNumber b with
  | .ok a, .ok b => .ok (holds a b)
  | .error e, _ => .error e
  | _, .error e => .error e

/-- The signs of conditions on two operands. -/
def binarySigns : List String :=
  ["=", "!=", "<", ">", "-eq", "-ne", "-lt", "-le", "-gt", "-ge"]

/-- A condition on two operands. -/
def binaryCondition (a sign b : String) : Except ConditionFault Bool :=
  match sign with
  | "=" => .ok (a = b)
  | "!=" => .ok (a ≠ b)
  | "<" => .ok (a < b)
  | ">" => .ok (b < a)
  | "-eq" => compareNumbers (· = ·) a b
  | "-ne" => compareNumbers (· ≠ ·) a b
  | "-lt" => compareNumbers (· < ·) a b
  | "-le" => compareNumbers (· ≤ ·) a b
  | "-gt" => compareNumbers (· > ·) a b
  | _ => compareNumbers (· ≥ ·) a b

/-- What an argument is where it stands. -/
inductive ConditionToken where
  | finish
  | operand
  | invert
  | both
  | either
  | opening
  | closing
  | unary (sign : String)
  | binary (sign : String)
  deriving Repr, DecidableEq

/-- What the first of some arguments is. A sign of one operand is an operand
itself when nothing follows, or a sign of two operands with one. -/
def conditionToken : List String → ConditionToken
  | [] => .finish
  | a :: rest =>
    if a = "!" then .invert
    else if a = "-a" then .both
    else if a = "-o" then .either
    else if a = "(" then if rest = [] then .operand else .opening
    else if a = ")" then .closing
    else if binarySigns.contains a then .binary a
    else if unarySigns.contains a then
      match rest with
      | [] => .operand
      | [_] => .unary a
      | b :: _ :: _ => if binarySigns.contains b then .operand else .unary a
    else .operand

/-- Whether a condition holds, and the arguments from the last one on that
belongs to it. -/
abbrev ConditionResult := Except ConditionFault (Bool × List String)

mutual

/-- Reads conditions of which one has to hold. `token` is what the first
argument is. -/
def readEither (fs : FileSystem) : (fuel : Nat) → (token : ConditionToken) → List String →
    ConditionResult
  | 0, _, args => .ok (false, args)
  | fuel + 1, token, args =>
    match readBoth fs fuel token args with
    | .error e => .error e
    | .ok (first, rest) =>
      if conditionToken rest.tail = .either then
        let rest := rest.drop 2
        (readEither fs fuel (conditionToken rest) rest).map fun (second, rest) =>
          (first || second, rest)
      else .ok (first, rest)

/-- Reads conditions that all have to hold. -/
def readBoth (fs : FileSystem) : (fuel : Nat) → (token : ConditionToken) → List String →
    ConditionResult
  | 0, _, args => .ok (false, args)
  | fuel + 1, token, args =>
    match readInverted fs fuel token args with
    | .error e => .error e
    | .ok (first, rest) =>
      if conditionToken rest.tail = .both then
        let rest := rest.drop 2
        (readBoth fs fuel (conditionToken rest) rest).map fun (second, rest) =>
          (first && second, rest)
      else .ok (first, rest)

/-- Reads a condition that may have signs of negation in front. -/
def readInverted (fs : FileSystem) : (fuel : Nat) → (token : ConditionToken) → List String →
    ConditionResult
  | 0, _, args => .ok (false, args)
  | fuel + 1, token, args =>
    if token = .invert then
      let rest := if args.tail = [] then args else args.tail
      (readInverted fs fuel (conditionToken args.tail) rest).map fun (b, rest) => (!b, rest)
    else readPrimary fs fuel token args

/-- Reads a condition without any others in it, or one in parentheses. -/
def readPrimary (fs : FileSystem) : (fuel : Nat) → (token : ConditionToken) → List String →
    ConditionResult
  | 0, _, args => .ok (false, args)
  | fuel + 1, token, args =>
    match token, args with
    | .finish, args => .ok (false, args)
    | _, [] => .ok (false, [])
    | .opening, _ :: rest =>
      if conditionToken rest = .closing then .ok (false, rest)
      else
        match readEither fs fuel (conditionToken rest) rest with
        | .error e => .error e
        | .ok (b, rest) =>
          if conditionToken rest.tail = .closing then .ok (b, rest.tail)
          else .error .closingExpected
    | .unary sign, _ :: rest =>
      match rest with
      | [] => .error (.argumentExpected sign)
      | a :: _ => .ok (unaryCondition fs sign a, rest)
    | _, a :: rest =>
      match conditionToken rest, rest.tail with
      | .binary sign, [] => .error (.argumentExpected sign)
      | .binary sign, b :: more => (binaryCondition a sign b).map fun holds => (holds, b :: more)
      | _, _ => .ok (a ≠ "", a :: rest)

end

/-- Reads a condition that all arguments belong to. -/
def readWhole (fs : FileSystem) (token : ConditionToken) (args : List String) :
    Except ConditionFault Bool :=
  match readEither fs (4 * args.length + 8) token args with
  | .error e => .error e
  | .ok (b, rest) =>
    match rest with
    | last :: _ :: _ => .error (.unexpectedOperator last)
    | _ => .ok b

/-- Whether a condition holds. Three or four arguments have rules of their
own: a sign of two operands in the middle comes first, then parentheses
around the rest, then a negation of it. Several such negations count as
one. -/
def holds (fs : FileSystem) (isInverted : Bool) : List String → Except ConditionFault Bool
  | [] => .ok isInverted
  | a :: rest =>
    let args := a :: rest
    let whole := fun (token : ConditionToken) (args : List String) =>
      (readWhole fs token args).map (· != isInverted)
    if args.length = 3 ∧ binarySigns.contains (rest.head?.getD "") then whole .operand args
    else if args.length = 3 ∨ args.length = 4 then
      if a = "(" ∧ args.getLast? = some ")" then
        whole (conditionToken rest.dropLast) rest.dropLast
      else if a = "!" then holds fs true rest
      else whole (conditionToken args) args
    else whole (conditionToken args) args

/-- Ends the command that tests a condition. -/
def testCommand (name : String) (args : List String) (s : Session) : Session :=
  match holds s.fs false args with
  | .ok result => s.answer result
  | .error fault => s.complain 2 (name ++ ": " ++ fault.describe)

end RaceSkeletons.Shell
