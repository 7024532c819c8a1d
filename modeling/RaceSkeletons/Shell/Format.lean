import RaceSkeletons.Text.Utf8

/-!
# Formatted output

The two commands that print text: one prints its arguments with blanks in
between, the other fills them into a format. Both know escapes.
-/

namespace RaceSkeletons.Shell

/-- The number of octal digits at the start of a text, at most `most`, and
the rest. -/
def readOctal : (most : Nat) → (value : Nat) → List Char → Nat × List Char
  | 0, value, s => (value, s)
  | most + 1, value, s =>
    match s with
    | c :: rest =>
      if '0' ≤ c ∧ c ≤ '7' then readOctal most (value * 8 + (c.toNat - '0'.toNat)) rest
      else (value, s)
    | [] => (value, [])

/-- A single character as bytes. -/
def charBytes (c : Char) : Bytes :=
  String.utf8EncodeChar c

/-- Reads an escape behind its backslash. An unknown one stands for
itself. -/
def readEscape : List Char → Bytes × List Char
  | [] => (charBytes '\\', [])
  | c :: rest =>
    match c with
    | 'a' => ([7], rest)
    | 'b' => ([8], rest)
    | 't' => ([9], rest)
    | 'n' => ([10], rest)
    | 'v' => ([11], rest)
    | 'f' => ([12], rest)
    | 'r' => ([13], rest)
    | '\\' => ([92], rest)
    | '"' => ([34], rest)
    | c =>
      if '0' ≤ c ∧ c ≤ '7' then
        let (value, rest) := readOctal 3 0 (c :: rest)
        ([UInt8.ofNat value], rest)
      else (charBytes '\\', c :: rest)

/-- A text with its escapes resolved. `\c` ends all output. -/
def unescape : (fuel : Nat) → List Char → Bytes × Bool
  | 0, _ => ([], false)
  | _ + 1, [] => ([], false)
  | fuel + 1, '\\' :: rest =>
    match rest with
    | 'c' :: _ => ([], true)
    | '0' :: digits =>
      let (value, after) := readOctal 3 0 digits
      let (others, stops) := unescape fuel after
      (UInt8.ofNat value :: others, stops)
    | _ =>
      let (bytes, after) := readEscape rest
      let (others, stops) := unescape fuel after
      (bytes ++ others, stops)
  | fuel + 1, c :: rest =>
    let (others, stops) := unescape fuel rest
    (charBytes c ++ others, stops)

def echoOutput (arguments : List String) : Bytes :=
  let (withEnd, arguments) :=
    match arguments with
    | "-n" :: rest => (false, rest)
    | all => (true, all)
  let line := String.intercalate " " arguments
  let (bytes, stops) := unescape (line.length + 1) line.toList
  if stops || !withEnd then bytes else bytes ++ [10]

/-- The flags, the width and the precision of a conversion. -/
structure Conversion where
  leftAligned : Bool := false
  zeroPadded : Bool := false
  plus : Bool := false
  width : Nat := 0
  precision : Option Nat := none
  letter : Char := 's'
  deriving Repr, DecidableEq

/-- Reads a conversion behind its percent sign. -/
def readConversion (s : List Char) : Option (Conversion × List Char) :=
  let isFlag := fun c => c == '-' || c == '0' || c == '+' || c == ' ' || c == '#'
  let flags := s.takeWhile isFlag
  let rest := s.dropWhile isFlag
  let width := rest.takeWhile Char.isDigit
  let rest := rest.dropWhile Char.isDigit
  let (precision, rest) :=
    match rest with
    | '.' :: rest =>
      (some ((String.ofList (rest.takeWhile Char.isDigit)).toNat?.getD 0),
        rest.dropWhile Char.isDigit)
    | rest => (none, rest)
  match rest with
  | [] => none
  | letter :: rest =>
    some
      ({ leftAligned := flags.contains '-', zeroPadded := flags.contains '0',
         plus := flags.contains '+', width := (String.ofList width).toNat?.getD 0, precision,
         letter }, rest)

def Conversion.pad (c : Conversion) (zeros : Bool) (bytes : Bytes) : Bytes :=
  let missing := c.width - bytes.length
  if c.leftAligned then bytes ++ List.replicate missing 32
  else List.replicate missing (if zeros then 48 else 32) ++ bytes

/-- The number an argument stands for; zero when it is none. -/
def numberArgument (s : String) : Int :=
  match (s.trimAscii.toString).toInt? with
  | some n => n
  | none =>
    match s.toList with
    | '\'' :: c :: _ => c.toNat
    | '"' :: c :: _ => c.toNat
    | '+' :: rest => ((String.ofList rest).toNat?.getD 0 : Nat)
    | _ => 0

def digitsIn (base n : Nat) : String :=
  String.ofList (Nat.toDigits base n)

/-- An argument in the form of a conversion. Answers also whether all output
ends here. -/
def Conversion.convert (c : Conversion) (argument : String) : Bytes × Bool :=
  let cut := fun (bytes : Bytes) => (c.precision.map bytes.take).getD bytes
  let number := fun (text : String) => (c.pad c.zeroPadded (Utf8.encode text), false)
  match c.letter with
  | 's' => (c.pad false (cut (Utf8.encode argument)), false)
  | 'b' =>
    let (bytes, stops) := unescape (argument.length + 1) argument.toList
    (c.pad false (cut bytes), stops)
  | 'c' => (c.pad false ((Utf8.encode argument).take 1), false)
  | 'd' => number ((if c.plus && 0 ≤ numberArgument argument then "+" else "") ++
      toString (numberArgument argument))
  | 'i' => number (toString (numberArgument argument))
  | 'u' => number (toString (numberArgument argument).natAbs)
  | 'x' => number (digitsIn 16 (numberArgument argument).natAbs)
  | 'X' => number (digitsIn 16 (numberArgument argument).natAbs).toUpper
  | 'o' => number (digitsIn 8 (numberArgument argument).natAbs)
  | _ => ([], true)

/-- Fills arguments into a format once: the output, the arguments left, and
whether all output ends. -/
def fillOnce : (fuel : Nat) → List Char → List String → Bytes × List String × Bool
  | 0, _, arguments => ([], arguments, true)
  | _ + 1, [], arguments => ([], arguments, false)
  | fuel + 1, '\\' :: rest, arguments =>
    match rest with
    | 'c' :: _ => ([], arguments, true)
    | _ =>
      let (bytes, after) := readEscape rest
      let (others, left, stops) := fillOnce fuel after arguments
      (bytes ++ others, left, stops)
  | fuel + 1, '%' :: rest, arguments =>
    match rest with
    | '%' :: after =>
      let (others, left, stops) := fillOnce fuel after arguments
      (37 :: others, left, stops)
    | _ =>
      match readConversion rest with
      | none => ([], arguments, true)
      | some (c, after) =>
        let (bytes, ends) := c.convert (arguments.head?.getD "")
        if ends then (bytes, arguments, true)
        else
          let (others, left, stops) := fillOnce fuel after (arguments.drop 1)
          (bytes ++ others, left, stops)
  | fuel + 1, c :: rest, arguments =>
    let (others, left, stops) := fillOnce fuel rest arguments
    (charBytes c ++ others, left, stops)

/-- Fills arguments into a format, again and again while arguments are
left. -/
def fillFormat : (fuel : Nat) → String → List String → Bytes
  | 0, _, _ => []
  | fuel + 1, format, arguments =>
    let (bytes, left, stops) := fillOnce (format.length + 1) format.toList arguments
    if stops || left = [] || left.length = arguments.length then bytes
    else bytes ++ fillFormat fuel format left

def printfOutput (format : String) (arguments : List String) : Bytes :=
  fillFormat (arguments.length + 1) format arguments

end RaceSkeletons.Shell
