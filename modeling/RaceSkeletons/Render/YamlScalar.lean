import RaceSkeletons.Number.Binary64

/-!
# YAML scalars

How a text is written as a scalar of a YAML document. A text that a reader
would take for something else (a number, a truth value, nothing) or that
holds characters with a meaning is quoted; a text of many lines becomes a
literal block where that is possible.
-/

namespace RaceSkeletons.Yaml

/-! ## What a plain text reads as -/

/-- Texts that read as no value. -/
def nullWords : List String := ["", "~", "null", "Null", "NULL"]

/-- Texts that read as truth values. -/
def boolWords : List String := ["true", "True", "TRUE", "false", "False", "FALSE"]

/-- Texts that read as numbers beyond all others, or as no number. -/
def specialNumbers : List String :=
  [".inf", ".Inf", ".INF", "+.inf", "+.Inf", "+.INF", "-.inf", "-.Inf", "-.INF",
   ".nan", ".NaN", ".NAN"]

/-- The value of a digit in any base up to 16. -/
def digitValue? (c : Char) : Option Nat :=
  if c.isDigit then some (c.toNat - '0'.toNat)
  else if 'a' ≤ c ∧ c ≤ 'f' then some (c.toNat - 'a'.toNat + 10)
  else if 'A' ≤ c ∧ c ≤ 'F' then some (c.toNat - 'A'.toNat + 10)
  else none

def readDigits (base : Nat) (n : Nat) : List Char → Option Nat
  | [] => some n
  | c :: rest =>
    match digitValue? c with
    | none => none
    | some d => if d < base then readDigits base (n * base + d) rest else none

/-- The number that a text of digits stands for. -/
def natural? (base : Nat) (s : List Char) : Option Nat :=
  if s = [] then none else readDigits base 0 s

/-- The number of a text without a sign: decimal, or in the base that its
start names. -/
def magnitude? : List Char → Option Nat
  | '0' :: 'x' :: rest => natural? 16 rest
  | '0' :: 'o' :: rest => natural? 8 rest
  | '0' :: 'b' :: rest => natural? 2 rest
  | s => natural? 10 s

def fitsUnsigned (n : Nat) : Bool := n < Nat.pow 2 128

/-- Whether the number `-n` is held by a signed integer. -/
def fitsNegative (n : Nat) : Bool := n ≤ Nat.pow 2 127

/-- Digits that start with a zero are an identifier, not a number. -/
def isZeroPadded (s : List Char) : Bool :=
  match s with
  | '0' :: c :: rest => (c :: rest).all Char.isDigit
  | _ => false

def unsigned : List Char → List Char
  | '+' :: rest => rest
  | '-' :: rest => rest
  | s => s

/-- Whether a text reads as an integer. -/
def readsAsInteger (s : List Char) : Bool :=
  if isZeroPadded (unsigned s) then false
  else
    match s with
    | '-' :: rest => (magnitude? rest).any fitsNegative
    | s => (magnitude? (unsigned s)).any fitsUnsigned

/-- The decimal number `digits * 10 ^ power` is held by a double-precision
value that is not infinite. -/
def isFinite (digits : Nat) (power : Int) : Bool :=
  let places : Int := (toString digits).length + power
  if digits = 0 ∨ places < 0 then true
  else if 400 < places then false
  else if 0 ≤ power then (Binary64.ofRatio? (digits * Nat.pow 10 power.toNat) 1).isSome
  else (Binary64.ofRatio? digits (Nat.pow 10 (-power).toNat)).isSome

/-- The exponent at the start of a text; zero when there is nothing. -/
def exponent? : List Char → Option Int
  | [] => some 0
  | c :: rest =>
    if c = 'e' ∨ c = 'E' then
      match rest with
      | '-' :: digits => (natural? 10 digits).map fun n => -(n : Int)
      | '+' :: digits => (natural? 10 digits).map Int.ofNat
      | digits => (natural? 10 digits).map Int.ofNat
    else none

/-- Whether a text without a sign reads as a finite decimal number. -/
def readsAsDecimal (s : List Char) : Bool :=
  let whole := s.takeWhile Char.isDigit
  let behind := s.dropWhile Char.isDigit
  let (fraction, rest) :=
    match behind with
    | '.' :: rest => (rest.takeWhile Char.isDigit, rest.dropWhile Char.isDigit)
    | rest => ([], rest)
  match natural? 10 (whole ++ fraction), exponent? rest with
  | some digits, some power => isFinite digits (power - fraction.length)
  | _, _ => false

/-- Whether a text reads as a number with a fraction or an exponent. -/
def readsAsFloat (s : List Char) : Bool :=
  specialNumbers.contains (String.ofList s) ||
    (!isZeroPadded (unsigned s) && readsAsDecimal (unsigned s))

/-- Whether a reader would take the text for another value, or could not tell
what is meant. -/
def isAmbiguous (s : List Char) : Bool :=
  nullWords.contains (String.ofList s) || boolWords.contains (String.ofList s) ||
    readsAsInteger s || readsAsFloat s || isZeroPadded (unsigned s)

/-! ## Characters -/

/-- Characters that end a line. -/
def isBreak (c : Char) : Bool :=
  c == '\n' || c == '\r' || c == '\u0085' || c == '\u2028' || c == '\u2029'

/-- Characters that end a token. -/
def isBlank (c : Char) : Bool :=
  c == ' ' || c == '\t' || isBreak c

/-- Characters that stand for themselves. -/
def isPrintable (c : Char) : Bool :=
  let n := c.toNat
  n == 0xa || (0x20 ≤ n && n ≤ 0x7e) ||
    (0xa0 ≤ n && n != 0xfeff && n != 0xfffe && n != 0xffff)

/-- Characters that cannot start a plain text. -/
def indicators : List Char :=
  ['#', ',', '[', ']', '\x7b', '\x7d', '&', '*', '!', '|', '>', '\'', '"', '%', '@', '\u0060']

/-- Characters that cannot start a plain text as a token of their own. -/
def tokenIndicators : List Char := ['?', ':', '-']

/-- Whether nothing or a blank follows. -/
def atTokenEnd (rest : List Char) : Bool :=
  rest.head?.all isBlank

/-- Whether a text starts like the beginning or the end of a document. -/
def startsLikeMarker (s : List Char) : Bool :=
  ['-', '-', '-'].isPrefixOf s || ['.', '.', '.'].isPrefixOf s

/-- Whether a text behind its first character holds a mark of a key or of a
comment. -/
def hasInnerIndicator : (afterBlank : Bool) → List Char → Bool
  | _, [] => false
  | afterBlank, c :: rest =>
    (c == ':' && atTokenEnd rest) || (c == '#' && afterBlank) ||
      hasInnerIndicator (isBlank c) rest

/-- Whether a plain text would be read as structure. -/
def hasIndicator : List Char → Bool
  | [] => false
  | c :: rest =>
    startsLikeMarker (c :: rest) || indicators.contains c ||
      (tokenIndicators.contains c && atTokenEnd rest) || hasInnerIndicator (isBlank c) rest

/-- Whether two neighbours of a text pass a test. -/
def anyNeighbours (test : Char → Char → Bool) : List Char → Bool
  | c :: d :: rest => test c d || anyNeighbours test (d :: rest)
  | _ => false

/-- Whether a space follows a line break: quoting cannot keep it. -/
def breakThenSpace (s : List Char) : Bool :=
  anyNeighbours (fun c d => isBreak c && d == ' ') s

/-- Whether a line ends with a space: only an escape can keep it. -/
def spaceThenBreak (s : List Char) : Bool :=
  anyNeighbours (fun c d => c == ' ' && isBreak d) s

/-! ## Styles -/

/-- How a scalar is written. -/
inductive Style where
  | plain
  | single
  | double
  | literal
  deriving Repr, DecidableEq

/-- Whether only escapes can write the text. -/
def needsEscapes (s : List Char) : Bool :=
  spaceThenBreak s || s.any fun c => !isPrintable c

/-- Whether single quotes can hold the text. -/
def allowsSingle (s : List Char) : Bool :=
  !needsEscapes s && !breakThenSpace s

def allowsPlain (s : List Char) : Bool :=
  allowsSingle s && !hasIndicator s && !s.any isBreak &&
    s.head? != some ' ' && s.getLast? != some ' '

def allowsLiteral (s : List Char) : Bool :=
  !needsEscapes s && s.getLast? != some ' '

def styleOf (s : List Char) : Style :=
  if s.contains '\n' then if allowsLiteral s then .literal else .double
  else if !isAmbiguous s && allowsPlain s then .plain
  else if allowsSingle s then .single
  else .double

/-! ## Writing -/

def pad (indent : Nat) : List Char :=
  List.replicate indent ' '

/-- A hexadecimal number in upper case with a fixed number of digits. -/
def hexText (width n : Nat) : List Char :=
  let digits := (Nat.toDigits 16 n).map Char.toUpper
  List.replicate (width - digits.length) '0' ++ digits

def escapeChar (c : Char) : List Char :=
  if c = '"' then ['\\', '"']
  else if c = '\\' then ['\\', '\\']
  else if isPrintable c && !isBreak c then [c]
  else
    match c.toNat with
    | 0x0 => ['\\', '0']
    | 0x7 => ['\\', 'a']
    | 0x8 => ['\\', 'b']
    | 0x9 => ['\\', 't']
    | 0xa => ['\\', 'n']
    | 0xb => ['\\', 'v']
    | 0xc => ['\\', 'f']
    | 0xd => ['\\', 'r']
    | 0x1b => ['\\', 'e']
    | 0x85 => ['\\', 'N']
    | 0x2028 => ['\\', 'L']
    | 0x2029 => ['\\', 'P']
    | n =>
      if n ≤ 0xff then '\\' :: 'x' :: hexText 2 n
      else if n ≤ 0xffff then '\\' :: 'u' :: hexText 4 n
      else '\\' :: 'U' :: hexText 8 n

/-- The lines of a literal block; `atStart` says that a line starts. -/
def literalLines (indent : Nat) : (atStart : Bool) → List Char → List Char
  | _, [] => []
  | atStart, c :: rest =>
    if isBreak c then c :: literalLines indent true rest
    else (if atStart then pad indent else []) ++ c :: literalLines indent false rest

/-- How a literal block treats the line breaks at its end. -/
def chomping (s : List Char) : List Char :=
  match s.reverse with
  | [] => ['-']
  | c :: before =>
    if !isBreak c then ['-']
    else if before.head?.all isBreak then ['+']
    else []

/-- A literal block. Its indentation is stated when its first line would
hide it. -/
def literal (indent : Nat) (s : List Char) : List Char :=
  let hint := if s.head?.any fun c => c == ' ' || isBreak c then ['2'] else []
  '|' :: hint ++ chomping s ++ '\n' :: literalLines indent true s

/-- The inside of a text between single quotes; `broken` says that a line has
just ended. -/
def singleInside (indent : Nat) : (broken : Bool) → List Char → List Char
  | broken, [] => if broken then pad indent else []
  | broken, c :: rest =>
    if isBreak c then c :: singleInside indent true rest
    else
      (if broken then pad indent else []) ++
        (if c = '\'' then ['\'', '\''] else [c]) ++ singleInside indent false rest

/-- A text as a scalar; lines behind the first one start at a column. -/
def scalar (indent : Nat) (s : List Char) : List Char :=
  match styleOf s with
  | .plain => s
  | .single => '\'' :: singleInside indent false s ++ ['\'']
  | .double => '"' :: s.flatMap escapeChar ++ ['"']
  | .literal => literal indent s

end RaceSkeletons.Yaml
