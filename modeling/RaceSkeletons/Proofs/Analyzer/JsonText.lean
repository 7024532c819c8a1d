import RaceSkeletons.Analyzer.ValueSkipper

/-!
# JSON texts

What a JSON text is, told without a reader: a value is a sequence of tokens
(`JsonValue.tokens`), a token has one text (`JsonToken.text`), and a text spells tokens
if it has them in their order, with blanks where it likes (`Spells`). So two texts of
one value differ in their blanks alone.

A value keeps strings and numbers as they are written. What a string stands for is
another question (`StringPiece.decode`): the form of its escapes may be right and its
surrogates alone, and then it stands for no text.
-/

namespace RaceSkeletons

/-- Four hexadecimal digits, with the number that they stand for. -/
structure CodeUnit where
  digits : List Char
  value : Nat
  length_eq : digits.length = 4
  isHex : Cursor.fourHex? digits = some value

/-- A piece of a string, as it is written. -/
inductive StringPiece where
  /-- A character that stands for itself. -/
  | plain (c : Char) (notQuote : c ≠ '"') (notEscape : c ≠ '\\') (notControl : 32 ≤ c.toNat)
  /-- A letter behind a backslash, and the character it stands for. -/
  | escape (letter c : Char) (isEscape : Cursor.escapeLetter? letter = some c)
  /-- A code unit behind a backslash and `u`. -/
  | unit (u : CodeUnit)

namespace StringPiece

def text : StringPiece → List Char
  | plain c .. => [c]
  | escape letter _ _ => ['\\', letter]
  | unit u => '\\' :: 'u' :: u.digits

/-- The text that the pieces of a string stand for: none if a surrogate stands alone. -/
def decode : List StringPiece → Option (List Char)
  | [] => some []
  | plain c _ _ _ :: rest => (decode rest).map (c :: ·)
  | escape _ c _ :: rest => (decode rest).map (c :: ·)
  | unit high :: rest =>
    if Cursor.isTrailingSurrogate high.value then none
    else if Cursor.isLeadingSurrogate high.value then
      match rest with
      | unit low :: rest =>
        if Cursor.isTrailingSurrogate low.value then
          (decode rest).map (Cursor.pairChar high.value low.value :: ·)
        else none
      | _ => none
    else (decode rest).map (Char.ofNat high.value :: ·)

/-- The text of a string with both of its quotes. -/
def quoted (pieces : List StringPiece) : List Char :=
  '"' :: pieces.flatMap text ++ ['"']

end StringPiece

/-- One decimal digit or more. -/
structure Digits where
  digits : List Char
  nonempty : digits ≠ []
  areDigits : ∀ c ∈ digits, c.isDigit = true

/-- The signs that may stand before an exponent. -/
def exponentMarks : List (List Char) :=
  [['e'], ['E'], ['e', '+'], ['E', '+'], ['e', '-'], ['E', '-']]

/-- A number, as it is written. -/
structure NumberLiteral where
  isNegative : Bool
  integer : Digits
  /-- Only the number zero starts with a zero. -/
  noLeadingZero : integer.digits.head? = some '0' → integer.digits = ['0']
  fraction : Option Digits
  exponent : Option ({ mark // mark ∈ exponentMarks } × Digits)

namespace NumberLiteral

def exponentText (n : NumberLiteral) : List Char :=
  n.exponent.elim [] fun e => e.1.1 ++ e.2.digits

/-- The text behind the integer digits. -/
def tail (n : NumberLiteral) : List Char :=
  (n.fraction.elim [] fun d => '.' :: d.digits) ++ n.exponentText

/-- The text without the sign. -/
def unsigned (n : NumberLiteral) : List Char :=
  n.integer.digits ++ n.tail

def text (n : NumberLiteral) : List Char :=
  (if n.isNegative then ['-'] else []) ++ n.unsigned

/-- The value of the integer digits. -/
def magnitude (n : NumberLiteral) : Nat :=
  n.integer.digits.foldl (fun value d => value * 10 + Cursor.digitValue d) 0

/-- Whether the number is written as a natural number. -/
def isNatural (n : NumberLiteral) : Bool :=
  !n.isNegative && n.fraction.isNone && n.exponent.isNone

/-- The line number that the number stands for, if it is one. -/
def natural? (n : NumberLiteral) : Option Nat :=
  if n.isNatural = true ∧ n.magnitude ≤ maxLineNumber then some n.magnitude else none

end NumberLiteral

def Container.opening : Container → Char
  | .list => '['
  | .object => '\x7b'

/-- A piece of a JSON text between which there may be blanks. -/
inductive JsonToken where
  | opens (kind : Container)
  | closes (kind : Container)
  | comma
  | colon
  | null
  | bool (value : Bool)
  | number (n : NumberLiteral)
  | string (pieces : List StringPiece)

def JsonToken.text : JsonToken → List Char
  | opens kind => [kind.opening]
  | closes kind => [kind.closing]
  | comma => [',']
  | colon => [':']
  | null => ['n', 'u', 'l', 'l']
  | bool true => ['t', 'r', 'u', 'e']
  | bool false => ['f', 'a', 'l', 's', 'e']
  | number n => n.text
  | string pieces => StringPiece.quoted pieces

/-- A JSON value. The keys of an object are strings as they are written. -/
inductive JsonValue where
  | null
  | bool (value : Bool)
  | number (n : NumberLiteral)
  | string (pieces : List StringPiece)
  | list (items : List JsonValue)
  | object (members : List (List StringPiece × JsonValue))

/-- A member of an object. -/
abbrev JsonMember := List StringPiece × JsonValue

namespace JsonValue

mutual

/-- The tokens of a value. -/
def tokens : JsonValue → List JsonToken
  | null => [.null]
  | bool value => [.bool value]
  | number n => [.number n]
  | string pieces => [.string pieces]
  | list [] => [.opens .list, .closes .list]
  | list (item :: items) => .opens .list :: item.tokens ++ moreItems items
  | object [] => [.opens .object, .closes .object]
  | object ((key, value) :: members) =>
    .opens .object :: .string key :: .colon :: value.tokens ++ moreMembers members

/-- The tokens behind an item of a list. -/
def moreItems : List JsonValue → List JsonToken
  | [] => [.closes .list]
  | item :: items => .comma :: item.tokens ++ moreItems items

/-- The tokens behind a member of an object. -/
def moreMembers : List (List StringPiece × JsonValue) → List JsonToken
  | [] => [.closes .object]
  | (key, value) :: members =>
    .comma :: .string key :: .colon :: value.tokens ++ moreMembers members

end

end JsonValue

/-- A text spells tokens if it has them in their order, with blanks before them. -/
inductive Spells : List JsonToken → List Char → Prop where
  | nil : Spells [] []
  | cons {token : JsonToken} {tokens : List JsonToken} {blank rest : List Char}
      (isBlank : ∀ c ∈ blank, Cursor.isJsonBlank c = true) (more : Spells tokens rest) :
      Spells (token :: tokens) (blank ++ token.text ++ rest)

/-- A text of a value, with blanks around it and between its tokens. -/
def JsonValue.IsSpelledBy (v : JsonValue) (text : List Char) : Prop :=
  ∃ spelled blank, Spells v.tokens spelled ∧ (∀ c ∈ blank, Cursor.isJsonBlank c = true) ∧
    text = spelled ++ blank

namespace Spells

variable {tokens more : List JsonToken} {text rest : List Char}

theorem append (h : Spells tokens text) (h' : Spells more rest) :
    Spells (tokens ++ more) (text ++ rest) := by
  induction h with
  | nil => exact h'
  | cons isBlank _ ih =>
      rw [List.append_assoc]
      exact .cons isBlank ih

theorem singleton (token : JsonToken) : Spells [token] token.text := by
  have h : Spells [token] ([] ++ token.text ++ []) := cons nofun .nil
  simpa using h

end Spells

/-! ## How tokens begin -/

theorem not_isJsonBlank_of_isDigit {c : Char} (h : c.isDigit = true) :
    Cursor.isJsonBlank c = false := by
  cases hblank : Cursor.isJsonBlank c with
  | false => rfl
  | true =>
      simp only [Cursor.isJsonBlank, Bool.or_eq_true, beq_iff_eq] at hblank
      rcases hblank with ((rfl | rfl) | rfl) | rfl <;> cases h

namespace NumberLiteral

theorem text_of_isNegative {n : NumberLiteral} (h : n.isNegative = true) :
    n.text = '-' :: n.unsigned := by
  rw [text, h]
  rfl

theorem text_of_not_isNegative {n : NumberLiteral} (h : n.isNegative = false) :
    n.text = n.unsigned := by
  rw [text, h]
  rfl

theorem unsigned_eq_cons (n : NumberLiteral) :
    ∃ first rest, n.unsigned = first :: rest ∧ first.isDigit = true := by
  obtain ⟨first, rest, hdigits⟩ := List.exists_cons_of_ne_nil n.integer.nonempty
  refine ⟨first, rest ++ n.tail, by rw [unsigned, hdigits, List.cons_append], ?_⟩
  exact n.integer.areDigits first (hdigits ▸ List.mem_cons_self)

theorem text_eq_cons (n : NumberLiteral) :
    ∃ first rest, n.text = first :: rest ∧ (first = '-' ∨ first.isDigit = true) := by
  cases hsign : n.isNegative with
  | true => exact ⟨'-', n.unsigned, text_of_isNegative hsign, .inl rfl⟩
  | false =>
      obtain ⟨first, rest, htext, hfirst⟩ := n.unsigned_eq_cons
      exact ⟨first, rest, (text_of_not_isNegative hsign).trans htext, .inr hfirst⟩

end NumberLiteral

namespace JsonToken

/-- Whether a token stands between values. -/
def isPunctuation : JsonToken → Bool
  | closes _ | comma | colon => true
  | _ => false

theorem text_eq_cons (token : JsonToken) :
    ∃ first rest, token.text = first :: rest ∧ Cursor.isJsonBlank first = false := by
  cases token with
  | opens kind => cases kind <;> exact ⟨_, _, rfl, by decide⟩
  | closes kind => cases kind <;> exact ⟨_, _, rfl, by decide⟩
  | bool value => cases value <;> exact ⟨_, _, rfl, by decide⟩
  | number n =>
      obtain ⟨first, rest, htext, hfirst⟩ := n.text_eq_cons
      refine ⟨first, rest, htext, ?_⟩
      rcases hfirst with rfl | hdigit
      · decide
      · exact not_isJsonBlank_of_isDigit hdigit
  | _ => exact ⟨_, _, rfl, by decide⟩

end JsonToken

namespace JsonValue

theorem tokens_eq_cons (v : JsonValue) :
    ∃ first rest, v.tokens = first :: rest ∧ first.isPunctuation = false := by
  match v with
  | null => exact ⟨_, _, by rw [tokens], rfl⟩
  | bool value => exact ⟨_, _, by rw [tokens], rfl⟩
  | number n => exact ⟨_, _, by rw [tokens], rfl⟩
  | string pieces => exact ⟨_, _, by rw [tokens], rfl⟩
  | list [] => exact ⟨_, _, by rw [tokens], rfl⟩
  | list (item :: items) => exact ⟨_, _, by rw [tokens]; rfl, rfl⟩
  | object [] => exact ⟨_, _, by rw [tokens], rfl⟩
  | object ((key, value) :: members) => exact ⟨_, _, by rw [tokens]; rfl, rfl⟩

end JsonValue

end RaceSkeletons
