import RaceSkeletons.Analyzer.StringReader
import RaceSkeletons.Number.Shortest

/-!
# Reading numbers

Numbers of a document. One without fraction and exponent is an integer as
long as it fits into 64 bits; every other number is a double-precision
value. A long number contributes only the digits that fit into 64 bits, and
the digits behind them count as zeros.
-/

namespace RaceSkeletons

/-- A number of a document. -/
inductive NumberToken where
  | natural (n : Nat)
  /-- The number `-n`, for `n` greater than zero. -/
  | negative (n : Nat)
  | floating (isNegative : Bool) (value : Binary64)
  deriving Repr, DecidableEq

/-- How a number is named when it stands in the wrong place. -/
def NumberToken.found : NumberToken → FoundValue
  | .natural n => .integer n
  | .negative n => .integer (-(n : Int))
  | .floating isNegative value => .floating ((if isNegative then "-" else "") ++ value.text)

namespace Cursor

/-- The greatest number that fits into 64 bits. -/
def maxNatural : Nat := Nat.pow 2 64 - 1

/-- The least negative number is minus this. -/
def maxNegative : Nat := Nat.pow 2 63

/-- The greatest exponent that is computed with. -/
def maxExponentDigits : Nat := Nat.pow 2 31 - 1

def digitValue (c : Char) : Nat := c.toNat - 48

/-- Appends digits to a number while it stays within `limit`: the number, and
how many digits were left out. -/
def absorb (limit : Nat) (n : Nat) : List Char → Nat × Nat
  | [] => (n, 0)
  | d :: digits =>
    if limit < n * 10 + digitValue d then (n, digits.length + 1)
    else absorb limit (n * 10 + digitValue d) digits

/-- The value of `significand * 10 ^ exponent`. -/
def finishFloating (isNegative : Bool) (significand : Nat) (exponent : Int) (c : Cursor) :
    Reading NumberToken :=
  match (Binary64.ofNat? significand).bind (·.scaleByTen exponent) with
  | none => c.faultHere .numberOutOfRange
  | some value => .ok (.floating isNegative value, c)

/-- The cursor behind the sign of an exponent. -/
def skipSign (c : Cursor) : Cursor :=
  if c.rest.head? = some '+' ∨ c.rest.head? = some '-' then c.shift 1 else c

theorem size_skipSign_le (c : Cursor) : c.skipSign.size ≤ c.size := by
  unfold skipSign
  split <;> simp

/-- Reads an exponent; the cursor is at its letter. -/
def readExponent (isNegative : Bool) (significand : Nat) (exponent : Int) (c : Cursor) :
    Reading NumberToken :=
  let isPositive := (c.shift 1).rest.head? ≠ some '-'
  let c := (c.shift 1).skipSign
  match c.rest.head? with
  | none => c.faultHere .endInValue
  | some x =>
    if !x.isDigit then c.faultAhead .invalidNumber
    else
      let digits := c.run Char.isDigit
      let after := c.skip Char.isDigit
      let (n, left) := absorb maxExponentDigits 0 digits
      if left = 0 then
        finishFloating isNegative significand
          (if isPositive then exponent + n else exponent - n) after
      else if significand ≠ 0 ∧ isPositive then
        (c.shift (digits.length - left + 1)).faultHere .numberOutOfRange
      else .ok (.floating isNegative .zero, after)

/-- Whether an exponent starts at the cursor. -/
def atExponent (c : Cursor) : Bool :=
  c.rest.head? == some 'e' || c.rest.head? == some 'E'

/-- Reads a fraction; the cursor is at its point. -/
def readFraction (isNegative : Bool) (significand : Nat) (exponent : Int) (c : Cursor) :
    Reading NumberToken :=
  let c := c.shift 1
  let digits := c.run Char.isDigit
  let after := c.skip Char.isDigit
  if digits = [] then
    match c.rest with
    | [] => c.faultHere .endInValue
    | _ :: _ => c.faultAhead .invalidNumber
  else
    let (n, left) := absorb maxNatural significand digits
    let exponent := exponent - (digits.length - left : Nat)
    if after.atExponent then readExponent isNegative n exponent after
    else finishFloating isNegative n exponent after

/-- Reads what follows the integer digits of a number. `left` is how many of
them did not fit into the significand. -/
def readAfterInteger (isNegative : Bool) (significand left : Nat) (c : Cursor) :
    Reading NumberToken :=
  if c.rest.head? = some '.' then
    readFraction isNegative significand left c
  else if c.atExponent then readExponent isNegative significand left c
  else if left ≠ 0 then finishFloating isNegative significand left c
  else if !isNegative then .ok (.natural significand, c)
  else if significand = 0 ∨ maxNegative < significand then
    finishFloating true significand 0 c
  else .ok (.negative significand, c)

/-- Reads a number whose sign has been read. -/
def readNumber (c : Cursor) (isNegative : Bool) : Reading NumberToken :=
  match c.rest with
  | [] => c.faultHere .endInValue
  | '0' :: rest =>
    if rest.head?.any Char.isDigit then (c.shift 1).faultAhead .invalidNumber
    else readAfterInteger isNegative 0 0 (c.shift 1)
  | x :: _ =>
    if x.isDigit then
      let (n, left) := absorb maxNatural 0 (c.run Char.isDigit)
      readAfterInteger isNegative n left (c.skip Char.isDigit)
    else c.faultAhead .invalidNumber

/-- Passes over an exponent; the cursor is at its letter. -/
def skipExponent (c : Cursor) : Except PayloadError Cursor :=
  let c := (c.shift 1).skipSign
  if c.rest.head?.any Char.isDigit then .ok (c.skip Char.isDigit)
  else c.faultAhead .invalidNumber

def skipAfterInteger (c : Cursor) : Except PayloadError Cursor :=
  if c.rest.head? = some '.' then
    let c := c.shift 1
    if c.rest.head?.any Char.isDigit then
      let after := c.skip Char.isDigit
      if after.atExponent then after.skipExponent else .ok after
    else c.faultAhead .invalidNumber
  else if c.atExponent then c.skipExponent
  else .ok c

/-- Passes over a number whose sign has been passed over. -/
def skipNumber (c : Cursor) : Except PayloadError Cursor :=
  match c.rest with
  | '0' :: rest =>
    if rest.head?.any Char.isDigit then (c.shift 1).faultAhead .invalidNumber
    else (c.shift 1).skipAfterInteger
  | x :: _ =>
    if x.isDigit then (c.skip Char.isDigit).skipAfterInteger
    else c.faultAhead .invalidNumber
  | [] => c.faultAhead .invalidNumber

theorem size_skipExponent {c after : Cursor} (h : c.skipExponent = .ok after) :
    after.size ≤ c.size := by
  unfold skipExponent at h
  simp only at h
  split at h
  · cases h
    exact Nat.le_trans (size_skip_le _ _) (Nat.le_trans (size_skipSign_le _) (by simp))
  · cases h

theorem size_skipAfterInteger {c after : Cursor} (h : c.skipAfterInteger = .ok after) :
    after.size ≤ c.size := by
  unfold skipAfterInteger at h
  simp only at h
  split at h
  · split at h
    · have hle : ((c.shift 1).skip Char.isDigit).size ≤ c.size :=
        Nat.le_trans (size_skip_le _ _) (by simp)
      split at h
      · exact Nat.le_trans (size_skipExponent h) hle
      · cases h; exact hle
    · cases h
  · split at h
    · exact size_skipExponent h
    · cases h; exact Nat.le_refl _

theorem size_skip_lt {test : Char → Bool} {c : Cursor} {x : Char} {rest : List Char}
    (hrest : c.rest = x :: rest) (hx : test x = true) : (c.skip test).size < c.size := by
  have : (c.run test).length = (rest.takeWhile test).length + 1 := by
    simp [run, hrest, hx]
  have hsize : c.size = rest.length + 1 := by simp [size, hrest]
  simp only [skip, size_shift, this]
  omega

/-- A number takes at least one character. -/
theorem size_skipNumber {c after : Cursor} (h : c.skipNumber = .ok after) :
    after.size < c.size := by
  unfold skipNumber at h
  split at h
  · next hrest =>
    split at h
    · cases h
    · have := size_skipAfterInteger h
      have : 0 < c.size := size_pos hrest
      simp only [size_shift] at *
      omega
  · next hrest =>
    split at h
    · next hdigit =>
      exact Nat.lt_of_le_of_lt (size_skipAfterInteger h) (size_skip_lt hrest hdigit)
    · cases h
  · cases h

theorem size_finishFloating {isNegative : Bool} {significand : Nat} {exponent : Int}
    {c after : Cursor} {t : NumberToken}
    (h : finishFloating isNegative significand exponent c = .ok (t, after)) :
    after.size ≤ c.size := by
  unfold finishFloating at h
  split at h
  · cases h
  · cases h; exact Nat.le_refl _

theorem size_readExponent {isNegative : Bool} {significand : Nat} {exponent : Int}
    {c after : Cursor} {t : NumberToken}
    (h : readExponent isNegative significand exponent c = .ok (t, after)) :
    after.size ≤ c.size := by
  have hsign : ((c.shift 1).skipSign.skip Char.isDigit).size ≤ c.size :=
    Nat.le_trans (size_skip_le _ _) (Nat.le_trans (size_skipSign_le _) (by simp))
  unfold readExponent at h
  simp only at h
  split at h
  · cases h
  · split at h
    · cases h
    · split at h
      · exact Nat.le_trans (size_finishFloating h) hsign
      · split at h
        · cases h
        · cases h; exact hsign

theorem size_readFraction {isNegative : Bool} {significand : Nat} {exponent : Int}
    {c after : Cursor} {t : NumberToken}
    (h : readFraction isNegative significand exponent c = .ok (t, after)) :
    after.size ≤ c.size := by
  have hskip : ((c.shift 1).skip Char.isDigit).size ≤ c.size :=
    Nat.le_trans (size_skip_le _ _) (by simp)
  unfold readFraction at h
  simp only at h
  split at h
  · split at h <;> cases h
  · split at h
    · exact Nat.le_trans (size_readExponent h) hskip
    · exact Nat.le_trans (size_finishFloating h) hskip

theorem size_readAfterInteger {isNegative : Bool} {significand left : Nat}
    {c after : Cursor} {t : NumberToken}
    (h : readAfterInteger isNegative significand left c = .ok (t, after)) :
    after.size ≤ c.size := by
  unfold readAfterInteger at h
  split at h
  · exact size_readFraction h
  · split at h
    · exact size_readExponent h
    · split at h
      · exact size_finishFloating h
      · split at h
        · cases h; exact Nat.le_refl _
        · split at h
          · exact size_finishFloating h
          · cases h; exact Nat.le_refl _

theorem size_readNumber {isNegative : Bool} {c after : Cursor} {t : NumberToken}
    (h : c.readNumber isNegative = .ok (t, after)) : after.size ≤ c.size := by
  unfold readNumber at h
  split at h
  · cases h
  · split at h
    · cases h
    · exact Nat.le_trans (size_readAfterInteger h) (by simp)
  · split at h
    · exact Nat.le_trans (size_readAfterInteger h) (size_skip_le _ _)
    · cases h

end Cursor

end RaceSkeletons
