import Mathlib
import RaceSkeletons.Text.Blank
import RaceSkeletons.Text.Word

/-!
# How the character classes lie to each other

Digits are word characters, and white space never is. So a word ends where
white space begins, and a number behind a word goes on with the word. Both
facts are read off the tables: a range of digits lies within a range of word
characters, and a range of white space meets none.
-/

namespace RaceSkeletons

namespace CodeRanges

/-- Whether every range of a table lies within a range of another. -/
def isWithin (inner outer : CodeRanges) : Bool :=
  inner.all fun r => outer.any fun s => Nat.ble s.1 r.1 && Nat.ble r.2 s.2

/-- Whether no range of a table meets a range of another. -/
def isApart (left right : CodeRanges) : Bool :=
  left.all fun r => right.all fun s => Nat.blt r.2 s.1 || Nat.blt s.2 r.1

theorem contains_of_isWithin {inner outer : CodeRanges} (h : isWithin inner outer = true)
    {c : Char} (hc : inner.contains c = true) : outer.contains c = true := by
  obtain ⟨r, hr, hlow, hhigh⟩ := (contains_iff inner c).mp hc
  obtain ⟨s, hs, hrs⟩ := List.any_eq_true.mp (List.all_eq_true.mp h r hr)
  simp only [Bool.and_eq_true, Nat.ble_eq] at hrs
  exact (contains_iff outer c).mpr ⟨s, hs, by omega, by omega⟩

theorem not_contains_of_isApart {left right : CodeRanges} (h : isApart left right = true)
    {c : Char} (hc : left.contains c = true) : right.contains c = false := by
  obtain ⟨r, hr, hlow, hhigh⟩ := (contains_iff left c).mp hc
  refine Bool.eq_false_iff.mpr fun hright => ?_
  obtain ⟨s, hs, hlow', hhigh'⟩ := (contains_iff right c).mp hright
  have hrs := List.all_eq_true.mp (List.all_eq_true.mp h r hr) s hs
  simp only [Bool.or_eq_true, Nat.blt_eq] at hrs
  omega

end CodeRanges

namespace Text

/-! ## Digits and words -/

theorem digitRanges_isWithin : digitRanges.isWithin wordRanges = true := by
  decide +kernel

/-- A digit of any script continues a word. -/
theorem isWordChar_of_isDecimalDigit {c : Char} (h : isDecimalDigit c = true) :
    isWordChar c = true := by
  unfold isDecimalDigit at h
  unfold isWordChar
  split at h
  · next hascii =>
    rw [if_pos hascii]
    simp [isIdentifierChar, Char.isAlphanum, h]
  · next hascii =>
    rw [if_neg hascii]
    exact CodeRanges.contains_of_isWithin digitRanges_isWithin h

/-- An ASCII letter, an ASCII digit and the underscore continue a word. -/
theorem isWordChar_of_isIdentifierChar {c : Char} (h : isIdentifierChar c = true) :
    isWordChar c = true := by
  have hascii : c.toNat < 128 := by
    simp only [isIdentifierChar, Char.isAlphanum, Char.isAlpha, Char.isUpper, Char.isLower,
      Char.isDigit, Bool.or_eq_true, Bool.and_eq_true, decide_eq_true_eq, beq_iff_eq, ge_iff_le,
      UInt32.le_iff_toNat_le] at h
    rcases h with h | rfl
    · have hval : c.toNat = c.val.toNat := rfl
      simp at h
      omega
    · decide
  rw [isWordChar, if_pos hascii, h]

/-! ## White space and words -/

theorem blankRanges_isApart : blankRanges.isApart wordRanges = true := by
  decide +kernel

/-- No ASCII character is both white space and part of a word. -/
theorem isIdentifierChar_of_isBlank : ∀ n < 128, isBlank (Char.ofNat n) = true →
    isIdentifierChar (Char.ofNat n) = false := by
  decide

theorem isWordChar_of_isBlank {c : Char} (h : isBlank c = true) : isWordChar c = false := by
  unfold isWordChar
  split
  · next hascii =>
    have hc := isIdentifierChar_of_isBlank c.toNat hascii
    rw [Char.ofNat_toNat] at hc
    exact hc h
  · exact CodeRanges.not_contains_of_isApart blankRanges_isApart h

theorem isWordChar_equals : isWordChar '=' = false := by
  decide

/-- What is no part of a word is no digit. -/
theorem isDecimalDigit_eq_false {c : Char} (h : isWordChar c = false) :
    isDecimalDigit c = false := by
  refine Bool.eq_false_iff.mpr fun hd => ?_
  rw [isWordChar_of_isDecimalDigit hd] at h
  cases h

end Text

end RaceSkeletons
