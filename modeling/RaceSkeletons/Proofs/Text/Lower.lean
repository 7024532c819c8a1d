import Mathlib
import RaceSkeletons.Text.Lower

/-!
# Lower case is reached in one step

No image of the case table is mapped again, and none is a capital sigma. So a
lowered text consists of characters that lower-casing leaves alone in every
context (`Text.IsLower`), and lowering it again changes nothing
(`Text.lower_eq_self`). Below the small letters lower-casing makes nothing new:
a dot, a slash or an underscore of a lowered text was there before.
-/

namespace RaceSkeletons.Text

/-- A character that lower-casing leaves alone, whatever stands around it. -/
structure IsLower (c : Char) : Prop where
  noSigma : c ≠ '\u03a3'
  fixed : lowerChar c = [c]

instance (c : Char) : Decidable (IsLower c) :=
  decidable_of_iff (c ≠ '\u03a3' ∧ lowerChar c = [c])
    ⟨fun ⟨h₁, h₂⟩ => ⟨h₁, h₂⟩, fun h => ⟨h.noSigma, h.fixed⟩⟩

/-! ## The table -/

/-- A row of the table. -/
abbrev LowerRun := Nat × Nat × Nat × Nat

namespace LowerRun

/-- Whether no image of `r` is a code point that `s` maps. -/
def isApart (r s : LowerRun) : Bool :=
  r.2.2.2 + (r.2.1 - r.1) < s.1 || s.2.1 < r.2.2.2 ||
    -- every second code point on both sides, and out of step
    (s.2.2.1 == 2 && (r.2.2.1 == 2 || r.1 == r.2.1) && (r.2.2.2 + s.1) % 2 == 1)

/-- Whether all images are code points of characters from the small letters
on. -/
def isSmall (r : LowerRun) : Bool :=
  0x61 ≤ r.2.2.2 &&
    (r.2.2.2 + (r.2.1 - r.1) < 0xd800 ||
      (0xe000 ≤ r.2.2.2 && r.2.2.2 + (r.2.1 - r.1) < 0x110000))

/-- The row covers a code point. -/
def Covers (r : LowerRun) (n : Nat) : Prop :=
  r.1 ≤ n ∧ n ≤ r.2.1 ∧ (n - r.1) % r.2.2.1 = 0

def image (r : LowerRun) (n : Nat) : Nat :=
  r.2.2.2 + (n - r.1)

theorem not_covers_image {r s : LowerRun} {n : Nat} (h : isApart r s = true)
    (hr : r.Covers n) : ¬ s.Covers (r.image n) := by
  obtain ⟨rFirst, rLast, rStep, rImage⟩ := r
  obtain ⟨sFirst, sLast, sStep, sImage⟩ := s
  simp only [isApart, Bool.or_eq_true, Bool.and_eq_true, decide_eq_true_eq, beq_iff_eq] at h
  simp only [Covers, image] at hr ⊢
  rintro ⟨hlow, hhigh, hstep⟩
  rcases h with (h | h) | ⟨⟨rfl, rfl | rfl⟩, h⟩
  · omega
  · omega
  · omega
  · omega

end LowerRun

theorem lowerCode_cases (n : Nat) :
    (∃ r ∈ lowerRuns, LowerRun.Covers r n ∧ lowerCode n = LowerRun.image r n) ∨
      (∀ r ∈ lowerRuns, ¬ LowerRun.Covers r n) ∧ lowerCode n = n := by
  have hcovers : ∀ r : LowerRun,
      (r.1 ≤ n && n ≤ r.2.1 && (n - r.1) % r.2.2.1 == 0) = true ↔ r.Covers n := by
    intro r
    simp only [Bool.and_eq_true, decide_eq_true_eq, beq_iff_eq, LowerRun.Covers, and_assoc]
  rw [lowerCode]
  split
  · next first last step image hfind =>
      have hfound := List.find?_some hfind
      exact .inl ⟨_, List.mem_of_find?_eq_some hfind,
        (hcovers (first, last, step, image)).mp hfound, rfl⟩
  · next hfind =>
      refine .inr ⟨fun r hr hr' => ?_, rfl⟩
      exact List.find?_eq_none.mp hfind r hr ((hcovers r).mpr hr')

/-- The code points with a mapping of their own: `İ` and the capital sigma. -/
def specialRuns : List LowerRun :=
  [(0x130, 0x130, 1, 0), (0x3a3, 0x3a3, 1, 0)]

theorem lowerRuns_settled :
    lowerRuns.all (fun r => LowerRun.isSmall r &&
      (lowerRuns ++ specialRuns).all (LowerRun.isApart r)) = true := by
  decide +kernel

theorem toNat_ofNat {n : Nat} (h : n.isValidChar) : (Char.ofNat n).toNat = n := by
  simp only [Char.ofNat, h, ↓reduceDIte]
  rfl

theorem isLower_of_ascii : ∀ n < 128, 0x61 ≤ n → IsLower (Char.ofNat n) := by
  decide

/-- A character that no row covers is left alone. -/
theorem isLower_of_not_covers {c : Char} (hc : 128 ≤ c.toNat)
    (h : ∀ s ∈ lowerRuns ++ specialRuns, ¬ LowerRun.Covers s c.toNat) : IsLower c := by
  have hne : ∀ m, (m, m, 1, 0) ∈ specialRuns → c.toNat ≠ m := by
    intro m hm heq
    refine h _ (List.mem_append_right _ hm) ?_
    simp only [LowerRun.Covers]
    omega
  refine ⟨fun heq => hne 0x3a3 (by decide) (heq ▸ rfl), ?_⟩
  have hcapital : c ≠ '\u0130' := fun heq => hne 0x130 (by decide) (heq ▸ rfl)
  rw [lowerChar, if_neg (Nat.not_lt.mpr hc), if_neg hcapital]
  rcases lowerCode_cases c.toNat with ⟨r, hr, hcovers, -⟩ | ⟨-, hcode⟩
  · exact absurd hcovers (h r (List.mem_append_left _ hr))
  · rw [hcode, Char.ofNat_toNat]

/-- What the table maps a code point to is a character that is not mapped
again. -/
theorem isLower_image {r : LowerRun} {n : Nat} (hr : r ∈ lowerRuns) (hn : r.Covers n) :
    IsLower (Char.ofNat (r.image n)) ∧ 0x61 ≤ (Char.ofNat (r.image n)).toNat := by
  have hall := List.all_eq_true.mp lowerRuns_settled r hr
  rw [Bool.and_eq_true] at hall
  obtain ⟨hsmall, hapart⟩ := hall
  have hother : ∀ s ∈ lowerRuns ++ specialRuns, ¬ LowerRun.Covers s (r.image n) := fun s hs =>
    LowerRun.not_covers_image (List.all_eq_true.mp hapart s hs) hn
  have hbounds : 0x61 ≤ r.image n ∧ (r.image n).isValidChar := by
    obtain ⟨first, last, step, image⟩ := r
    simp only [LowerRun.isSmall, Bool.or_eq_true, Bool.and_eq_true, decide_eq_true_eq] at hsmall
    simp only [LowerRun.Covers] at hn
    simp only [LowerRun.image, Nat.isValidChar]
    omega
  have hcode : (Char.ofNat (r.image n)).toNat = r.image n := toNat_ofNat hbounds.2
  rw [hcode]
  refine ⟨?_, hbounds.1⟩
  by_cases hascii : r.image n < 128
  · exact isLower_of_ascii _ hascii hbounds.1
  · refine isLower_of_not_covers ?_ ?_ <;> rw [hcode]
    · exact Nat.not_lt.mp hascii
    · exact hother

/-! ## Characters -/

theorem ascii_toLower : ∀ n < 128, IsLower (Char.ofNat n).toLower ∧
    ((Char.ofNat n).toLower = Char.ofNat n ∨ 0x61 ≤ (Char.ofNat n).toLower.toNat) := by
  decide

/-- The images of a character are left alone, and are small letters or beyond
unless they are the character itself. -/
theorem isLower_of_mem_lowerChar {c d : Char} (hc : c ≠ '\u03a3') (h : d ∈ lowerChar c) :
    IsLower d ∧ (d = c ∨ 0x61 ≤ d.toNat) := by
  rw [lowerChar] at h
  split at h
  · next hascii =>
      have hall := ascii_toLower c.toNat hascii
      rw [Char.ofNat_toNat] at hall
      rw [List.mem_singleton.mp h]
      exact hall
  · next hbeyond =>
      split at h
      · have hmem : d = 'i' ∨ d = '\u0307' := by simpa using h
        rcases hmem with rfl | rfl <;> exact ⟨by decide, .inr (by decide)⟩
      · next hcapital =>
          rw [List.mem_singleton.mp h]
          rcases lowerCode_cases c.toNat with ⟨r, hr, hcovers, hcode⟩ | ⟨hnone, hcode⟩
          · rw [hcode]
            exact (isLower_image hr hcovers).imp_right .inr
          · rw [hcode, Char.ofNat_toNat]
            refine ⟨⟨hc, ?_⟩, .inl rfl⟩
            rw [lowerChar, if_neg hbeyond, if_neg hcapital, hcode, Char.ofNat_toNat]

theorem lowerChar_ne_nil (c : Char) : lowerChar c ≠ [] := by
  rw [lowerChar]
  split
  · exact List.cons_ne_nil _ _
  · split <;> exact List.cons_ne_nil _ _

theorem isLower_lowerSigma (before after : List Char) :
    IsLower (lowerSigma before after) ∧ 0x61 ≤ (lowerSigma before after).toNat := by
  rw [lowerSigma]
  split <;> decide

/-! ## Texts -/

theorem mem_lowerFrom {before s : List Char} {d : Char} (h : d ∈ lowerFrom before s) :
    IsLower d ∧ (d ∈ s ∨ 0x61 ≤ d.toNat) := by
  induction s generalizing before with
  | nil => exact absurd h List.not_mem_nil
  | cons c rest ih =>
      rw [lowerFrom] at h
      rcases List.mem_append.mp h with hmem | hmem
      · split at hmem
        · rw [List.mem_singleton.mp hmem]
          exact (isLower_lowerSigma before rest).imp_right .inr
        · next hc =>
            obtain ⟨hlower, rfl | hsmall⟩ := isLower_of_mem_lowerChar hc hmem
            · exact ⟨hlower, .inl List.mem_cons_self⟩
            · exact ⟨hlower, .inr hsmall⟩
      · exact (ih hmem).imp_right (Or.imp_left (List.mem_cons_of_mem c))

theorem isLower_of_mem_lower {s : List Char} {d : Char} (h : d ∈ lower s) : IsLower d :=
  (mem_lowerFrom h).1

/-- Below the small letters nothing new comes up. -/
theorem mem_of_mem_lower {s : List Char} {d : Char} (h : d ∈ lower s) (hd : d.toNat < 0x61) :
    d ∈ s :=
  (mem_lowerFrom h).2.resolve_right (Nat.not_le.mpr hd)

theorem mem_lower {s : List Char} {d : Char} (h : d ∈ s) (hd : IsLower d) : d ∈ lower s := by
  suffices hfrom : ∀ before, d ∈ lowerFrom before s from hfrom []
  induction s with
  | nil => exact absurd h List.not_mem_nil
  | cons c rest ih =>
      intro before
      rw [lowerFrom]
      rcases List.mem_cons.mp h with rfl | hmem
      · rw [if_neg hd.noSigma, hd.fixed]
        exact List.mem_append_left _ List.mem_cons_self
      · exact List.mem_append_right _ (ih hmem _)

theorem lowerFrom_of_isLower (before : List Char) {s : List Char} (h : ∀ c ∈ s, IsLower c) :
    lowerFrom before s = s := by
  induction s generalizing before with
  | nil => rfl
  | cons c rest ih =>
      have hc := h c List.mem_cons_self
      rw [lowerFrom, if_neg hc.noSigma, hc.fixed, ih _ fun d hd => h d (List.mem_cons_of_mem c hd)]
      rfl

/-- A lowered beginning stays as it is. -/
theorem lowerFrom_append (before : List Char) {s : List Char} (h : ∀ c ∈ s, IsLower c)
    (rest : List Char) :
    lowerFrom before (s ++ rest) = s ++ lowerFrom (s.reverse ++ before) rest := by
  induction s generalizing before with
  | nil => rfl
  | cons c more ih =>
      have hc := h c List.mem_cons_self
      rw [List.cons_append, lowerFrom, if_neg hc.noSigma, hc.fixed,
        ih _ fun d hd => h d (List.mem_cons_of_mem c hd), List.reverse_cons, List.append_assoc]
      rfl

/-- What lower-casing leaves alone character by character it leaves alone. -/
theorem lower_eq_self {s : List Char} (h : ∀ c ∈ s, IsLower c) : lower s = s :=
  lowerFrom_of_isLower [] h

/-- A lowered end stays; only the text before it is lowered. Nothing but
underscores becomes of underscores only. -/
theorem lower_append (s : List Char) {rest : List Char} (h : ∀ c ∈ rest, IsLower c) :
    ∃ front, lower (s ++ rest) = front ++ rest ∧
      ((∀ d ∈ front, d = '_') ↔ ∀ c ∈ s, c = '_') := by
  suffices hfrom : ∀ before, ∃ front, lowerFrom before (s ++ rest) = front ++ rest ∧
      ((∀ d ∈ front, d = '_') ↔ ∀ c ∈ s, c = '_') from hfrom []
  induction s with
  | nil => exact fun before => ⟨[], lowerFrom_of_isLower before h, Iff.rfl⟩
  | cons c more ih =>
      intro before
      obtain ⟨front, hfront, hiff⟩ := ih (c :: before)
      have hfirst : (∀ d ∈ (if c = '\u03a3' then [lowerSigma before (more ++ rest)]
          else lowerChar c), d = '_') ↔ c = '_' := by
        split
        · next hc =>
            have hsmall := (isLower_lowerSigma before (more ++ rest)).2
            subst hc
            refine ⟨fun hall => ?_, nofun⟩
            rw [hall _ (List.mem_singleton_self _)] at hsmall
            exact absurd hsmall (by decide)
        · next hc =>
            constructor
            · intro hall
              obtain ⟨d, hd⟩ := List.exists_mem_of_ne_nil _ (lowerChar_ne_nil c)
              obtain ⟨-, heq | hsmall⟩ := isLower_of_mem_lowerChar hc hd
              · exact heq ▸ hall d hd
              · rw [hall d hd] at hsmall
                exact absurd hsmall (by decide)
            · rintro rfl d hd
              exact List.mem_singleton.mp hd
      refine ⟨(if c = '\u03a3' then [lowerSigma before (more ++ rest)] else lowerChar c) ++ front,
        ?_, ?_⟩
      · rw [List.cons_append, lowerFrom, hfront, List.append_assoc]
      · rw [List.forall_mem_append, hfirst, hiff, List.forall_mem_cons]

end RaceSkeletons.Text
