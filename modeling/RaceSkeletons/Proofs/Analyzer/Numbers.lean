import RaceSkeletons.Proofs.Analyzer.Cursor
import RaceSkeletons.Analyzer.PayloadReader

/-!
# Numbers

Both readers of numbers pass exactly the numbers, as far as a number goes: `1` is no
number at the start of `10` (`Cursor.EndsNumber`). A number is taken for a line number
if it is written as a natural number and is not too great
(`Cursor.toOption_natural_readNumber`).
-/

namespace RaceSkeletons

namespace Cursor

variable {c mid after : Cursor} {x : Char} {rest : List Char} {test : Char → Bool}
  {n : NumberLiteral} {d : Digits}

/-- Whether a character can go on with a number. -/
def continuesNumber (x : Char) : Bool :=
  x.isDigit || x == '.' || x == 'e' || x == 'E'

/-- Whether no number goes on at the cursor. -/
def EndsNumber (c : Cursor) : Prop :=
  c.EndsRun continuesNumber

theorem endsRun_iff : c.EndsRun test ↔ c.rest.head?.any test = false := by
  unfold EndsRun
  cases c.rest.head? with
  | none => exact ⟨fun _ => rfl, nofun⟩
  | some x => simp

theorem EndsNumber.endsRun_isDigit (h : c.EndsNumber) : c.EndsRun Char.isDigit := by
  intro x hx
  have hcontinues := h x hx
  simp only [continuesNumber, Bool.or_eq_false_iff] at hcontinues
  exact hcontinues.1.1.1

theorem EndsNumber.head_ne_point (h : c.EndsNumber) : c.rest.head? ≠ some '.' := by
  intro hpoint
  exact absurd (h '.' hpoint) (by decide)

theorem EndsNumber.not_atExponent (h : c.EndsNumber) : c.atExponent = false := by
  cases hexponent : c.atExponent with
  | false => rfl
  | true =>
      simp only [atExponent, Bool.or_eq_true, beq_iff_eq] at hexponent
      rcases hexponent with he | he <;> exact absurd (h _ he) (by decide)

/-! ## Digits -/

theorem Passes.head_digit (h : c.Passes d.digits after) :
    ∃ x rest, c.rest = x :: rest ∧ x.isDigit = true := by
  obtain ⟨x, digits, hdigits⟩ := List.exists_cons_of_ne_nil d.nonempty
  refine ⟨x, digits ++ after.rest, ?_, d.areDigits x (hdigits ▸ List.mem_cons_self)⟩
  rw [h.rest_eq, hdigits, List.cons_append]

theorem skip_digits (h : c.Passes d.digits after) (hend : after.EndsRun Char.isDigit) :
    c.skip Char.isDigit = after :=
  skip_of_passes h d.areDigits hend

theorem Passes.head_any_isDigit (h : c.Passes d.digits after) :
    c.rest.head?.any Char.isDigit = true := by
  obtain ⟨x, rest, hrest, hx⟩ := h.head_digit
  rw [hrest]
  exact hx

/-- The digits at a cursor. -/
theorem exists_digits (h : c.rest.head?.any Char.isDigit = true) :
    ∃ d : Digits, d.digits = c.run Char.isDigit ∧ c.Passes d.digits (c.skip Char.isDigit) := by
  cases hrest : c.rest with
  | nil => rw [hrest] at h; cases h
  | cons x rest =>
      rw [hrest] at h
      have hx : x.isDigit = true := h
      have hrun : c.run Char.isDigit ≠ [] := by simp [run, hrest, hx]
      exact ⟨⟨_, hrun, forall_mem_run Char.isDigit c⟩, rfl, passes_skip Char.isDigit c⟩

/-! ## Exponents -/

theorem skipSign_of_isDigit (h : c.rest = x :: rest) (hx : x.isDigit = true) : c.skipSign = c := by
  have hsign : ¬(c.rest.head? = some '+' ∨ c.rest.head? = some '-') := by
    rw [h]
    rintro (hplus | hminus)
    · obtain rfl := Option.some.inj hplus; cases hx
    · obtain rfl := Option.some.inj hminus; cases hx
  rw [skipSign, if_neg hsign]

theorem exists_sign_passed (c : Cursor) :
    ∃ sign, (sign = [] ∨ sign = ['+'] ∨ sign = ['-']) ∧ c.Passes sign c.skipSign := by
  rw [skipSign]
  split
  · next hsign =>
      rcases hsign with hplus | hminus
      · obtain ⟨rest, hrest⟩ := List.head?_eq_some_iff.mp hplus
        exact ⟨['+'], .inr (.inl rfl), .cons hrest .nil⟩
      · obtain ⟨rest, hrest⟩ := List.head?_eq_some_iff.mp hminus
        exact ⟨['-'], .inr (.inr rfl), .cons hrest .nil⟩
  · exact ⟨[], .inl rfl, .nil⟩

/-- Behind the mark of an exponent are its digits. -/
theorem skipSign_of_mark {mark : List Char} (hmark : mark ∈ exponentMarks)
    (h : c.Passes mark mid) (hdigits : mid.Passes d.digits after) :
    c.atExponent = true ∧ (c.shift 1).skipSign = mid := by
  obtain ⟨x, digit, hrest, hx⟩ := hdigits.head_digit
  have hsigned : ∀ e sign : Char, (e = 'e' ∨ e = 'E') → (sign = '+' ∨ sign = '-') →
      c.Passes [e, sign] mid → c.atExponent = true ∧ (c.shift 1).skipSign = mid := by
    intro e sign he hsign h
    obtain ⟨⟨rest, hfirst⟩, hmore⟩ := passes_cons_iff.mp h
    obtain ⟨⟨rest', hsecond⟩, -⟩ := passes_cons_iff.mp hmore
    constructor
    · rcases he with rfl | rfl <;> simp [atExponent, hfirst]
    · rw [skipSign, if_pos (by rcases hsign with rfl | rfl <;> simp [hsecond]), hmore.shift_one]
  have hplain : ∀ e : Char, (e = 'e' ∨ e = 'E') → c.Passes [e] mid →
      c.atExponent = true ∧ (c.shift 1).skipSign = mid := by
    intro e he h
    obtain ⟨⟨rest, hfirst⟩, -⟩ := passes_cons_iff.mp h
    constructor
    · rcases he with rfl | rfl <;> simp [atExponent, hfirst]
    · rw [h.shift_one, skipSign_of_isDigit hrest hx]
  simp only [exponentMarks, List.mem_cons, List.not_mem_nil, or_false] at hmark
  rcases hmark with rfl | rfl | rfl | rfl | rfl | rfl
  · exact hplain _ (.inl rfl) h
  · exact hplain _ (.inr rfl) h
  · exact hsigned _ _ (.inl rfl) (.inl rfl) h
  · exact hsigned _ _ (.inr rfl) (.inl rfl) h
  · exact hsigned _ _ (.inl rfl) (.inr rfl) h
  · exact hsigned _ _ (.inr rfl) (.inr rfl) h

theorem exists_mark_passed (h : c.atExponent = true) :
    ∃ mark ∈ exponentMarks, c.Passes mark (c.shift 1).skipSign := by
  obtain ⟨sign, hsign, hpasses⟩ := exists_sign_passed (c.shift 1)
  simp only [atExponent, Bool.or_eq_true, beq_iff_eq] at h
  rcases h with he | he
  · obtain ⟨rest, hrest⟩ := List.head?_eq_some_iff.mp he
    refine ⟨'e' :: sign, ?_, .cons hrest hpasses⟩
    rcases hsign with rfl | rfl | rfl <;> decide
  · obtain ⟨rest, hrest⟩ := List.head?_eq_some_iff.mp he
    refine ⟨'E' :: sign, ?_, .cons hrest hpasses⟩
    rcases hsign with rfl | rfl | rfl <;> decide

/-- Passes over an exponent if there is one. -/
def skipExponent? (c : Cursor) : Except PayloadError Cursor :=
  if c.atExponent then c.skipExponent else .ok c

theorem skipExponent?_of_passes (h : c.Passes n.exponentText after) (hend : after.EndsNumber) :
    c.skipExponent? = .ok after := by
  unfold NumberLiteral.exponentText at h
  cases hexponent : n.exponent with
  | none =>
      rw [hexponent] at h
      obtain rfl := passes_nil_iff.mp h
      rw [skipExponent?, hend.not_atExponent]
      rfl
  | some e =>
      rw [hexponent] at h
      obtain ⟨mid, hmark, hdigits⟩ := passes_append_iff.mp h
      obtain ⟨hat, hsign⟩ := skipSign_of_mark e.1.2 hmark hdigits
      rw [skipExponent?, if_pos hat, skipExponent, hsign, if_pos hdigits.head_any_isDigit,
        skip_digits hdigits hend.endsRun_isDigit]

theorem exists_exponent_of_skipExponent? (h : c.skipExponent? = .ok after) :
    ∃ exponent : Option ({ mark // mark ∈ exponentMarks } × Digits),
      c.Passes (exponent.elim [] fun e => e.1.1 ++ e.2.digits) after := by
  unfold skipExponent? at h
  split at h
  · next hat =>
      obtain ⟨mark, hmem, hmark⟩ := exists_mark_passed hat
      unfold skipExponent at h
      simp only at h
      split at h
      · next hdigit =>
          obtain ⟨d, -, hdigits⟩ := exists_digits hdigit
          obtain rfl := Except.ok.inj h
          exact ⟨some (⟨mark, hmem⟩, d), hmark.append hdigits⟩
      · cases h
  · obtain rfl := Except.ok.inj h
    exact ⟨none, .nil⟩

/-! ## Behind the integer digits -/

theorem skipAfterInteger_eq (c : Cursor) : c.skipAfterInteger =
    if c.rest.head? = some '.' then
      if (c.shift 1).rest.head?.any Char.isDigit then
        ((c.shift 1).skip Char.isDigit).skipExponent?
      else (c.shift 1).faultAhead .invalidNumber
    else c.skipExponent? :=
  rfl

theorem endsRun_of_passes_exponentText (h : c.Passes n.exponentText after)
    (hend : after.EndsNumber) : c.EndsRun (fun x => x.isDigit || x == '.') := by
  unfold NumberLiteral.exponentText at h
  cases hexponent : n.exponent with
  | none =>
      rw [hexponent] at h
      obtain rfl := passes_nil_iff.mp h
      intro x hx
      have hcontinues := hend x hx
      simp only [continuesNumber, Bool.or_eq_false_iff] at hcontinues
      simp [hcontinues.1.1]
  | some e =>
      rw [hexponent] at h
      obtain ⟨⟨mark, hmem⟩, d⟩ := e
      intro x hx
      rw [h.rest_eq] at hx
      simp only [exponentMarks, List.mem_cons, List.not_mem_nil, or_false] at hmem
      rcases hmem with rfl | rfl | rfl | rfl | rfl | rfl <;>
        obtain rfl := Option.some.inj hx <;> decide

theorem skipAfterInteger_of_passes (h : c.Passes n.tail after) (hend : after.EndsNumber) :
    c.skipAfterInteger = .ok after := by
  rw [skipAfterInteger_eq]
  obtain ⟨mid, hfraction, hexponent⟩ := passes_append_iff.mp h
  have hmid := endsRun_of_passes_exponentText hexponent hend
  cases hsome : n.fraction with
  | none =>
      rw [hsome] at hfraction
      obtain rfl := passes_nil_iff.mp hfraction
      have hpoint : ¬mid.rest.head? = some '.' := fun hpoint => by
        have := hmid '.' hpoint
        simp at this
      rw [if_neg hpoint, skipExponent?_of_passes hexponent hend]
  | some d =>
      rw [hsome] at hfraction
      obtain ⟨⟨rest, hrest⟩, hdigits⟩ := passes_cons_iff.mp hfraction
      have hstop : mid.EndsRun Char.isDigit := fun x hx => by
        have := hmid x hx
        simp only [Bool.or_eq_false_iff] at this
        exact this.1
      rw [if_pos (by rw [hrest]; rfl), if_pos hdigits.head_any_isDigit, skip_digits hdigits hstop,
        skipExponent?_of_passes hexponent hend]

theorem endsRun_of_passes_tail (h : c.Passes n.tail after) (hend : after.EndsNumber) :
    c.EndsRun Char.isDigit := by
  obtain ⟨mid, hfraction, hexponent⟩ := passes_append_iff.mp h
  intro x hx
  cases hsome : n.fraction with
  | none =>
      rw [hsome] at hfraction
      obtain rfl := passes_nil_iff.mp hfraction
      have := endsRun_of_passes_exponentText hexponent hend x hx
      simp only [Bool.or_eq_false_iff] at this
      exact this.1
  | some d =>
      rw [h.rest_eq, NumberLiteral.tail, hsome] at hx
      obtain rfl := Option.some.inj hx
      decide

/-- What is passed over behind integer digits makes a number of them. -/
theorem exists_tail_of_skipAfterInteger (h : c.skipAfterInteger = .ok after) :
    ∃ fraction exponent, ∀ n : NumberLiteral, n.fraction = fraction → n.exponent = exponent →
      c.Passes n.tail after := by
  rw [skipAfterInteger_eq] at h
  split at h
  · next hpoint =>
      split at h
      · next hdigit =>
          obtain ⟨d, -, hdigits⟩ := exists_digits hdigit
          obtain ⟨exponent, hexponent⟩ := exists_exponent_of_skipExponent? h
          obtain ⟨rest, hrest⟩ := List.head?_eq_some_iff.mp hpoint
          refine ⟨some d, exponent, ?_⟩
          rintro n hfraction rfl
          rw [NumberLiteral.tail, hfraction]
          exact .cons hrest (hdigits.append hexponent)
      · cases h
  · obtain ⟨exponent, hexponent⟩ := exists_exponent_of_skipExponent? h
    refine ⟨none, exponent, ?_⟩
    rintro n hfraction rfl
    rw [NumberLiteral.tail, hfraction]
    exact hexponent

/-! ## Integer digits -/

theorem readers_of_zero (h : c.rest = '0' :: rest) :
    c.skipNumber = (if rest.head?.any Char.isDigit then (c.shift 1).faultAhead .invalidNumber
      else (c.shift 1).skipAfterInteger) ∧
    ∀ isNegative, c.readNumber isNegative =
      if rest.head?.any Char.isDigit then (c.shift 1).faultAhead .invalidNumber
      else readAfterInteger isNegative 0 0 (c.shift 1) :=
  ⟨by simp only [skipNumber, h], fun _ => by simp only [readNumber, h]⟩

theorem readers_of_ne_zero (h : c.rest = x :: rest) (hx : x ≠ '0') :
    c.skipNumber = (if x.isDigit then (c.skip Char.isDigit).skipAfterInteger
      else c.faultAhead .invalidNumber) ∧
    ∀ isNegative, c.readNumber isNegative =
      if x.isDigit then
        readAfterInteger isNegative (absorb maxNatural 0 (c.run Char.isDigit)).1
          (absorb maxNatural 0 (c.run Char.isDigit)).2 (c.skip Char.isDigit)
      else c.faultAhead .invalidNumber := by
  constructor
  · rw [skipNumber.eq_def]
    split
    · next heq => rw [h] at heq; exact absurd (List.cons.inj heq).1 hx
    · next heq => rw [h] at heq; obtain ⟨rfl, -⟩ := List.cons.inj heq; rfl
    · next heq => rw [h] at heq; cases heq
  · intro isNegative
    rw [readNumber.eq_def]
    split
    · next heq => rw [h] at heq; cases heq
    · next heq => rw [h] at heq; exact absurd (List.cons.inj heq).1 hx
    · next heq => rw [h] at heq; obtain ⟨rfl, -⟩ := List.cons.inj heq; rfl

theorem Passes.head?_eq (h : c.Passes d.digits after) (hrest : c.rest = x :: rest) :
    d.digits.head? = some x := by
  obtain ⟨y, digits, hcons⟩ := List.exists_cons_of_ne_nil d.nonempty
  have htext := h.rest_eq
  rw [hrest, hcons, List.cons_append] at htext
  rw [hcons, (List.cons.inj htext).1, List.head?_cons]

/-- What both readers do with integer digits. -/
theorem number_of_integer (hzero : d.digits.head? = some '0' → d.digits = ['0'])
    (h : c.Passes d.digits mid) (hend : mid.EndsRun Char.isDigit) :
    c.skipNumber = mid.skipAfterInteger ∧
      ∀ isNegative, c.readNumber isNegative =
        readAfterInteger isNegative (absorb maxNatural 0 d.digits).1
          (absorb maxNatural 0 d.digits).2 mid := by
  obtain ⟨x, rest, hrest, hx⟩ := h.head_digit
  by_cases hx0 : x = '0'
  · subst hx0
    have hdigits : d.digits = ['0'] := hzero (h.head?_eq hrest)
    rw [hdigits] at h
    have hmid := h.shift_one
    have hstop : ¬rest.head?.any Char.isDigit = true := by
      rw [← rest_shift_one hrest, hmid, endsRun_iff.mp hend]
      exact Bool.false_ne_true
    obtain ⟨hskip, hread⟩ := readers_of_zero hrest
    rw [if_neg hstop, hmid] at hskip
    refine ⟨hskip, fun isNegative => ?_⟩
    rw [hread, if_neg hstop, hmid, hdigits]
    rfl
  · have hrun : c.run Char.isDigit = d.digits := run_of_passes h d.areDigits hend
    obtain ⟨hskip, hread⟩ := readers_of_ne_zero hrest hx0
    rw [if_pos hx, skip_digits h hend] at hskip
    refine ⟨hskip, fun isNegative => ?_⟩
    rw [hread, if_pos hx, skip_digits h hend, hrun]

/-- At a cursor there are integer digits, or both readers fail. -/
theorem integer_or_fault (c : Cursor) :
    (∃ (d : Digits) (mid : Cursor), (d.digits.head? = some '0' → d.digits = ['0']) ∧
      c.Passes d.digits mid ∧ mid.EndsRun Char.isDigit) ∨
    ((∃ e, c.skipNumber = .error e) ∧ ∀ isNegative, ∃ e, c.readNumber isNegative = .error e) := by
  cases hrest : c.rest with
  | nil => exact .inr ⟨⟨_, by simp only [skipNumber, hrest]; rfl⟩,
      fun _ => ⟨_, by simp only [readNumber, hrest]; rfl⟩⟩
  | cons x rest =>
      by_cases hx0 : x = '0'
      · subst hx0
        obtain ⟨hskip, hread⟩ := readers_of_zero hrest
        by_cases hdigit : rest.head?.any Char.isDigit = true
        · exact .inr ⟨⟨_, hskip.trans (if_pos hdigit)⟩,
            fun _ => ⟨_, (hread _).trans (if_pos hdigit)⟩⟩
        · refine .inl ⟨⟨['0'], nofun, List.forall_mem_singleton.mpr rfl⟩, c.shift 1, fun _ => rfl,
            .cons hrest .nil, ?_⟩
          rw [endsRun_iff, rest_shift_one hrest]
          exact Bool.eq_false_iff.mpr hdigit
      · obtain ⟨hskip, hread⟩ := readers_of_ne_zero hrest hx0
        by_cases hdigit : x.isDigit = true
        · obtain ⟨d, hd, hdigits⟩ := exists_digits (c := c) (by rw [hrest]; exact hdigit)
          refine .inl ⟨d, _, fun hzero => ?_, hdigits, endsRun_skip Char.isDigit c⟩
          exact absurd (Option.some.inj ((hdigits.head?_eq hrest).symm.trans hzero)) hx0
        · exact .inr ⟨⟨_, hskip.trans (if_neg hdigit)⟩,
            fun _ => ⟨_, (hread _).trans (if_neg hdigit)⟩⟩

/-! ## Passing over a number -/

/-- A number is passed over if it ends there. -/
theorem skipNumber_of_passes (h : c.Passes n.unsigned after) (hend : after.EndsNumber) :
    c.skipNumber = .ok after := by
  obtain ⟨mid, hinteger, htail⟩ := passes_append_iff.mp h
  obtain ⟨hskip, -⟩ :=
    number_of_integer n.noLeadingZero hinteger (endsRun_of_passes_tail htail hend)
  rw [hskip, skipAfterInteger_of_passes htail hend]

/-- What is passed over is a number, whatever sign stood before it. -/
theorem exists_number_of_skipNumber (h : c.skipNumber = .ok after) (isNegative : Bool) :
    ∃ n : NumberLiteral, n.isNegative = isNegative ∧ c.Passes n.unsigned after := by
  obtain ⟨d, mid, hzero, hdigits, hstop⟩ | ⟨⟨e, he⟩, -⟩ := integer_or_fault c
  · rw [(number_of_integer hzero hdigits hstop).1] at h
    obtain ⟨fraction, exponent, htail⟩ := exists_tail_of_skipAfterInteger h
    exact ⟨⟨isNegative, d, hzero, fraction, exponent⟩, rfl, hdigits.append (htail _ rfl rfl)⟩
  · rw [he] at h
    cases h

/-! ## Reading a line number -/

theorem le_foldl_digitValue (value : Nat) (digits : List Char) :
    value ≤ digits.foldl (fun value d => value * 10 + digitValue d) value := by
  induction digits generalizing value with
  | nil => exact Nat.le_refl _
  | cons x digits ih =>
      have hnext := ih (value * 10 + digitValue x)
      rw [List.foldl_cons]
      omega

/-- Digits are left out exactly if the number does not fit. -/
theorem absorb_left_eq_zero_iff {limit value : Nat} {digits : List Char} (h : value ≤ limit) :
    (absorb limit value digits).2 = 0 ↔
      digits.foldl (fun value d => value * 10 + digitValue d) value ≤ limit := by
  induction digits generalizing value with
  | nil => exact ⟨fun _ => h, fun _ => rfl⟩
  | cons x digits ih =>
      rw [List.foldl_cons, absorb]
      by_cases hlimit : limit < value * 10 + digitValue x
      · have hle := le_foldl_digitValue (value * 10 + digitValue x) digits
        rw [if_pos hlimit]
        exact ⟨fun hzero => absurd hzero (Nat.succ_ne_zero _), fun hfits => by omega⟩
      · rw [if_neg hlimit]
        exact ih (Nat.not_lt.mp hlimit)

theorem foldl_absorb {limit value : Nat} {digits : List Char}
    (h : (absorb limit value digits).2 = 0) :
    (absorb limit value digits).1 =
      digits.foldl (fun value d => value * 10 + digitValue d) value := by
  induction digits generalizing value with
  | nil => rfl
  | cons x digits ih =>
      rw [absorb] at h ⊢
      split at h
      · cases h
      · next hlimit =>
          rw [if_neg hlimit, ih h]
          rfl

/-- The line number that integer digits alone stand for. -/
theorem natural?_of_isNatural (hnatural : n.isNatural = true) :
    n.natural? = if (absorb maxNatural 0 n.integer.digits).2 = 0 then
      some (absorb maxNatural 0 n.integer.digits).1 else none := by
  have hfits : (absorb maxNatural 0 n.integer.digits).2 = 0 ↔ n.magnitude ≤ maxLineNumber :=
    absorb_left_eq_zero_iff (Nat.zero_le _)
  unfold NumberLiteral.natural?
  by_cases hleft : (absorb maxNatural 0 n.integer.digits).2 = 0
  · rw [if_pos ⟨hnatural, hfits.mp hleft⟩, if_pos hleft, foldl_absorb hleft]
    rfl
  · rw [if_neg (fun h => hleft (hfits.mpr h.2)), if_neg hleft]

theorem natural_finishFloating (isNegative : Bool) (significand : Nat) (exponent : Int)
    (c : Cursor) :
    (readNatural.natural (finishFloating isNegative significand exponent c)).toOption = none := by
  unfold finishFloating
  split <;> rfl

theorem natural_readExponent (isNegative : Bool) (significand : Nat) (exponent : Int) (c : Cursor) :
    (readNatural.natural (readExponent isNegative significand exponent c)).toOption = none := by
  unfold readExponent
  simp only
  split
  · rfl
  · split
    · rfl
    · split
      · exact natural_finishFloating ..
      · split <;> rfl

theorem natural_readFraction (isNegative : Bool) (significand : Nat) (exponent : Int) (c : Cursor) :
    (readNatural.natural (readFraction isNegative significand exponent c)).toOption = none := by
  unfold readFraction
  simp only
  split
  · split <;> rfl
  · split
    · exact natural_readExponent ..
    · exact natural_finishFloating ..

theorem natural_readAfterInteger (significand left : Nat) (c : Cursor) :
    (readNatural.natural (readAfterInteger false significand left c)).toOption =
      if c.rest.head? = some '.' ∨ c.atExponent = true ∨ left ≠ 0 then none
      else some (significand, c) := by
  unfold readAfterInteger
  by_cases hpoint : c.rest.head? = some '.'
  · rw [if_pos hpoint, if_pos (.inl hpoint), natural_readFraction]
  · by_cases hexponent : c.atExponent = true
    · rw [if_neg hpoint, if_pos hexponent, if_pos (.inr (.inl hexponent)), natural_readExponent]
    · by_cases hleft : left ≠ 0
      · rw [if_neg hpoint, if_neg hexponent, if_pos hleft, if_pos (.inr (.inr hleft)),
          natural_finishFloating]
      · have hnone : ¬(c.rest.head? = some '.' ∨ c.atExponent = true ∨ left ≠ 0) := by
          rintro (h | h | h) <;> contradiction
        rw [if_neg hpoint, if_neg hexponent, if_neg hleft, if_neg hnone, if_pos (by rfl)]
        rfl

/-- A number with a sign is no line number. -/
theorem natural_readNumber_true (c : Cursor) :
    (readNatural.natural (c.readNumber true)).toOption = none := by
  have hafter : ∀ significand left (mid : Cursor),
      (readNatural.natural (readAfterInteger true significand left mid)).toOption = none := by
    intro significand left mid
    unfold readAfterInteger
    repeat' split
    · exact natural_readFraction ..
    · exact natural_readExponent ..
    · exact natural_finishFloating ..
    · next h => cases h
    · exact natural_finishFloating ..
    · rfl
  obtain ⟨d, mid, hzero, hdigits, hstop⟩ | ⟨-, hfault⟩ := integer_or_fault c
  · rw [(number_of_integer hzero hdigits hstop).2, hafter]
  · obtain ⟨e, he⟩ := hfault true
    rw [he]
    rfl

theorem tail_of_not_isNatural (hsign : n.isNegative = false) (hnatural : n.isNatural = false)
    (h : c.Passes n.tail after) : c.rest.head? = some '.' ∨ c.atExponent = true := by
  cases hfraction : n.fraction with
  | some d =>
      left
      rw [h.rest_eq, NumberLiteral.tail, hfraction]
      rfl
  | none =>
      right
      cases hexponent : n.exponent with
      | none => simp [NumberLiteral.isNatural, hsign, hfraction, hexponent] at hnatural
      | some e =>
          rw [NumberLiteral.tail, hfraction, NumberLiteral.exponentText, hexponent] at h
          change c.Passes (e.1.1 ++ e.2.digits) after at h
          obtain ⟨mid, hmark, hdigits⟩ := passes_append_iff.mp h
          exact (skipSign_of_mark e.1.2 hmark hdigits).1

theorem tail_of_isNatural (hnatural : n.isNatural = true) : n.tail = [] := by
  simp only [NumberLiteral.isNatural, Bool.and_eq_true, Option.isNone_iff_eq_none] at hnatural
  obtain ⟨⟨-, hfraction⟩, hexponent⟩ := hnatural
  rw [NumberLiteral.tail, hfraction, NumberLiteral.exponentText, hexponent]
  rfl

/-- A number without a sign is read as the line number that it stands for. -/
theorem toOption_natural_readNumber (hsign : n.isNegative = false)
    (h : c.Passes n.unsigned after) (hend : after.EndsNumber) :
    (readNatural.natural (c.readNumber false)).toOption =
      n.natural?.map fun value => (value, after) := by
  obtain ⟨mid, hinteger, htail⟩ := passes_append_iff.mp h
  rw [(number_of_integer n.noLeadingZero hinteger (endsRun_of_passes_tail htail hend)).2,
    natural_readAfterInteger]
  cases hnatural : n.isNatural with
  | false =>
      have hnone : n.natural? = none := if_neg fun h => by rw [hnatural] at h; cases h.1
      rw [hnone, if_pos]
      · rfl
      · exact (tail_of_not_isNatural hsign hnatural htail).imp_right .inl
  | true =>
      rw [tail_of_isNatural hnatural] at htail
      obtain rfl := passes_nil_iff.mp htail
      rw [natural?_of_isNatural hnatural]
      by_cases hleft : (absorb maxNatural 0 n.integer.digits).2 = 0
      · rw [if_pos hleft, if_neg]
        · rfl
        · rintro (hpoint | hexponent | hsome)
          · exact hend.head_ne_point hpoint
          · rw [hend.not_atExponent] at hexponent
            cases hexponent
          · exact hsome hleft
      · rw [if_neg hleft, if_pos (.inr (.inr hleft))]
        rfl

/-- What is read as a line number stands for it. -/
theorem exists_natural_of_readNumber {value : Nat}
    (h : readNatural.natural (c.readNumber false) = .ok (value, after)) :
    ∃ n : NumberLiteral, n.isNegative = false ∧ n.natural? = some value ∧
      c.Passes n.unsigned after := by
  obtain ⟨d, mid, hzero, hdigits, hstop⟩ | ⟨-, hfault⟩ := integer_or_fault c
  · have hread := toOption_eq_some_iff.mpr h
    rw [(number_of_integer hzero hdigits hstop).2, natural_readAfterInteger] at hread
    split at hread
    · cases hread
    · next hplain =>
        obtain ⟨rfl, rfl⟩ := Prod.mk.inj (Option.some.inj hread)
        have hleft : (absorb maxNatural 0 d.digits).2 = 0 :=
          Decidable.byContradiction fun hleft => hplain (.inr (.inr hleft))
        refine ⟨⟨false, d, hzero, none, none⟩, rfl, ?_, ?_⟩
        · rw [natural?_of_isNatural rfl, if_pos hleft]
        · exact hdigits.append .nil
  · obtain ⟨e, he⟩ := hfault false
    rw [he] at h
    cases h

end Cursor

end RaceSkeletons
