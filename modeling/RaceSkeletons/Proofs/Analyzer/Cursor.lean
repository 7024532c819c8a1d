import RaceSkeletons.Proofs.Analyzer.JsonText

/-!
# What a cursor passes

A reader takes a cursor over some text to the cursor behind it (`Cursor.Passes`), and a
reader of a value takes it over tokens, with the blanks before each of them
(`Cursor.Reads`). What is read so is what the tokens spell (`Cursor.reads_iff`).
-/

namespace RaceSkeletons

namespace Cursor

variable {c mid after after' : Cursor} {text more rest : List Char} {x : Char}
  {test : Char → Bool} {token : JsonToken} {tokens others : List JsonToken}

/-! ## The value of a reading -/

theorem toOption_ok {ε α : Type} (a : α) : (Except.ok a : Except ε α).toOption = some a :=
  rfl

theorem toOption_map {ε α β : Type} (f : α → β) (r : Except ε α) :
    (r.map f).toOption = r.toOption.map f := by
  cases r <;> rfl

theorem toOption_eq_some_iff {ε α : Type} {r : Except ε α} {a : α} :
    r.toOption = some a ↔ r = .ok a := by
  cases r with
  | error e => exact ⟨nofun, nofun⟩
  | ok b => exact ⟨fun h => congrArg Except.ok (Option.some.inj h), fun h => by rw [h]; rfl⟩

/-! ## Over a text -/

/-- The text between two cursors. -/
inductive Passes : Cursor → List Char → Cursor → Prop where
  | nil {c : Cursor} : Passes c [] c
  | cons {c after : Cursor} {x : Char} {rest text : List Char} (first : c.rest = x :: rest)
      (more : Passes (c.shift 1) text after) : Passes c (x :: text) after

@[simp] theorem passes_nil_iff : c.Passes [] after ↔ after = c := by
  constructor
  · rintro ⟨⟩
    rfl
  · rintro rfl
    exact .nil

theorem passes_cons_iff :
    c.Passes (x :: text) after ↔ (∃ rest, c.rest = x :: rest) ∧ (c.shift 1).Passes text after := by
  constructor
  · rintro (_ | ⟨first, more⟩)
    exact ⟨⟨_, first⟩, more⟩
  · rintro ⟨⟨rest, first⟩, more⟩
    exact .cons first more

theorem passes_append_iff :
    c.Passes (text ++ more) after ↔ ∃ mid, c.Passes text mid ∧ mid.Passes more after := by
  induction text generalizing c with
  | nil => simp
  | cons x text ih =>
      rw [List.cons_append, passes_cons_iff, ih]
      constructor
      · rintro ⟨⟨rest, hfirst⟩, mid, htext, hmore⟩
        exact ⟨mid, .cons hfirst htext, hmore⟩
      · rintro ⟨mid, htext, hmore⟩
        obtain ⟨hfirst, htext⟩ := passes_cons_iff.mp htext
        exact ⟨hfirst, mid, htext, hmore⟩

theorem Passes.append (h : c.Passes text mid) (h' : mid.Passes more after) :
    c.Passes (text ++ more) after :=
  passes_append_iff.mpr ⟨mid, h, h'⟩

theorem rest_shift_one (h : c.rest = x :: rest) : (c.shift 1).rest = rest := by
  obtain ⟨_, _⟩ := c
  obtain rfl := h
  rfl

theorem Passes.rest_eq (h : c.Passes text after) : c.rest = text ++ after.rest := by
  induction h with
  | nil => rfl
  | cons first _ ih => rw [first, List.cons_append, ← ih, rest_shift_one first]

/-- A text that stands at a cursor can be passed. -/
theorem exists_passes (h : c.rest = text ++ more) : ∃ after, c.Passes text after ∧
    after.rest = more := by
  induction text generalizing c with
  | nil => exact ⟨c, .nil, h⟩
  | cons x text ih =>
      obtain ⟨after, hafter, hrest⟩ := ih (rest_shift_one h)
      exact ⟨after, .cons h hafter, hrest⟩

theorem Passes.shift_one (h : c.Passes [x] after) : c.shift 1 = after :=
  (passes_nil_iff.mp (passes_cons_iff.mp h).2).symm

theorem shift_add (m n : Nat) (c : Cursor) : (c.shift m).shift n = c.shift (m + n) := by
  induction m generalizing c with
  | zero => rw [shift, Nat.zero_add]
  | succ m ih =>
      obtain ⟨rest, p⟩ := c
      cases rest with
      | nil =>
          have hnil : ∀ n, shift n ⟨[], p⟩ = ⟨[], p⟩ := fun n => by cases n <;> rfl
          rw [hnil, hnil, hnil]
      | cons x rest =>
          rw [shift, ih, Nat.add_right_comm]
          rfl

theorem Passes.shift_length (h : c.Passes text after) : c.shift text.length = after := by
  induction h with
  | nil => rfl
  | cons _ _ ih => rw [List.length_cons, Nat.add_comm, ← shift_add, ih]

/-! ## Runs of characters -/

/-- Whether no run of characters that pass a test goes on at the cursor. -/
def EndsRun (test : Char → Bool) (c : Cursor) : Prop :=
  ∀ x ∈ c.rest.head?, test x = false

theorem skip_of_endsRun (h : c.EndsRun test) : c.skip test = c := by
  have hnone : c.run test = [] := by
    rw [run]
    cases hrest : c.rest with
    | nil => rfl
    | cons x rest =>
        have hx : test x = false := h x (by rw [hrest]; exact rfl)
        simp [hx]
  rw [skip, hnone]
  rfl

theorem run_of_passes (h : c.Passes text after) (htext : ∀ x ∈ text, test x = true)
    (hend : after.EndsRun test) : c.run test = text := by
  rw [run, h.rest_eq, List.takeWhile_append_of_pos htext]
  have hnone : after.rest.takeWhile test = [] := by
    cases hrest : after.rest with
    | nil => rfl
    | cons x rest =>
        have hx : test x = false := hend x (by rw [hrest]; exact rfl)
        simp [hx]
  rw [hnone, List.append_nil]

theorem skip_of_passes (h : c.Passes text after) (htext : ∀ x ∈ text, test x = true)
    (hend : after.EndsRun test) : c.skip test = after := by
  rw [skip, run_of_passes h htext hend, h.shift_length]

theorem passes_skip (test : Char → Bool) (c : Cursor) : c.Passes (c.run test) (c.skip test) := by
  obtain ⟨after, hafter, -⟩ := exists_passes (c.rest.takeWhile_append_dropWhile (p := test)).symm
  rw [skip]
  exact (hafter.shift_length : c.shift (c.run test).length = after) ▸ hafter

theorem forall_mem_run (test : Char → Bool) (c : Cursor) : ∀ x ∈ c.run test, test x = true :=
  fun x hx => by
    have hall : (c.rest.takeWhile test).all test = true := List.all_takeWhile
    exact List.all_eq_true.mp hall x hx

theorem endsRun_skip (test : Char → Bool) (c : Cursor) : (c.skip test).EndsRun test := by
  have hsplit := (passes_skip test c).rest_eq
  have hwhole := c.rest.takeWhile_append_dropWhile (p := test)
  have hrest : (c.skip test).rest = c.rest.dropWhile test :=
    List.append_cancel_left (hsplit.symm.trans hwhole.symm)
  intro x hx
  rw [hrest] at hx
  have hhead := List.head?_dropWhile_not test c.rest
  rw [hx] at hhead
  simpa using hhead

/-! ## Over tokens -/

theorem skipBlank_of_endsRun (h : c.EndsRun isJsonBlank) : c.skipBlank = c :=
  skip_of_endsRun h

theorem endsRun_of_passes_token (h : c.Passes token.text after) : c.EndsRun isJsonBlank := by
  obtain ⟨first, rest, htext, hfirst⟩ := token.text_eq_cons
  intro x hx
  rw [h.rest_eq, htext] at hx
  obtain rfl := Option.some.inj hx
  exact hfirst

/-- The tokens between two cursors, with blanks before them. -/
inductive Reads : Cursor → List JsonToken → Cursor → Prop where
  | nil {c : Cursor} : Reads c [] c
  | cons {c mid after : Cursor} {token : JsonToken} {tokens : List JsonToken}
      (first : c.skipBlank.Passes token.text mid) (more : Reads mid tokens after) :
      Reads c (token :: tokens) after

@[simp] theorem reads_nil_iff : c.Reads [] after ↔ after = c := by
  constructor
  · rintro ⟨⟩
    rfl
  · rintro rfl
    exact .nil

theorem reads_cons_iff : c.Reads (token :: tokens) after ↔
    ∃ mid, c.skipBlank.Passes token.text mid ∧ mid.Reads tokens after := by
  constructor
  · rintro (_ | ⟨first, more⟩)
    exact ⟨_, first, more⟩
  · rintro ⟨mid, first, more⟩
    exact .cons first more

theorem reads_append_iff :
    c.Reads (tokens ++ others) after ↔ ∃ mid, c.Reads tokens mid ∧ mid.Reads others after := by
  induction tokens generalizing c with
  | nil => simp
  | cons token tokens ih =>
      simp only [List.cons_append, reads_cons_iff, ih]
      constructor
      · rintro ⟨next, hfirst, mid, hmid, hothers⟩
        exact ⟨mid, ⟨next, hfirst, hmid⟩, hothers⟩
      · rintro ⟨mid, ⟨next, hfirst, hmid⟩, hothers⟩
        exact ⟨next, hfirst, mid, hmid, hothers⟩

theorem Reads.append (h : c.Reads tokens mid) (h' : mid.Reads others after) :
    c.Reads (tokens ++ others) after :=
  reads_append_iff.mpr ⟨mid, h, h'⟩

theorem reads_token_iff : c.Reads (token :: tokens) after ↔
    ∃ mid, c.Reads [token] mid ∧ mid.Reads tokens after := by
  rw [← List.singleton_append, reads_append_iff]

theorem reads_singleton (h : c.skipBlank.Passes token.text after) : c.Reads [token] after :=
  .cons h .nil

theorem reads_singleton_iff : c.Reads [token] after ↔ c.skipBlank.Passes token.text after := by
  rw [reads_cons_iff]
  simp

theorem skipBlank_skipBlank (c : Cursor) : c.skipBlank.skipBlank = c.skipBlank :=
  skipBlank_of_endsRun (endsRun_skip isJsonBlank c)

/-- What is read are tokens that the text spells. -/
theorem reads_iff : c.Reads tokens after ↔ ∃ text, Spells tokens text ∧ c.Passes text after := by
  constructor
  · intro h
    induction h with
    | nil => exact ⟨[], .nil, .nil⟩
    | @cons c _ _ _ _ first _ ih =>
        obtain ⟨text, hspells, hpasses⟩ := ih
        refine ⟨_, .cons (forall_mem_run isJsonBlank c) hspells, ?_⟩
        exact ((passes_skip isJsonBlank c).append first).append hpasses
  · rintro ⟨text, hspells, hpasses⟩
    induction hspells generalizing c with
    | nil => exact passes_nil_iff.mp hpasses ▸ .nil
    | cons isBlank _ ih =>
        obtain ⟨mid, hfirst, hmore⟩ := passes_append_iff.mp hpasses
        obtain ⟨start, hblank, hfirst⟩ := passes_append_iff.mp hfirst
        refine .cons ?_ (ih hmore)
        rwa [show c.skipBlank = start from
          skip_of_passes hblank isBlank (endsRun_of_passes_token hfirst)]

end Cursor

end RaceSkeletons
