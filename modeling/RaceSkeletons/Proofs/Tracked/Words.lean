import RaceSkeletons.Corpus.Race
import RaceSkeletons.Proofs.Settings
import RaceSkeletons.Proofs.Text.CharClasses

/-!
# Tracked variables are words

The search for tracked variables tries every position of a text, looks one
character back for a boundary, and reads a prefix, digits, white space and
an equals sign. What it finds can be said without positions: a *word*, a
run of word characters that is as long as possible, which is the prefix with
a number behind it, and an assignment behind the word.

A position passes the test of the search iff the text can be cut there in
the expected parts (`assignedAt_iff`, `referencedAt_iff`). The parts make
up a word because the prefix starts with a word character, digits are word
characters, and neither white space nor an equals sign is one.
-/

namespace RaceSkeletons

/-! ## Words -/

/-- Whether `word` is a word of the text `before ++ word ++ after`: a run of
word characters that cannot be made longer on either side. -/
structure IsWord (before word after : List Char) : Prop where
  nonempty : word ≠ []
  chars : ∀ c ∈ word, Text.isWordChar c = true
  starts : ∀ c ∈ before.getLast?, Text.isWordChar c = false
  ends : ∀ c ∈ after.head?, Text.isWordChar c = false

/-- Whether a text goes on with white space, if any, and one equals sign. -/
def IsAssigning (after : List Char) : Prop :=
  ∃ blanks rest, after = blanks ++ '=' :: rest ∧ (∀ b ∈ blanks, Text.isBlank b = true)
    ∧ rest.head? ≠ some '='

namespace TrackedPattern

/-- Whether a word is the prefix with a number behind it. -/
def IsName (p : TrackedPattern) (word : List Char) : Prop :=
  ∃ digits, word = p.leading.toList ++ digits ∧ digits ≠ []
    ∧ ∀ d ∈ digits, Text.isDecimalDigit d = true

/-- Whether a word starts with the prefix and a digit. -/
def StartsName (p : TrackedPattern) (word : List Char) : Prop :=
  ∃ d rest, word = p.leading.toList ++ d :: rest ∧ Text.isDecimalDigit d = true

/-- Whether some word of a text is a tracked name that is assigned to. -/
def AssignsWord (p : TrackedPattern) (text : String) : Prop :=
  ∃ before word after, text.toList = before ++ word ++ after ∧ IsWord before word after
    ∧ p.IsName word ∧ IsAssigning after

/-- Whether some word of a text starts with a tracked name. -/
def MentionsWord (p : TrackedPattern) (text : String) : Prop :=
  ∃ before word after, text.toList = before ++ word ++ after ∧ IsWord before word after
    ∧ p.StartsName word

/-! ## Positions -/

theorem getLast?_cons_or (c : Char) (pre : List Char) (before : Option Char) :
    (c :: pre).getLast?.or before = pre.getLast?.or (some c) := by
  rw [List.getLast?_cons]
  cases pre.getLast? <;> rfl

/-- The search tries every cut of the text. -/
theorem anyPosition_iff {test : Option Char → List Char → Bool} (text : List Char) :
    ∀ before : Option Char, anyPosition test before text = true ↔
      ∃ pre post, text = pre ++ post ∧ test (pre.getLast?.or before) post = true := by
  induction text with
  | nil =>
      intro before
      constructor
      · intro h
        exact ⟨[], [], rfl, h⟩
      · rintro ⟨pre, post, heq, h⟩
        obtain ⟨rfl, rfl⟩ := List.append_eq_nil_iff.mp heq.symm
        exact h
  | cons c text ih =>
      intro before
      rw [anyPosition, Bool.or_eq_true, ih (some c)]
      constructor
      · rintro (h | ⟨pre, post, rfl, h⟩)
        · exact ⟨[], c :: text, rfl, h⟩
        · exact ⟨c :: pre, post, rfl, by rw [getLast?_cons_or]; exact h⟩
      · rintro ⟨pre, post, heq, h⟩
        cases pre with
        | nil =>
            obtain rfl : c :: text = post := heq
            exact Or.inl h
        | cons d pre =>
            obtain ⟨rfl, rfl⟩ := List.cons.inj heq
            rw [getLast?_cons_or] at h
            exact Or.inr ⟨pre, post, rfl, h⟩

/-- The prefix is taken off a text that begins with it. -/
theorem dropStart?_eq_some_iff {start : List Char} : ∀ {text rest : List Char},
    dropStart? start text = some rest ↔ text = start ++ rest := by
  induction start with
  | nil =>
      intro text rest
      simp [dropStart?]
  | cons s start ih =>
      intro text rest
      cases text with
      | nil => simp [dropStart?]
      | cons c text =>
          rw [dropStart?, List.cons_append, List.cons.injEq]
          split
          · next h => rw [ih, eq_comm (a := c), and_iff_right h]
          · next h =>
            constructor
            · intro heq
              cases heq
            · rintro ⟨rfl, -⟩
              exact absurd rfl h

theorem startsWithAssign_iff {text : List Char} :
    startsWithAssign text = true ↔ ∃ rest, text = '=' :: rest ∧ rest.head? ≠ some '=' := by
  constructor
  · intro h
    unfold startsWithAssign at h
    split at h
    · cases h
    · next rest hno =>
      refine ⟨rest, rfl, fun hhead => ?_⟩
      obtain ⟨rest', rfl⟩ := List.head?_eq_some_iff.mp hhead
      exact hno rest' rfl
    · cases h
  · rintro ⟨rest, rfl, hne⟩
    unfold startsWithAssign
    split
    · next heq =>
      obtain ⟨-, rfl⟩ := List.cons.inj heq
      exact absurd rfl hne
    · rfl
    · next hno => exact absurd rfl (hno rest)

theorem startsWithDigit_iff {text : List Char} :
    startsWithDigit text = true ↔ ∃ d rest, text = d :: rest ∧ Text.isDecimalDigit d = true := by
  cases text with
  | nil => simp [startsWithDigit]
  | cons c text => simp [startsWithDigit]

/-- The longest run at the start of a text, when the text goes on with
something that does not belong to it. -/
theorem dropWhile_append_of_head {test : Char → Bool} {run rest : List Char}
    (hrun : ∀ c ∈ run, test c = true) (hrest : ∀ c ∈ rest.head?, test c = false) :
    (run ++ rest).dropWhile test = rest := by
  rw [List.dropWhile_append_of_pos hrun]
  cases rest with
  | nil => rfl
  | cons c rest => rw [List.dropWhile_cons_of_neg]; simp [hrest c rfl]

theorem isAssigning_iff {after : List Char} :
    IsAssigning after ↔ startsWithAssign (after.dropWhile Text.isBlank) = true := by
  rw [startsWithAssign_iff]
  constructor
  · rintro ⟨blanks, rest, rfl, hblanks, hrest⟩
    refine ⟨rest, dropWhile_append_of_head hblanks ?_, hrest⟩
    intro c hc
    obtain rfl : '=' = c := Option.some.inj hc
    decide
  · rintro ⟨rest, heq, hrest⟩
    refine ⟨after.takeWhile Text.isBlank, rest, ?_, ?_, hrest⟩
    · rw [← heq, List.takeWhile_append_dropWhile]
    · exact List.all_eq_true.mp List.all_takeWhile

/-- Behind white space and an equals sign no word goes on. -/
theorem isWordChar_of_isAssigning {after : List Char} (h : IsAssigning after) :
    ∀ c ∈ after.head?, Text.isWordChar c = false := by
  obtain ⟨blanks, rest, rfl, hblanks, -⟩ := h
  intro c hc
  cases blanks with
  | nil =>
      obtain rfl : '=' = c := Option.some.inj hc
      exact Text.isWordChar_equals
  | cons b blanks =>
      obtain rfl : b = c := Option.some.inj hc
      exact Text.isWordChar_of_isBlank (hblanks b (List.mem_cons_self ..))

/-- A name starts at a position: a boundary, and the prefix behind it. -/
theorem nameTail?_eq_some_iff {p : TrackedPattern} {before : Option Char}
    {rest tail : List Char} :
    p.nameTail? before rest = some tail ↔
      isBoundary before rest = true ∧ rest = p.leading.toList ++ tail := by
  rw [nameTail?]
  split
  · next h => rw [dropStart?_eq_some_iff, and_iff_right h]
  · next h =>
    constructor
    · intro heq
      cases heq
    · rintro ⟨hb, -⟩
      exact absurd hb h

/-- What the search for references accepts at a position. -/
theorem referencedAt_iff {p : TrackedPattern} {before : Option Char} {rest : List Char} :
    p.referencedAt before rest = true ↔ isBoundary before rest = true
      ∧ ∃ d tail, rest = p.leading.toList ++ d :: tail ∧ Text.isDecimalDigit d = true := by
  unfold referencedAt
  split
  · next hnone =>
    constructor
    · intro h
      cases h
    · rintro ⟨hb, d, tail, rfl, -⟩
      rw [nameTail?_eq_some_iff.mpr ⟨hb, rfl⟩] at hnone
      cases hnone
  · next tail hsome =>
    obtain ⟨hb, rfl⟩ := nameTail?_eq_some_iff.mp hsome
    rw [startsWithDigit_iff]
    constructor
    · rintro ⟨d, tail, rfl, hd⟩
      exact ⟨hb, d, tail, rfl, hd⟩
    · rintro ⟨-, d, tail', heq, hd⟩
      exact ⟨d, tail', List.append_cancel_left heq, hd⟩

/-- The digits of a name and what has to follow them. -/
theorem numberAssigned_iff {tail : List Char} :
    (startsWithDigit tail &&
        startsWithAssign ((tail.dropWhile Text.isDecimalDigit).dropWhile Text.isBlank)) = true ↔
      ∃ digits after, tail = digits ++ after ∧ digits ≠ []
        ∧ (∀ d ∈ digits, Text.isDecimalDigit d = true) ∧ IsAssigning after := by
  rw [Bool.and_eq_true, startsWithDigit_iff, ← isAssigning_iff]
  constructor
  · rintro ⟨⟨d, rest, rfl, hd⟩, hafter⟩
    refine ⟨(d :: rest).takeWhile Text.isDecimalDigit, _,
      List.takeWhile_append_dropWhile.symm, ?_, List.all_eq_true.mp List.all_takeWhile, hafter⟩
    rw [List.takeWhile_cons_of_pos hd]
    exact List.cons_ne_nil _ _
  · rintro ⟨digits, after, rfl, hne, hdigits, hafter⟩
    have hdrop := dropWhile_append_of_head hdigits fun c hc =>
      Text.isDecimalDigit_eq_false (isWordChar_of_isAssigning hafter c hc)
    rw [hdrop]
    obtain ⟨d, rest, rfl⟩ := List.exists_cons_of_ne_nil hne
    exact ⟨⟨d, rest ++ after, rfl, hdigits d (List.mem_cons_self ..)⟩, hafter⟩

/-- What the search for assignments accepts at a position. -/
theorem assignedAt_iff {p : TrackedPattern} {before : Option Char} {rest : List Char} :
    p.assignedAt before rest = true ↔ isBoundary before rest = true
      ∧ ∃ digits after, rest = p.leading.toList ++ digits ++ after ∧ digits ≠ []
        ∧ (∀ d ∈ digits, Text.isDecimalDigit d = true) ∧ IsAssigning after := by
  unfold assignedAt
  split
  · next hnone =>
    constructor
    · intro h
      cases h
    · rintro ⟨hb, digits, after, rfl, -⟩
      rw [nameTail?_eq_some_iff.mpr ⟨hb, List.append_assoc ..⟩] at hnone
      cases hnone
  · next tail hsome =>
    obtain ⟨hb, rfl⟩ := nameTail?_eq_some_iff.mp hsome
    rw [numberAssigned_iff]
    constructor
    · rintro ⟨digits, after, rfl, hrest⟩
      exact ⟨hb, digits, after, (List.append_assoc ..).symm, hrest⟩
    · rintro ⟨-, digits, after, heq, hrest⟩
      rw [List.append_assoc] at heq
      exact ⟨digits, after, List.append_cancel_left heq, hrest⟩

/-! ## Words -/

/-- The prefix of valid settings has at least one character, and only word
characters. -/
theorem leading_of_isIdentifier {s : String} (h : Settings.isIdentifier s = true) :
    s.toList ≠ [] ∧ ∀ c ∈ s.toList, Text.isWordChar c = true := by
  have hchar : ∀ c : Char, (Settings.startsIdentifier c || c.isDigit) = true →
      Text.isWordChar c = true := by
    intro c hc
    refine Text.isWordChar_of_isIdentifierChar ?_
    simp only [Settings.startsIdentifier, Bool.or_eq_true] at hc
    simp only [Text.isIdentifierChar, Char.isAlphanum, Bool.or_eq_true]
    exact or_right_comm.mp hc
  unfold Settings.isIdentifier at h
  split at h
  · cases h
  · next c rest heq =>
    rw [Bool.and_eq_true, List.all_eq_true] at h
    rw [heq]
    refine ⟨List.cons_ne_nil _ _, fun d hd => ?_⟩
    rcases List.mem_cons.mp hd with rfl | hd
    · exact hchar d (by rw [h.1, Bool.true_or])
    · exact hchar d (h.2 d hd)

/-- Before an identifier there is a boundary iff there is no word character. -/
theorem isBoundary_leading_iff {p : TrackedPattern} (hp : Settings.isIdentifier p.leading = true)
    {before : Option Char} {tail : List Char} :
    isBoundary before (p.leading.toList ++ tail) = true ↔
      ∀ c ∈ before, Text.isWordChar c = false := by
  obtain ⟨hne, hword⟩ := leading_of_isIdentifier hp
  obtain ⟨c, cs, hcs⟩ := List.exists_cons_of_ne_nil hne
  have hc : Text.isWordChar c = true := hword c (hcs ▸ List.mem_cons_self ..)
  rw [hcs]
  cases before with
  | none => simp [isBoundary, wordAt, hc]
  | some b => simp [isBoundary, wordAt, hc]

/-- The search for assignments finds exactly the words that are assigned to. -/
theorem isAssigned_iff_assignsWord {p : TrackedPattern}
    (hp : Settings.isIdentifier p.leading = true) (text : String) :
    p.isAssigned text = true ↔ p.AssignsWord text := by
  obtain ⟨hne, hword⟩ := leading_of_isIdentifier hp
  rw [isAssigned, anyPosition_iff]
  constructor
  · rintro ⟨before, rest, heq, h⟩
    rw [Option.or_none] at h
    obtain ⟨hb, digits, after, rfl, hdne, hdigits, hafter⟩ := assignedAt_iff.mp h
    have hchars : ∀ c ∈ p.leading.toList ++ digits, Text.isWordChar c = true := by
      intro c hc
      rcases List.mem_append.mp hc with hc | hc
      · exact hword c hc
      · exact Text.isWordChar_of_isDecimalDigit (hdigits c hc)
    rw [List.append_assoc, isBoundary_leading_iff hp] at hb
    exact ⟨before, _, after, by rw [heq]; exact (List.append_assoc ..).symm,
      ⟨List.append_ne_nil_of_left_ne_nil hne _, hchars, hb, isWordChar_of_isAssigning hafter⟩,
      ⟨digits, rfl, hdne, hdigits⟩, hafter⟩
  · rintro ⟨before, _, after, heq, hw, ⟨digits, rfl, hdne, hdigits⟩, hafter⟩
    refine ⟨before, _, heq.trans (List.append_assoc ..), ?_⟩
    rw [Option.or_none, assignedAt_iff, List.append_assoc, isBoundary_leading_iff hp]
    exact ⟨hw.starts, digits, after, (List.append_assoc ..).symm, hdne, hdigits, hafter⟩

/-- The search for references finds exactly the words that start with a name.
The word is what the name grows to, so it may be longer than the name. -/
theorem isReferenced_iff_mentionsWord {p : TrackedPattern}
    (hp : Settings.isIdentifier p.leading = true) (text : String) :
    p.isReferenced text = true ↔ p.MentionsWord text := by
  obtain ⟨hne, hword⟩ := leading_of_isIdentifier hp
  rw [isReferenced, anyPosition_iff]
  constructor
  · rintro ⟨before, rest, heq, h⟩
    rw [Option.or_none] at h
    obtain ⟨hb, d, tail, rfl, hd⟩ := referencedAt_iff.mp h
    rw [isBoundary_leading_iff hp] at hb
    have hgrow : d :: tail = d :: tail.takeWhile Text.isWordChar
        ++ tail.dropWhile Text.isWordChar := by
      rw [List.cons_append, List.takeWhile_append_dropWhile]
    refine ⟨before, p.leading.toList ++ d :: tail.takeWhile Text.isWordChar,
      tail.dropWhile Text.isWordChar, ?_, ⟨?_, ?_, hb, ?_⟩, ⟨d, _, rfl, hd⟩⟩
    · rw [heq, hgrow]
      simp only [List.append_assoc]
    · exact List.append_ne_nil_of_left_ne_nil hne _
    · intro c hc
      rcases List.mem_append.mp hc with hc | hc
      · exact hword c hc
      · rcases List.mem_cons.mp hc with rfl | hc
        · exact Text.isWordChar_of_isDecimalDigit hd
        · exact List.all_eq_true.mp List.all_takeWhile c hc
    · intro c hc
      have hhead := List.head?_dropWhile_not Text.isWordChar tail
      rw [hc] at hhead
      exact hhead
  · rintro ⟨before, _, after, heq, hw, ⟨d, rest, rfl, hd⟩⟩
    refine ⟨before, _, heq.trans (List.append_assoc ..), ?_⟩
    rw [Option.or_none, referencedAt_iff, List.append_assoc, isBoundary_leading_iff hp]
    exact ⟨hw.starts, d, rest ++ after, rfl, hd⟩

theorem classifyTexts_eq_writeWrite_iff {p : TrackedPattern}
    (hp : Settings.isIdentifier p.leading = true) (first second : String) :
    p.classifyTexts first second = .writeWrite ↔ p.AssignsWord first ∧ p.AssignsWord second := by
  rw [← isAssigned_iff_assignsWord hp, ← isAssigned_iff_assignsWord hp, classifyTexts,
    ← Bool.and_eq_true]
  split
  · next h => simp [h]
  · next h => simp [h]

end TrackedPattern

/-- **Tracked variables are words.** With the prefix of valid settings, a
text assigns to a tracked variable iff some word is the prefix with a number
behind it and is assigned to; it mentions one iff some word starts with the
prefix and a digit; and a race is write-write iff both texts assign. -/
theorem tracked_iff_words (s : Settings) (hs : s.isValid = true) :
    let p : TrackedPattern := ⟨s.varPrefix⟩
    (∀ text, p.isAssigned text = true ↔ p.AssignsWord text)
      ∧ (∀ text, p.isReferenced text = true ↔ p.MentionsWord text)
      ∧ ∀ first second, p.classifyTexts first second = .writeWrite ↔
          p.AssignsWord first ∧ p.AssignsWord second := by
  intro p
  have hp : Settings.isIdentifier p.leading = true := Settings.isIdentifier_of_isValid hs
  exact ⟨TrackedPattern.isAssigned_iff_assignsWord hp,
    TrackedPattern.isReferenced_iff_mentionsWord hp,
    TrackedPattern.classifyTexts_eq_writeWrite_iff hp⟩

/-- A name with a digit of another script is assigned to over two lines; a
comparison and a longer word are no assignments. -/
theorem tracked_iff_words_standard :
    ({ workers := 1 } : Settings).isValid = true
      ∧ TrackedPattern.standard.AssignsWord "x++\nracyVar٣\n\t= x"
      ∧ ¬ TrackedPattern.standard.AssignsWord "if racyVar3 == x || racyVar3x = y"
      ∧ TrackedPattern.standard.MentionsWord "if racyVar3 == x || racyVar3x = y" := by
  have hs : ({ workers := 1 } : Settings).isValid = true := by decide
  obtain ⟨hassign, hmention, -⟩ := tracked_iff_words _ hs
  refine ⟨hs, (hassign _).mp (by decide), fun h => ?_, (hmention _).mp (by decide)⟩
  exact absurd ((hassign _).mpr h) (by decide)

end RaceSkeletons
