import RaceSkeletons.Proofs.Corpus.CommentLines

/-!
# Markers in string literals

Stripping knows no string literals: behind a `//` the rest of the line goes,
even if the marker stands between quotes. So it can change what a fragment does
that has no comment at all. An assignment that begins behind the marker is lost
with it, and a name right before the marker comes to be assigned to if an equals
sign begins the next line.

Nothing else can happen to an assignment (`TrackedPattern.assignsWord_stripComments_iff`):
the names outside of what is cut off stay, and each is assigned to if it was, or
if it is once the comments behind it are gone. So the race type of two texts stays
exactly as far as no text assigns behind a marker alone
(`classifyTexts_stripComments`).
-/

namespace RaceSkeletons

/-! ## Inside and outside of what is cut off -/

/-- Whether stripping cuts a character off: in a comment, all but a line feed; outside,
the first slash of a marker. -/
def isCutOff : (inside : Bool) → Char → (rest : List Char) → Bool
  | true, c, _ => c != '\n'
  | false, c, rest => c == '/' && rest.head? == some '/'

/-- The state of stripping behind a text: whether it is in a comment. -/
def inCommentAfter : (inside : Bool) → List Char → Bool
  | inside, [] => inside
  | inside, c :: rest => inCommentAfter (isCutOff inside c rest) rest

/-- Whether a text ends behind a marker, on the marker's line. -/
def EndsInComment (before : List Char) : Prop :=
  ∃ front rest, before = front ++ lineComment ++ rest ∧ '\n' ∉ rest

section

variable {inside : Bool} {before word after rest s : List Char} {c : Char}

/-- Stripping is in a comment behind a character iff it cuts the character off. -/
theorem stripFrom_cons_eq (inside : Bool) (c : Char) (s : List Char) :
    stripFrom inside (c :: s) =
      if isCutOff inside c s then stripFrom true s else c :: stripFrom false s := by
  cases inside with
  | true => by_cases hc : c = '\n' <;> simp [stripFrom, isCutOff, hc]
  | false =>
      cases s with
      | nil => simp [stripFrom, isCutOff]
      | cons d s => simp [stripFrom, isCutOff]

theorem stripFrom_cons_of_cut (h : isCutOff inside c s = true) :
    stripFrom inside (c :: s) = stripFrom true s := by
  rw [stripFrom_cons_eq, if_pos h]

theorem stripFrom_cons_of_kept (h : isCutOff inside c s = false) :
    stripFrom inside (c :: s) = c :: stripFrom false s := by
  rw [stripFrom_cons_eq, h, if_neg Bool.false_ne_true]

theorem endsInComment_cons :
    EndsInComment (c :: s) ↔
      (c = '/' ∧ s.head? = some '/' ∧ '\n' ∉ s) ∨ EndsInComment s := by
  constructor
  · rintro ⟨front, rest, heq, hrest⟩
    cases front with
    | nil =>
        obtain ⟨rfl, rfl⟩ := List.cons.inj heq
        exact .inl ⟨rfl, rfl, by simpa using hrest⟩
    | cons d front =>
        obtain ⟨rfl, rfl⟩ := List.cons.inj heq
        exact .inr ⟨front, rest, rfl, hrest⟩
  · rintro (⟨rfl, hhead, hline⟩ | ⟨front, rest, rfl, hrest⟩)
    · obtain ⟨rest, rfl⟩ := List.head?_eq_some_iff.mp hhead
      exact ⟨[], rest, rfl, fun hmem => hline (List.mem_cons_of_mem _ hmem)⟩
    · exact ⟨c :: front, rest, rfl, hrest⟩

theorem not_endsInComment_nil : ¬ EndsInComment [] := by
  rintro ⟨front, rest, heq, -⟩
  simp [lineComment] at heq

/-- A comment is open behind a text that ends in one, or if it was open before
and no line feed came. -/
theorem inCommentAfter_iff (inside : Bool) (s : List Char) :
    inCommentAfter inside s = true ↔ EndsInComment s ∨ inside = true ∧ '\n' ∉ s := by
  induction s generalizing inside with
  | nil => simp [inCommentAfter, not_endsInComment_nil]
  | cons c s ih =>
      rw [inCommentAfter, ih, endsInComment_cons]
      cases inside with
      | true =>
          by_cases hc : c = '\n'
          · simp [isCutOff, hc]
          · by_cases hline : '\n' ∈ s
            · simp [isCutOff, hline]
            · simp [isCutOff, hc, hline, Ne.symm hc]
      | false => simp [isCutOff, and_assoc, or_comm]

/-! ## What stripping does around a word -/

/-- Stripping goes on behind a text as it left it, if no marker is torn apart. -/
theorem stripFrom_append_of_head (h : rest.head? ≠ some '/') (inside : Bool)
    (before : List Char) :
    stripFrom inside (before ++ rest) =
      stripFrom inside before ++ stripFrom (inCommentAfter inside before) rest := by
  induction before generalizing inside with
  | nil => cases inside <;> rfl
  | cons c before ih =>
      have hcut : isCutOff inside c (before ++ rest) = isCutOff inside c before := by
        cases inside with
        | true => rfl
        | false => cases before <;> simp [isCutOff, h]
      rw [List.cons_append, stripFrom_cons_eq, stripFrom_cons_eq, inCommentAfter, hcut]
      split
      · next htrue => rw [htrue, ih]
      · next hfalse => rw [Bool.not_eq_true] at hfalse; rw [hfalse, ih, List.cons_append]

/-- Where no comment is open, the last character was kept. -/
theorem getLast?_stripFrom (h : inCommentAfter inside s = false) :
    (stripFrom inside s).getLast? = s.getLast? := by
  induction s generalizing inside with
  | nil => cases inside <;> rfl
  | cons c s ih =>
      rw [inCommentAfter] at h
      cases hcut : isCutOff inside c s with
      | true =>
          rw [hcut] at h
          rw [stripFrom_cons_of_cut hcut, ih h]
          cases s with
          | nil => cases h
          | cons d s => rfl
      | false =>
          rw [hcut] at h
          rw [stripFrom_cons_of_kept hcut, List.getLast?_cons, List.getLast?_cons, ih h]

theorem isCutOff_append (hs : before ≠ []) (inside : Bool) (c : Char) (rest : List Char) :
    isCutOff inside c (before ++ rest) = isCutOff inside c before := by
  obtain ⟨b, before, rfl⟩ := List.exists_cons_of_ne_nil hs
  cases inside <;> rfl

/-- A character that is left, and is no line feed, was there outside of comments. -/
theorem exists_of_stripFrom_eq (hc : c ≠ '\n') (h : stripFrom inside s = before ++ c :: after) :
    ∃ before' after', s = before' ++ c :: after' ∧ inCommentAfter inside before' = false ∧
      stripFrom inside before' = before ∧ stripFrom false (c :: after') = c :: after := by
  induction s generalizing inside before with
  | nil => cases inside <;> simp [stripFrom] at h
  | cons d s ih =>
      cases hcut : isCutOff inside d s with
      | true =>
          rw [stripFrom_cons_of_cut hcut] at h
          obtain ⟨before', after', rfl, hout, rfl, hafter⟩ := ih h
          have hne : before' ≠ [] := by
            rintro rfl
            cases hout
          rw [isCutOff_append hne] at hcut
          refine ⟨d :: before', after', rfl, ?_, stripFrom_cons_of_cut hcut, hafter⟩
          rw [inCommentAfter, hcut, hout]
      | false =>
          rw [stripFrom_cons_of_kept hcut] at h
          cases before with
          | nil =>
              obtain ⟨rfl, heq⟩ := List.cons.inj h
              cases inside with
              | true => exact absurd (by simpa [isCutOff] using hcut) hc
              | false =>
                  exact ⟨[], s, rfl, rfl, rfl, by rw [stripFrom_cons_of_kept hcut, heq]⟩
          | cons b before =>
              obtain ⟨rfl, heq⟩ := List.cons.inj h
              obtain ⟨before', after', rfl, hout, rfl, hafter⟩ := ih heq
              have hkept : isCutOff inside d before' = false := by
                by_cases hne : before' = []
                · cases inside with
                  | true => exact hcut
                  | false => simp [isCutOff, hne]
                · rwa [isCutOff_append hne] at hcut
              refine ⟨d :: before', after', rfl, ?_, stripFrom_cons_of_kept hkept, hafter⟩
              rw [inCommentAfter, hkept, hout]

/-- What is left behind a marker is the end of its line. -/
theorem head?_stripFrom_true (s : List Char) (hc : c ∈ (stripFrom true s).head?) : c = '\n' := by
  induction s with
  | nil => cases hc
  | cons d s ih =>
      rw [stripFrom] at hc
      split at hc
      · next heq => exact (Option.some.inj hc).symm.trans heq
      · exact ih hc

/-- What is left begins with characters of one line only if the text does. -/
theorem eq_append_of_stripFrom_eq (hword : ∀ c ∈ word, c ≠ '\n')
    (h : stripFrom false s = word ++ after) :
    ∃ after', s = word ++ after' ∧ stripFrom false after' = after := by
  induction word generalizing s with
  | nil => exact ⟨s, rfl, h⟩
  | cons c word ih =>
      cases s with
      | nil => simp [stripFrom] at h
      | cons d s =>
          cases hcut : isCutOff false d s with
          | true =>
              rw [stripFrom_cons_of_cut hcut] at h
              exact absurd (head?_stripFrom_true s (by rw [h]; rfl)) (hword c List.mem_cons_self)
          | false =>
              rw [stripFrom_cons_of_kept hcut] at h
              obtain ⟨rfl, heq⟩ := List.cons.inj h
              obtain ⟨after', rfl, hafter⟩ :=
                ih (fun c hc => hword c (List.mem_cons_of_mem _ hc)) heq
              exact ⟨after', rfl, hafter⟩

/-- What is left starts with a word character iff the text does. -/
theorem head?_stripFrom_of_word (hc : Text.isWordChar c = true) :
    c ∈ (stripFrom false s).head? ↔ c ∈ s.head? := by
  cases s with
  | nil => rfl
  | cons d s =>
      cases hcut : isCutOff false d s with
      | true =>
          rw [stripFrom_cons_of_cut hcut]
          obtain ⟨rfl, -⟩ : d = '/' ∧ s.head? = some '/' := by simpa [isCutOff] using hcut
          constructor
          · intro hhead
            rw [head?_stripFrom_true s hhead] at hc
            exact absurd hc (by decide)
          · intro hhead
            rw [← Option.some.inj hhead] at hc
            exact absurd hc (by decide)
      | false => rw [stripFrom_cons_of_kept hcut]; rfl

theorem ne_of_isWordChar (hc : Text.isWordChar c = true) : c ≠ '/' ∧ c ≠ '\n' := by
  constructor
  · rintro rfl
    exact absurd hc (by decide)
  · rintro rfl
    exact absurd hc (by decide)

/-- Around a word that stands outside of comments, stripping works on either side by
itself. -/
theorem stripFrom_around (hword : IsWord before word after) (hout : ¬ EndsInComment before) :
    stripFrom false (before ++ word ++ after) =
      stripFrom false before ++ word ++ stripFrom false after := by
  have hopen : inCommentAfter false before = false := by
    rw [← Bool.not_eq_true, inCommentAfter_iff]
    simp [hout]
  have hslash : '/' ∉ word := fun hmem => (ne_of_isWordChar (hword.chars _ hmem)).1 rfl
  obtain ⟨c, word, rfl⟩ := List.exists_cons_of_ne_nil hword.nonempty
  have hhead : (c :: word ++ after).head? ≠ some '/' := by
    intro hhead
    rw [Option.some.inj hhead] at hslash
    exact hslash List.mem_cons_self
  rw [List.append_assoc, stripFrom_append_of_head hhead, hopen, stripFrom_append hslash,
    List.append_assoc]

/-- A word outside of comments is a word of what is left. -/
theorem IsWord.stripFrom (hword : IsWord before word after) (hout : ¬ EndsInComment before) :
    IsWord (stripFrom false before) word (stripFrom false after) where
  nonempty := hword.nonempty
  chars := hword.chars
  starts := by
    have hopen : inCommentAfter false before = false := by
      rw [← Bool.not_eq_true, inCommentAfter_iff]
      simp [hout]
    rw [getLast?_stripFrom hopen]
    exact hword.starts
  ends := by
    intro c hc
    by_contra hchar
    rw [Bool.not_eq_false] at hchar
    exact absurd (hword.ends c ((head?_stripFrom_of_word hchar).mp hc)) (by rw [hchar]; nofun)

/-- The words of what is left are the words outside of comments. -/
theorem exists_word_of_stripFrom {before' after' : List Char}
    (hword : IsWord before' word after') (h : stripFrom false s = before' ++ word ++ after') :
    ∃ before after, s = before ++ word ++ after ∧ IsWord before word after ∧
      ¬ EndsInComment before ∧ stripFrom false after = after' := by
  obtain ⟨c, word, rfl⟩ := List.exists_cons_of_ne_nil hword.nonempty
  have hchars : ∀ d ∈ c :: word, d ≠ '\n' := fun d hd => (ne_of_isWordChar (hword.chars d hd)).2
  rw [List.append_assoc] at h
  obtain ⟨before, rest, rfl, hopen, rfl, hrest⟩ :=
    exists_of_stripFrom_eq (hchars c List.mem_cons_self) h
  obtain ⟨after, hafter, rfl⟩ := eq_append_of_stripFrom_eq hchars hrest
  refine ⟨before, after, by rw [hafter, List.append_assoc], ?_, ?_, rfl⟩
  · refine ⟨hword.nonempty, hword.chars, ?_, ?_⟩
    · rw [← getLast?_stripFrom hopen]
      exact hword.starts
    · intro d hd
      by_contra hchar
      rw [Bool.not_eq_false] at hchar
      exact absurd (hword.ends d ((head?_stripFrom_of_word hchar).mpr hd)) (by rw [hchar]; nofun)
  · intro hin
    rw [(inCommentAfter_iff false before).mpr (.inl hin)] at hopen
    cases hopen

end

/-! ## Assignments -/

/-- Whether a text is white space once it is stripped, with the comments in it closed. -/
inductive IsGap : List Char → Prop
  | nil : IsGap []
  | blank {c : Char} {gap : List Char} (hc : Text.isBlank c = true) (hgap : IsGap gap) :
      IsGap (c :: gap)
  | comment {line gap : List Char} (hline : '\n' ∉ line) (hgap : IsGap gap) :
      IsGap (lineComment ++ line ++ '\n' :: gap)

/-- Whether a text goes on with one equals sign behind white space and comments. -/
def IsAssigningOnceCut (after : List Char) : Prop :=
  ∃ gap rest, after = gap ++ '=' :: rest ∧ IsGap gap ∧ rest.head? ≠ some '='

section

variable {after blanks rest : List Char}

theorem IsGap.of_blanks (h : ∀ b ∈ blanks, Text.isBlank b = true) : IsGap blanks := by
  induction blanks with
  | nil => exact .nil
  | cons b blanks ih =>
      exact .blank (h b List.mem_cons_self) (ih fun c hc => h c (List.mem_cons_of_mem _ hc))

theorem IsAssigning.onceCut (h : IsAssigning after) : IsAssigningOnceCut after := by
  obtain ⟨blanks, rest, rfl, hblanks, hrest⟩ := h
  exact ⟨blanks, rest, rfl, .of_blanks hblanks, hrest⟩

/-- A comment that is closed strips to its line feed. -/
theorem stripFrom_comment {line : List Char} (hline : '\n' ∉ line) (s : List Char) :
    stripFrom false (lineComment ++ line ++ '\n' :: s) = '\n' :: stripFrom false s := by
  have hopen : ∀ line : List Char, '\n' ∉ line →
      stripFrom true (line ++ '\n' :: s) = '\n' :: stripFrom false s := by
    intro line hline
    induction line with
    | nil => rw [List.nil_append, stripFrom, if_pos rfl]
    | cons c line ih =>
        rw [List.mem_cons, not_or] at hline
        rw [List.cons_append, stripFrom, if_neg (Ne.symm hline.1), ih hline.2]
  rw [List.append_assoc]
  exact (stripFrom_cons_of_cut rfl).trans (hopen ('/' :: line) (by simpa using hline))

/-- A gap strips to white space. -/
theorem IsGap.stripFrom_append {gap : List Char} (hgap : IsGap gap) (s : List Char) :
    ∃ blanks, stripFrom false (gap ++ s) = blanks ++ stripFrom false s ∧
      ∀ b ∈ blanks, Text.isBlank b = true := by
  induction hgap with
  | nil => exact ⟨[], rfl, nofun⟩
  | @blank c gap hc _ ih =>
      obtain ⟨blanks, heq, hblanks⟩ := ih
      have hkept : isCutOff false c (gap ++ s) = false := by
        have hslash : c ≠ '/' := by
          rintro rfl
          exact absurd hc (by decide)
        simp [isCutOff, hslash]
      refine ⟨c :: blanks, ?_, List.forall_mem_cons.mpr ⟨hc, hblanks⟩⟩
      rw [List.cons_append, stripFrom_cons_of_kept hkept, heq, List.cons_append]
  | @comment line gap hline _ ih =>
      obtain ⟨blanks, heq, hblanks⟩ := ih
      refine ⟨'\n' :: blanks, ?_, List.forall_mem_cons.mpr ⟨by decide, hblanks⟩⟩
      rw [List.append_assoc, List.cons_append, stripFrom_comment hline, heq, List.cons_append]

/-- A comment that is not closed strips to nothing. -/
theorem stripFrom_open_comment {line : List Char} (hline : '\n' ∉ line) :
    stripFrom true line = [] := by
  induction line with
  | nil => rfl
  | cons c line ih =>
      rw [List.mem_cons, not_or] at hline
      rw [stripFrom, if_neg (Ne.symm hline.1), ih hline.2]

/-- What an equals sign begins that is not doubled stays so. -/
theorem head?_stripFrom_eq_assign {s : List Char} :
    (stripFrom false s).head? = some '=' ↔ s.head? = some '=' := by
  cases s with
  | nil => rfl
  | cons c s =>
      cases hcut : isCutOff false c s with
      | true =>
          rw [stripFrom_cons_of_cut hcut]
          obtain ⟨rfl, -⟩ : c = '/' ∧ s.head? = some '/' := by simpa [isCutOff] using hcut
          refine iff_of_false (fun hhead => ?_) (by simp)
          exact absurd (head?_stripFrom_true s hhead) (by decide)
      | false => rw [stripFrom_cons_of_kept hcut]; rfl

theorem isAssigningOnceCut_of_stripFrom {after blanks rest : List Char}
    (heq : stripFrom false after = blanks ++ '=' :: rest)
    (hblanks : ∀ b ∈ blanks, Text.isBlank b = true) (hrest : rest.head? ≠ some '=') :
    IsAssigningOnceCut after := by
  cases after with
  | nil => simp [stripFrom] at heq
  | cons c s =>
      cases hcut : isCutOff false c s with
      | true =>
          obtain ⟨rfl, hslash⟩ : c = '/' ∧ s.head? = some '/' := by simpa [isCutOff] using hcut
          obtain ⟨s, rfl⟩ := List.head?_eq_some_iff.mp hslash
          by_cases hclosed : '\n' ∈ s
          · obtain ⟨line, more, rfl, hline⟩ := List.eq_append_cons_of_mem hclosed
            have hcomment := (stripFrom_comment hline more).symm.trans heq
            cases blanks with
            | nil => exact absurd (List.cons.inj hcomment).1 (by decide)
            | cons b blanks =>
                obtain ⟨-, hmore⟩ := List.cons.inj hcomment
                rw [List.forall_mem_cons] at hblanks
                obtain ⟨gap, rest', rfl, hgap, hrest'⟩ :=
                  isAssigningOnceCut_of_stripFrom hmore hblanks.2 hrest
                refine ⟨lineComment ++ line ++ '\n' :: gap, rest', ?_, .comment hline hgap, hrest'⟩
                simp [lineComment]
          · rw [stripFrom_cons_of_cut hcut, stripFrom_open_comment (by simpa using hclosed)] at heq
            simp at heq
      | false =>
          rw [stripFrom_cons_of_kept hcut] at heq
          cases blanks with
          | nil =>
              obtain ⟨rfl, rfl⟩ := List.cons.inj heq
              exact ⟨[], s, rfl, .nil, fun hhead => hrest (head?_stripFrom_eq_assign.mpr hhead)⟩
          | cons b blanks =>
              obtain ⟨rfl, hmore⟩ := List.cons.inj heq
              rw [List.forall_mem_cons] at hblanks
              obtain ⟨gap, rest', rfl, hgap, hrest'⟩ :=
                isAssigningOnceCut_of_stripFrom hmore hblanks.2 hrest
              exact ⟨c :: gap, rest', rfl, .blank hblanks.1 hgap, hrest'⟩
termination_by after.length

/-- Stripping makes an assignment of what is one behind white space and comments. -/
theorem isAssigning_stripFrom_iff :
    IsAssigning (stripFrom false after) ↔ IsAssigningOnceCut after := by
  constructor
  · rintro ⟨blanks, rest, heq, hblanks, hrest⟩
    exact isAssigningOnceCut_of_stripFrom heq hblanks hrest
  · rintro ⟨gap, rest, rfl, hgap, hrest⟩
    obtain ⟨blanks, heq, hblanks⟩ := hgap.stripFrom_append ('=' :: rest)
    refine ⟨blanks, stripFrom false rest, ?_, hblanks, fun hhead =>
      hrest (head?_stripFrom_eq_assign.mp hhead)⟩
    rw [heq, stripFrom_cons_of_kept (by rfl)]

end

namespace TrackedPattern

/-- Whether a text has a tracked name with such a text before it and such a text behind
it. -/
def HasName (p : TrackedPattern) (text : String)
    (between : (before after : List Char) → Prop) : Prop :=
  ∃ before word after, text.toList = before ++ word ++ after ∧ IsWord before word after
    ∧ p.IsName word ∧ between before after

/-- Whether a text assigns to a tracked name that stands behind a marker, on the marker's
line. -/
def AssignsBehindMarker (p : TrackedPattern) (text : String) : Prop :=
  p.HasName text fun before after => EndsInComment before ∧ IsAssigning after

/-- Whether a text assigns to a tracked name that stands behind no marker of its line. -/
def AssignsBeforeMarkers (p : TrackedPattern) (text : String) : Prop :=
  p.HasName text fun before after => ¬ EndsInComment before ∧ IsAssigning after

/-- Whether a text has a tracked name behind no marker of its line with nothing but white
space and what stripping cuts off between it and an equals sign. -/
def AssignsOnceCut (p : TrackedPattern) (text : String) : Prop :=
  p.HasName text fun before after => ¬ EndsInComment before ∧ IsAssigningOnceCut after

variable {p : TrackedPattern} {text : String}

theorem assignsWord_iff :
    p.AssignsWord text ↔ p.AssignsBeforeMarkers text ∨ p.AssignsBehindMarker text := by
  constructor
  · rintro ⟨before, word, after, htext, hword, hname, hafter⟩
    by_cases hin : EndsInComment before
    · exact .inr ⟨before, word, after, htext, hword, hname, hin, hafter⟩
    · exact .inl ⟨before, word, after, htext, hword, hname, hin, hafter⟩
  · rintro (⟨before, word, after, htext, hword, hname, -, hafter⟩ |
      ⟨before, word, after, htext, hword, hname, -, hafter⟩)
    · exact ⟨before, word, after, htext, hword, hname, hafter⟩
    · exact ⟨before, word, after, htext, hword, hname, hafter⟩

theorem AssignsBeforeMarkers.assignsOnceCut (h : p.AssignsBeforeMarkers text) :
    p.AssignsOnceCut text := by
  obtain ⟨before, word, after, htext, hword, hname, hout, hafter⟩ := h
  exact ⟨before, word, after, htext, hword, hname, hout, hafter.onceCut⟩

/-- What the stripped text assigns to. -/
theorem assignsWord_stripComments_iff :
    p.AssignsWord (stripComments text) ↔ p.AssignsOnceCut text := by
  rw [AssignsWord, stripComments, String.toList_ofList]
  constructor
  · rintro ⟨before', word, after', htext, hword, hname, hafter⟩
    obtain ⟨before, after, heq, hword', hout, rfl⟩ := exists_word_of_stripFrom hword htext
    exact ⟨before, word, after, heq, hword', hname, hout, isAssigning_stripFrom_iff.mp hafter⟩
  · rintro ⟨before, word, after, htext, hword, hname, hout, hafter⟩
    refine ⟨_, word, _, ?_, hword.stripFrom hout, hname, isAssigning_stripFrom_iff.mpr hafter⟩
    rw [htext, stripFrom_around hword hout]

/-- Whether stripping keeps a text's assignments: one behind a marker is not the only
one, and none is made by a cut alone. -/
structure KeepsAssignment (p : TrackedPattern) (text : String) : Prop where
  lost : p.AssignsBehindMarker text → p.AssignsOnceCut text
  gained : p.AssignsOnceCut text → p.AssignsBeforeMarkers text ∨ p.AssignsBehindMarker text

/-- The condition says all there is to it. -/
theorem keepsAssignment_iff :
    p.KeepsAssignment text ↔ (p.AssignsWord (stripComments text) ↔ p.AssignsWord text) := by
  rw [assignsWord_stripComments_iff, assignsWord_iff]
  constructor
  · intro h
    exact ⟨h.gained, fun hassigns => hassigns.elim AssignsBeforeMarkers.assignsOnceCut h.lost⟩
  · intro h
    exact ⟨fun hbehind => h.mpr (.inr hbehind), h.mp⟩

theorem isAssigned_stripComments_iff (hp : Settings.isIdentifier p.leading = true) :
    p.isAssigned (stripComments text) = p.isAssigned text ↔ p.KeepsAssignment text := by
  rw [Bool.eq_iff_iff, isAssigned_iff_assignsWord hp, isAssigned_iff_assignsWord hp,
    keepsAssignment_iff]

/-! ## Texts without comments -/

end TrackedPattern

/-- Whether a text can stand between the quotes of a string literal: a backslash takes the
character behind it along, and no quote stands by itself. -/
inductive IsLiteralBody : List Char → Prop
  | nil : IsLiteralBody []
  | plain {c : Char} {rest : List Char} (hquote : c ≠ '"') (hescape : c ≠ '\\')
      (hrest : IsLiteralBody rest) : IsLiteralBody (c :: rest)
  | escape {c : Char} {rest : List Char} (hrest : IsLiteralBody rest) :
      IsLiteralBody ('\\' :: c :: rest)

theorem IsLiteralBody.of_plain {body : List Char} (h : ∀ c ∈ body, c ≠ '"' ∧ c ≠ '\\') :
    IsLiteralBody body := by
  induction body with
  | nil => exact .nil
  | cons c body ih =>
      rw [List.forall_mem_cons] at h
      exact .plain h.1.1 h.1.2 (ih h.2)

/-- Whether every marker of a line stands in a string literal that is opened and closed on
the line. -/
inductive QuotesMarkers : List Char → Prop
  | code {line : List Char} (hline : ¬ lineComment <:+: line) : QuotesMarkers line
  | literal {code body rest : List Char} (hcode : ¬ lineComment <:+: code) (hquote : '"' ∉ code)
      (hbody : IsLiteralBody body) (hrest : QuotesMarkers rest) :
      QuotesMarkers (code ++ '"' :: body ++ '"' :: rest)

/-- Whether a text has no line comment: every marker stands in a string literal. -/
def HasNoComment (text : String) : Prop :=
  ∀ line ∈ Text.pieces text.toList, QuotesMarkers line

/-- Two texts, with comments or without, make the same kind of race once they are stripped,
if stripping keeps the assignments of both; and it keeps those of a text exactly if no
assignment stands behind a marker alone and none comes from a cut. -/
theorem classifyTexts_stripComments {p : TrackedPattern}
    (hp : Settings.isIdentifier p.leading = true) {first second : String}
    (hfirst : p.KeepsAssignment first) (hsecond : p.KeepsAssignment second) :
    p.classifyTexts (stripComments first) (stripComments second)
        = p.classifyTexts first second
      ∧ ∀ text, p.isAssigned (stripComments text) = p.isAssigned text ↔
          p.KeepsAssignment text := by
  refine ⟨?_, fun text => TrackedPattern.isAssigned_stripComments_iff hp⟩
  rw [TrackedPattern.classifyTexts, TrackedPattern.classifyTexts,
    (TrackedPattern.isAssigned_stripComments_iff hp).mpr hfirst,
    (TrackedPattern.isAssigned_stripComments_iff hp).mpr hsecond]

/-- Two texts with an assignment before a comment and one on the line below an address. -/
theorem classifyTexts_stripComments_sample :
    Settings.isIdentifier "racyVar" = true ∧
      TrackedPattern.standard.classifyTexts (stripComments "racyVar1 = 5 // first\n")
        (stripComments "_ = \"http://a\"\nracyVar1 = 6\n") = .writeWrite := by
  have hp : Settings.isIdentifier TrackedPattern.standard.leading = true := by decide
  have hfirst : TrackedPattern.standard.KeepsAssignment "racyVar1 = 5 // first\n" :=
    (TrackedPattern.isAssigned_stripComments_iff hp).mp (by decide)
  have hsecond : TrackedPattern.standard.KeepsAssignment "_ = \"http://a\"\nracyVar1 = 6\n" :=
    (TrackedPattern.isAssigned_stripComments_iff hp).mp (by decide)
  exact ⟨hp, (classifyTexts_stripComments hp hfirst hsecond).1.trans (by decide)⟩

/-- An assignment behind an address, on its line, is lost, though the text has no comment: two
such texts make another kind of race once they are stripped. -/
theorem classifyTexts_stripComments_address :
    ∃ text, HasNoComment text ∧
      TrackedPattern.standard.classifyTexts text text = .writeWrite ∧
      TrackedPattern.standard.classifyTexts (stripComments text) (stripComments text)
        = .readWrite := by
  have hline : QuotesMarkers
      ("_ = ".toList ++ '"' :: "http://a".toList ++ '"' :: "; racyVar1 = 5".toList) :=
    .literal (by decide) (by decide) (.of_plain (by simp)) (.code (by decide))
  refine ⟨"_ = \"http://a\"; racyVar1 = 5\n", fun line hmem => ?_, by decide,
    by decide⟩
  obtain rfl | rfl : line = "_ = \"http://a\"; racyVar1 = 5".toList ∨ line = [] := by
    simpa [Text.pieces] using hmem
  · exact hline
  · exact .code (by decide)

end RaceSkeletons
