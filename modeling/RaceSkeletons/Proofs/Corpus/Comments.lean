import RaceSkeletons.Corpus.Comments

/-!
# A normalized text stays as it is

Stripping comments twice is stripping them once (`stripComments_idem`), because
no two slashes come together that were apart. A header survives it
(`hasHeader_stripComments`): white space and the keyword have no slash, so a
comment on the first line starts behind them. So a text that was given a header
and then stripped is clean (`isClean_normalText`), and normalizing it again
changes nothing.
-/

namespace RaceSkeletons

/-! ## Comments -/

theorem head?_stripFrom {inside : Bool} {s : List Char}
    (h : (stripFrom inside s).head? = some '/') : inside = false ∧ s.head? = some '/' := by
  fun_induction stripFrom inside s with
  | case1 => cases h
  | case2 rest _ => cases h
  | case3 c rest _ ih => exact absurd (ih h).1 nofun
  | case4 c => exact ⟨rfl, h⟩
  | case5 c d rest _ ih => exact absurd (ih h).1 nofun
  | case6 c d rest _ _ => exact ⟨rfl, h⟩

theorem stripFrom_cons {c : Char} {s : List Char} (h : c = '/' → s.head? ≠ some '/') :
    stripFrom false (c :: s) = c :: stripFrom false s := by
  cases s with
  | nil => rfl
  | cons d rest =>
      rw [stripFrom, if_neg]
      rintro ⟨rfl, rfl⟩
      exact h rfl rfl

/-- What was stripped has no comment left. -/
theorem stripFrom_stripFrom (inside : Bool) (s : List Char) :
    stripFrom false (stripFrom inside s) = stripFrom inside s := by
  fun_induction stripFrom inside s with
  | case1 => rfl
  | case2 rest ih => rw [stripFrom_cons fun heq => absurd heq (by decide), ih]
  | case3 c rest _ ih => exact ih
  | case4 c => rfl
  | case5 c d rest _ ih => exact ih
  | case6 c d rest hapart ih =>
      rw [stripFrom_cons, ih]
      -- a slash that was kept had no slash behind it
      rintro rfl hhead
      exact hapart ⟨rfl, Option.some.inj (head?_stripFrom hhead).2⟩

theorem stripComments_idem (content : String) :
    stripComments (stripComments content) = stripComments content := by
  simp only [stripComments, String.toList_ofList, stripFrom_stripFrom]

theorem stripFrom_append {before : List Char} (h : '/' ∉ before) (s : List Char) :
    stripFrom false (before ++ s) = before ++ stripFrom false s := by
  induction before with
  | nil => rfl
  | cons c rest ih =>
      obtain ⟨hc, hrest⟩ := not_or.mp fun hmem => h (List.mem_cons.mpr hmem)
      rw [List.cons_append, stripFrom_cons fun heq => absurd heq.symm hc, ih hrest]
      rfl

/-! ## Headers -/

namespace Text

theorem pieces_eq (s : List Char) : ∃ more, pieces s = s.takeWhile (· != '\n') :: more := by
  induction s with
  | nil => exact ⟨[], rfl⟩
  | cons c rest ih =>
      obtain ⟨more, hmore⟩ := ih
      rw [pieces, hmore]
      by_cases hc : c = '\n'
      · rw [if_pos hc, hc]
        exact ⟨_, rfl⟩
      · rw [if_neg hc, List.takeWhile_cons, if_pos (bne_iff_ne.mpr hc)]
        exact ⟨more, rfl⟩

/-- The first line of a text, but for the end of a line that is not the last. -/
theorem lines_cases (s : List Char) :
    lines s = [] ∧ s.takeWhile (· != '\n') = [] ∨
      ∃ line more, lines s = line :: more ∧
        (line = s.takeWhile (· != '\n') ∨ line = dropReturn (s.takeWhile (· != '\n'))) := by
  obtain ⟨more, hmore⟩ := pieces_eq s
  rw [lines, hmore]
  cases more with
  | nil =>
      rw [closeLines]
      split
      · next hempty => exact .inl ⟨rfl, List.isEmpty_iff.mp hempty⟩
      · exact .inr ⟨_, _, rfl, .inl rfl⟩
  | cons second more => exact .inr ⟨_, _, rfl, .inr rfl⟩

theorem trim_dropReturn (line : List Char) : trim (dropReturn line) = trim line := by
  rw [dropReturn]
  split
  · next hreturn =>
      obtain ⟨before, rfl⟩ := List.getLast?_eq_some_iff.mp hreturn
      have hblank : isBlank '\r' = true := by decide
      rw [List.dropLast_concat, trim, trim, trimStart, trimStart, List.dropWhile_append]
      split
      · next hall =>
          rw [List.isEmpty_iff.mp hall, List.dropWhile_cons_of_pos hblank]
          rfl
      · rw [trimEnd, trimEnd, List.reverse_append, List.reverse_singleton, List.singleton_append,
          List.dropWhile_cons_of_pos hblank]
  · rfl

/-- A word without white space at its ends starts a trimmed text when only
white space is before it. -/
theorem prefix_trim_iff (first : Char) (middle : List Char) (last : Char) (s : List Char)
    (hfirst : isBlank first = false) (hlast : isBlank last = false) :
    first :: middle ++ [last] <+: trim s ↔
      ∃ blanks rest, s = blanks ++ (first :: middle ++ [last]) ++ rest ∧
        ∀ c ∈ blanks, isBlank c = true := by
  have hfirst' : ¬ isBlank first = true := Bool.eq_false_iff.mp hfirst
  have hlast' : ¬ isBlank last = true := Bool.eq_false_iff.mp hlast
  constructor
  · rintro ⟨rest, hrest⟩
    have hprefix : trimEnd (trimStart s) <+: trimStart s :=
      List.reverse_suffix.mp (by rw [trimEnd, List.reverse_reverse]; exact List.dropWhile_suffix _)
    obtain ⟨more, hmore⟩ := hprefix
    refine ⟨s.takeWhile isBlank, rest ++ more, ?_, fun c hc => ?_⟩
    · rw [List.append_assoc, ← List.append_assoc _ rest, hrest, trim, hmore, trimStart,
        List.takeWhile_append_dropWhile]
    · exact List.all_eq_true.mp List.all_takeWhile c hc
  · rintro ⟨blanks, rest, rfl, hblanks⟩
    have hstart : trimStart (blanks ++ (first :: middle ++ [last]) ++ rest) =
        first :: middle ++ [last] ++ rest := by
      rw [trimStart, List.append_assoc, List.dropWhile_append_of_pos hblanks, List.cons_append,
        List.cons_append, List.dropWhile_cons_of_neg hfirst']
    have hword : (first :: middle ++ [last]).reverse.dropWhile isBlank =
        (first :: middle ++ [last]).reverse := by
      rw [List.reverse_append, List.reverse_singleton, List.singleton_append,
        List.dropWhile_cons_of_neg hlast']
    rw [trim, hstart, trimEnd, List.reverse_append, List.dropWhile_append, hword]
    split
    · simp only [List.reverse_reverse, List.prefix_refl]
    · rw [List.reverse_append, List.reverse_reverse]
      exact List.prefix_append _ _

end Text

/-- A line that starts with the keyword behind white space. -/
def StartsWithKeyword (line : List Char) : Prop :=
  ∃ blanks rest, line = blanks ++ headerKeyword.toList ++ rest ∧
    ∀ c ∈ blanks, Text.isBlank c = true

theorem prefix_keyword_iff (line : List Char) :
    headerKeyword.toList.isPrefixOf (Text.trim line) = true ↔ StartsWithKeyword line :=
  List.isPrefixOf_iff_prefix.trans
    (Text.prefix_trim_iff 'p' "ackag".toList 'e' line (by decide) (by decide))

theorem startsWithKeyword_dropReturn {line : List Char} :
    StartsWithKeyword (Text.dropReturn line) ↔ StartsWithKeyword line := by
  rw [← prefix_keyword_iff, ← prefix_keyword_iff, Text.trim_dropReturn]

/-- The white space before the keyword, and the keyword, begin no comment and end
no line. -/
theorem ne_of_header {c : Char}
    (h : (Text.isBlank c = true ∧ c ≠ '\n') ∨ c ∈ headerKeyword.toList) : c ≠ '/' ∧ c ≠ '\n' := by
  rcases h with ⟨hblank, hline⟩ | hword
  · refine ⟨?_, hline⟩
    rintro rfl
    exact absurd hblank (by decide)
  · have hletters : headerKeyword.toList.all (fun c => c != '/' && c != '\n') = true := by decide
    simpa using List.all_eq_true.mp hletters c hword

theorem hasHeader_iff_startsWithKeyword {content : String} :
    hasHeader content = true ↔ StartsWithKeyword (content.toList.takeWhile (· != '\n')) := by
  rw [hasHeader]
  rcases Text.lines_cases content.toList with ⟨hnil, hempty⟩ | ⟨line, more, hcons, rfl | rfl⟩
  · rw [hnil, hempty]
    refine ⟨nofun, ?_⟩
    rintro ⟨blanks, rest, heq, -⟩
    have hlength := congrArg List.length heq
    simp [headerKeyword] at hlength
  · rw [hcons]
    exact prefix_keyword_iff _
  · rw [hcons]
    exact (prefix_keyword_iff _).trans startsWithKeyword_dropReturn

/-- A text has a header when its first line is the keyword behind white space,
whatever comes after it. -/
theorem hasHeader_iff {content : String} :
    hasHeader content = true ↔
      ∃ blanks rest, content.toList = blanks ++ headerKeyword.toList ++ rest ∧
        ∀ c ∈ blanks, Text.isBlank c = true ∧ c ≠ '\n' := by
  have hkept : ∀ blanks : List Char, (∀ c ∈ blanks, Text.isBlank c = true ∧ c ≠ '\n') →
      ∀ c ∈ blanks ++ headerKeyword.toList, (c != '\n') = true := fun blanks hblanks c hc =>
    bne_iff_ne.mpr (ne_of_header ((List.mem_append.mp hc).imp_left (hblanks c))).2
  rw [hasHeader_iff_startsWithKeyword]
  constructor
  · rintro ⟨blanks, rest, hline, hblanks⟩
    refine ⟨blanks, rest ++ content.toList.dropWhile (· != '\n'), ?_, fun c hc => ?_⟩
    · rw [← List.append_assoc, ← hline, List.takeWhile_append_dropWhile]
    · have hmem : c ∈ content.toList.takeWhile (· != '\n') := by
        rw [hline, List.append_assoc]
        exact List.mem_append_left _ hc
      exact ⟨hblanks c hc, bne_iff_ne.mp (List.all_eq_true.mp List.all_takeWhile c hmem)⟩
  · rintro ⟨blanks, rest, hcontent, hblanks⟩
    refine ⟨blanks, rest.takeWhile (· != '\n'), ?_, fun c hc => (hblanks c hc).1⟩
    rw [hcontent, List.takeWhile_append_of_pos (hkept blanks hblanks)]

theorem hasHeader_stripComments {content : String} (h : hasHeader content = true) :
    hasHeader (stripComments content) = true := by
  obtain ⟨blanks, rest, hcontent, hblanks⟩ := hasHeader_iff.mp h
  have hslash : '/' ∉ blanks ++ headerKeyword.toList := fun hmem =>
    (ne_of_header ((List.mem_append.mp hmem).imp_left (hblanks '/'))).1 rfl
  refine hasHeader_iff.mpr ⟨blanks, stripFrom false rest, ?_, hblanks⟩
  rw [stripComments, String.toList_ofList, hcontent, stripFrom_append hslash]

theorem hasHeader_insertHeader (content : String) : hasHeader (insertHeader content) = true := by
  rw [insertHeader]
  split
  · assumption
  · refine hasHeader_iff.mpr ⟨[], " main\n\n".toList ++ content.toList, ?_, nofun⟩
    rw [String.toList_append]
    rfl

/-! ## Clean texts -/

/-- A text that normalization leaves as it is. -/
structure IsClean (content : String) : Prop where
  header : hasHeader content = true
  stripped : stripComments content = content

/-- What normalization makes of a text. -/
def normalText (content : String) : String :=
  stripComments (insertHeader content)

theorem isClean_normalText (content : String) : IsClean (normalText content) where
  header := hasHeader_stripComments (hasHeader_insertHeader content)
  stripped := stripComments_idem _

theorem IsClean.normalText_eq {content : String} (h : IsClean content) :
    normalText content = content := by
  rw [normalText, insertHeader, if_pos h.header, h.stripped]

end RaceSkeletons
