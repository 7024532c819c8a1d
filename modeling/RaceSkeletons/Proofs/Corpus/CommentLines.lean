import RaceSkeletons.Proofs.Corpus.Comments
import RaceSkeletons.Proofs.Tracked.Words

/-!
# Comments line by line

Stripping runs over the whole text and remembers whether it is in a comment.
Said without that state, it cuts every piece of the text at its first marker
(`pieces_stripComments`); the line feeds between the pieces stay. So the figures
of a fragment tell whether stripping changes it (`hasComments_iff`).

A slash and a line feed are no word characters, so a cut takes whole words away
and leaves the others as they are: a text mentions what one of its pieces
mentions (`TrackedPattern.mentionsWord_iff_pieces`), and nothing comes to be
mentioned because a comment is gone (`TrackedPattern.mentionsWord_stripComments`).
-/

namespace RaceSkeletons

/-! ## Lines cut at their comments -/

theorem occursIn_iff {part s : List Char} : occursIn part s = true ↔ part <:+: s := by
  induction s with
  | nil => rw [occursIn, List.isEmpty_iff, List.infix_nil]
  | cons c rest ih =>
      rw [occursIn, Bool.or_eq_true, List.isPrefixOf_iff_prefix, ih, List.infix_cons_iff]

/-- What stands before the first comment marker of a line. -/
def beforeComment : List Char → List Char
  | [] => []
  | [c] => [c]
  | c :: d :: rest => if c = '/' ∧ d = '/' then [] else c :: beforeComment (d :: rest)

/-- A line cut at its first comment marker, if it has one: no marker begins in
what is left of the line. -/
def IsCutAtComment (line before : List Char) : Prop :=
  (before = line ∧ ¬ lineComment <:+: line) ∨
    ∃ rest, line = before ++ lineComment ++ rest ∧ ¬ lineComment <:+: before ++ ['/']

theorem beforeComment_cons {c : Char} {s : List Char} (h : c = '/' → s.head? ≠ some '/') :
    beforeComment (c :: s) = c :: beforeComment s := by
  cases s with
  | nil => rfl
  | cons d rest =>
      rw [beforeComment, if_neg]
      rintro ⟨rfl, rfl⟩
      exact h rfl rfl

theorem lineComment_prefix_iff {c : Char} {s : List Char} :
    lineComment <+: c :: s ↔ c = '/' ∧ s.head? = some '/' := by
  cases s <;> simp [lineComment, eq_comm]

/-- Where no marker begins, one begins later or not at all. -/
theorem lineComment_infix_cons {c : Char} {s : List Char} (h : c = '/' → s.head? ≠ some '/') :
    lineComment <:+: c :: s ↔ lineComment <:+: s := by
  rw [List.infix_cons_iff, lineComment_prefix_iff, or_iff_right]
  exact fun hmarker => h hmarker.1 hmarker.2

theorem isCutAtComment_beforeComment (line : List Char) :
    IsCutAtComment line (beforeComment line) := by
  fun_induction beforeComment line with
  | case1 => exact .inl ⟨rfl, by decide⟩
  | case2 c => exact .inl ⟨rfl, fun hpart => absurd hpart.length_le (by simp [lineComment])⟩
  | case3 c d rest hmarker =>
      obtain ⟨rfl, rfl⟩ := hmarker
      exact .inr ⟨rest, rfl, by decide⟩
  | case4 c d rest hapart ih =>
      have hhead : ∀ s : List Char, s.head? = some d → c = '/' → s.head? ≠ some '/' := by
        rintro s hs rfl hslash
        exact hapart ⟨rfl, Option.some.inj (hs.symm.trans hslash)⟩
      rcases ih with ⟨hwhole, hnone⟩ | ⟨more, hline, hfirst⟩
      · rw [hwhole]
        exact .inl ⟨rfl, (lineComment_infix_cons (hhead _ rfl)).not.mpr hnone⟩
      · refine .inr ⟨more, by rw [List.cons_append, List.cons_append, ← hline], ?_⟩
        -- what is cut off begins with a slash, so the first character has not changed
        have hfront : (beforeComment (d :: rest) ++ ['/']).head? = some d := by
          have hline := congrArg List.head? hline
          cases hbefore : beforeComment (d :: rest) with
          | nil => rw [hbefore] at hline; exact hline.symm
          | cons b before => rw [hbefore] at hline; exact hline.symm
        exact (lineComment_infix_cons (hhead _ hfront)).not.mpr hfirst

theorem beforeComment_eq_self_iff {line : List Char} :
    beforeComment line = line ↔ ¬ lineComment <:+: line := by
  rcases isCutAtComment_beforeComment line with ⟨hwhole, hnone⟩ | ⟨rest, hline, -⟩
  · exact iff_of_true hwhole hnone
  · refine iff_of_false (fun hsame => ?_) (not_not.mpr ⟨_, _, hline.symm⟩)
    have hlength := congrArg List.length hline
    rw [hsame] at hlength
    simp [lineComment] at hlength

/-! ## Pieces -/

namespace Text

theorem pieces_eq_cons (s : List Char) :
    pieces s = s.takeWhile (· != '\n') :: (pieces s).tail := by
  obtain ⟨more, hmore⟩ := pieces_eq s
  rw [hmore, List.tail_cons]

theorem pieces_newline (s : List Char) : pieces ('\n' :: s) = [] :: pieces s := by
  rw [pieces, if_pos rfl]

theorem pieces_cons {c : Char} (h : c ≠ '\n') (s : List Char) :
    pieces (c :: s) = (c :: s.takeWhile (· != '\n')) :: (pieces s).tail := by
  rw [pieces, if_neg h, pieces_eq_cons s]
  rfl

theorem pieces_injective {s t : List Char} : pieces s = pieces t ↔ s = t := by
  refine ⟨fun h => ?_, congrArg pieces⟩
  rw [← joinPieces_pieces s, h, joinPieces_pieces]

/-- A test that no line end passes and that does not look at carriage returns
holds for a line of a text if it holds for a piece. -/
theorem any_lines {test : List Char → Bool} (hempty : test [] = false)
    (hreturn : ∀ line, test (dropReturn line) = test line) (s : List Char) :
    (lines s).any test = (pieces s).any test := by
  rw [lines]
  fun_induction closeLines (pieces s) with
  | case1 => rfl
  | case2 p hp => rw [List.isEmpty_iff.mp hp, List.any_cons, hempty]; rfl
  | case3 p hp => rfl
  | case4 p q rest ih => rw [List.any_cons, List.any_cons, hreturn, ih]

end Text

/-- Stripping cuts every piece at its first marker. Of a text that starts in a
comment the first piece is gone. -/
theorem pieces_stripFrom (inside : Bool) (s : List Char) :
    Text.pieces (stripFrom inside s) =
      (if inside then [] else beforeComment (s.takeWhile (· != '\n'))) ::
        (Text.pieces s).tail.map beforeComment := by
  fun_induction stripFrom inside s with
  | case1 inside => cases inside <;> rfl
  | case2 rest ih =>
      rw [Text.pieces_newline, ih, Text.pieces_newline, List.tail_cons, Text.pieces_eq_cons rest]
      rfl
  | case3 c rest hc ih =>
      rw [ih, Text.pieces_cons hc, List.tail_cons]
      rfl
  | case4 c =>
      by_cases hc : c = '\n'
      · subst hc
        rfl
      · rw [Text.pieces_cons hc, List.takeWhile_cons, if_pos (bne_iff_ne.mpr hc)]
        rfl
  | case5 c d rest hmarker ih =>
      obtain ⟨rfl, rfl⟩ := hmarker
      rw [ih, Text.pieces_cons (by decide) ('/' :: rest), List.tail_cons]
      rfl
  | case6 c d rest hapart ih =>
      by_cases hc : c = '\n'
      · subst hc
        rw [Text.pieces_newline, ih, Text.pieces_newline, List.tail_cons,
          Text.pieces_eq_cons (d :: rest)]
        rfl
      · rw [Text.pieces_eq_cons (stripFrom false (d :: rest)), if_neg Bool.false_ne_true] at ih
        obtain ⟨hhead, htail⟩ := List.cons.inj ih
        have hline : (c :: d :: rest).takeWhile (· != '\n') =
            c :: (d :: rest).takeWhile (· != '\n') :=
          List.takeWhile_cons_of_pos (bne_iff_ne.mpr hc)
        rw [Text.pieces_cons hc, hhead, htail, Text.pieces_cons hc, List.tail_cons,
          if_neg Bool.false_ne_true, hline, beforeComment_cons]
        -- the character behind a slash on the same line is the one behind it in the text
        rintro rfl hslash
        rw [List.head?_takeWhile, Option.filter_eq_some_iff] at hslash
        exact hapart ⟨rfl, Option.some.inj hslash.1⟩

theorem pieces_stripComments (content : String) :
    Text.pieces (stripComments content).toList =
      (Text.pieces content.toList).map beforeComment := by
  rw [stripComments, String.toList_ofList, pieces_stripFrom, Text.pieces_eq_cons content.toList]
  rfl

/-- No marker is left, also where what stood around a comment comes together. -/
theorem not_infix_stripFrom (inside : Bool) (s : List Char) :
    ¬ lineComment <:+: stripFrom inside s := by
  fun_induction stripFrom inside s with
  | case1 => decide
  | case2 rest ih => rwa [lineComment_infix_cons fun heq => absurd heq (by decide)]
  | case3 c rest _ ih => exact ih
  | case4 c => exact fun hpart => absurd hpart.length_le (by simp [lineComment])
  | case5 c d rest _ ih => exact ih
  | case6 c d rest hapart ih =>
      rwa [lineComment_infix_cons]
      rintro rfl hhead
      exact hapart ⟨rfl, Option.some.inj (head?_stripFrom hhead).2⟩

theorem takeWhile_stripComments (content : String) :
    (stripComments content).toList.takeWhile (· != '\n') =
      beforeComment (content.toList.takeWhile (· != '\n')) := by
  have hpieces := pieces_stripComments content
  rw [Text.pieces_eq_cons, Text.pieces_eq_cons content.toList] at hpieces
  exact (List.cons.inj hpieces).1

/-- Stripping changes nothing where no line has a marker. -/
theorem stripComments_eq_self_iff {content : String} :
    stripComments content = content ↔
      ∀ line ∈ Text.pieces content.toList, ¬ lineComment <:+: line := by
  rw [← String.toList_inj, ← Text.pieces_injective, pieces_stripComments]
  constructor
  · intro h line hline
    rw [← List.map_id (Text.pieces content.toList), List.map_map] at h
    exact beforeComment_eq_self_iff.mp (List.map_inj_left.mp h line hline)
  · intro h
    exact (List.map_congr_left fun line hline => beforeComment_eq_self_iff.mpr (h line hline)).trans
      (List.map_id _)

/-! ## Figures -/

theorem occursIn_dropReturn (line : List Char) :
    occursIn lineComment (Text.dropReturn line) = occursIn lineComment line := by
  rw [Bool.eq_iff_iff, occursIn_iff, occursIn_iff, Text.dropReturn]
  split
  · next hreturn =>
      obtain ⟨before, rfl⟩ := List.getLast?_eq_some_iff.mp hreturn
      rw [List.dropLast_concat, List.infix_concat_iff, or_iff_right]
      -- a marker does not end in a carriage return
      rintro ⟨front, heq⟩
      have hlast := congrArg List.getLast? heq
      have hmarker : lineComment.getLast? = some '/' := rfl
      rw [List.getLast?_append, List.getLast?_concat, hmarker, Option.some_or] at hlast
      exact absurd (Option.some.inj hlast) (by decide)
  · exact Iff.rfl

theorem hasComments_iff (size : Nat) (content : String) :
    (FragmentStats.ofContent size content).hasComments = true ↔
      ∃ line ∈ Text.pieces content.toList, lineComment <:+: line := by
  rw [FragmentStats.ofContent, Text.any_lines (by decide) occursIn_dropReturn, List.any_eq_true]
  simp only [occursIn_iff]

/-- The figures tell whether there is something to strip. -/
theorem hasComments_iff_stripComments_ne (size : Nat) (content : String) :
    (FragmentStats.ofContent size content).hasComments = true ↔
      stripComments content ≠ content := by
  rw [hasComments_iff, Ne, stripComments_eq_self_iff]
  simp only [not_forall, not_not, exists_prop]

/-! ## Words -/

namespace IsWord

variable {c : Char} {before word after : List Char}

/-- A word that ends where a text ends also ends where the text goes on with
something that is no word character. -/
theorem append_right (h : IsWord before word after) (hc : Text.isWordChar c = false)
    (rest : List Char) : IsWord before word (after ++ c :: rest) where
  nonempty := h.nonempty
  chars := h.chars
  starts := h.starts
  ends := by
    intro d hd
    cases after with
    | nil =>
        obtain rfl : c = d := Option.some.inj hd
        exact hc
    | cons a after => exact h.ends d hd

theorem append_left (h : IsWord before word after) (hc : Text.isWordChar c = false)
    (front : List Char) : IsWord (front ++ c :: before) word after where
  nonempty := h.nonempty
  chars := h.chars
  starts := by
    intro d hd
    rw [List.getLast?_append, List.getLast?_cons, Option.some_or] at hd
    cases hlast : before.getLast? with
    | none =>
        rw [hlast] at hd
        obtain rfl : c = d := Option.some.inj hd
        exact hc
    | some b =>
        rw [hlast] at hd
        obtain rfl : b = d := Option.some.inj hd
        exact h.starts b hlast
  ends := h.ends

/-- No word of a text goes across a character that belongs to none. -/
theorem apart {left right : List Char} (h : IsWord before word after)
    (hc : Text.isWordChar c = false) (htext : left ++ c :: right = before ++ word ++ after) :
    (∃ after', left = before ++ word ++ after' ∧ IsWord before word after') ∨
      ∃ before', right = before' ++ word ++ after ∧ IsWord before' word after := by
  have hword : c ∉ word := fun hmem => absurd (h.chars c hmem) (Bool.eq_false_iff.mp hc)
  rw [List.append_assoc, List.append_eq_append_iff] at htext
  rcases htext with ⟨front, rfl, hfront⟩ | ⟨mid, rfl, hmid⟩
  · cases front with
    | nil =>
        obtain ⟨w, rest, rfl⟩ := List.exists_cons_of_ne_nil h.nonempty
        obtain ⟨rfl, -⟩ := List.cons.inj hfront
        exact absurd (List.mem_cons_self ..) hword
    | cons d front =>
        obtain ⟨rfl, rfl⟩ := List.cons.inj hfront
        refine .inr ⟨front, (List.append_assoc ..).symm, h.nonempty, h.chars, ?_, h.ends⟩
        intro b hb
        refine h.starts b ?_
        rw [List.getLast?_append, List.getLast?_cons, hb]
        rfl
  · rcases List.append_eq_append_iff.mp hmid with ⟨more, rfl, rfl⟩ | ⟨tail, rfl, htail⟩
    · refine .inl ⟨more, (List.append_assoc ..).symm, h.nonempty, h.chars, h.starts, ?_⟩
      intro a ha
      refine h.ends a ?_
      rw [List.head?_append, ha]
      rfl
    · cases tail with
      | nil =>
          rw [List.append_nil] at h ⊢
          exact .inl ⟨[], by rw [List.append_nil], h.nonempty, h.chars, h.starts, nofun⟩
      | cons d tail =>
          obtain ⟨rfl, -⟩ := List.cons.inj htail
          exact absurd (List.mem_append_right _ (List.mem_cons_self ..)) hword

end IsWord

namespace TrackedPattern

variable {p : TrackedPattern}

/-- A text mentions what it mentions on one side of a character that belongs
to no word, or on the other. -/
theorem mentionsWord_append_iff {c : Char} (hc : Text.isWordChar c = false)
    (left right : List Char) :
    p.MentionsWord (String.ofList (left ++ c :: right)) ↔
      p.MentionsWord (String.ofList left) ∨ p.MentionsWord (String.ofList right) := by
  simp only [MentionsWord, String.toList_ofList]
  constructor
  · rintro ⟨before, word, after, htext, hword, hname⟩
    rcases hword.apart hc htext with ⟨after', hleft, hword'⟩ | ⟨before', hright, hword'⟩
    · exact .inl ⟨before, word, after', hleft, hword', hname⟩
    · exact .inr ⟨before', word, after, hright, hword', hname⟩
  · rintro (⟨before, word, after, rfl, hword, hname⟩ | ⟨before, word, after, rfl, hword, hname⟩)
    · exact ⟨before, word, after ++ c :: right, List.append_assoc ..,
        hword.append_right hc right, hname⟩
    · refine ⟨left ++ c :: before, word, after, ?_, hword.append_left hc left, hname⟩
      simp only [List.append_assoc, List.cons_append]

theorem not_mentionsWord_empty : ¬ p.MentionsWord (String.ofList []) := by
  rintro ⟨before, word, after, htext, hword, -⟩
  rw [String.toList_ofList, eq_comm, List.append_eq_nil_iff, List.append_eq_nil_iff] at htext
  exact hword.nonempty htext.1.2

theorem mentionsWord_joinPieces_iff (lines : List (List Char)) :
    p.MentionsWord (String.ofList (Text.joinPieces lines)) ↔
      ∃ line ∈ lines, p.MentionsWord (String.ofList line) := by
  fun_induction Text.joinPieces lines with
  | case1 => exact iff_of_false not_mentionsWord_empty nofun
  | case2 line => simp only [List.mem_singleton, exists_eq_left]
  | case3 first second rest ih =>
      rw [mentionsWord_append_iff (by decide), ih]
      simp only [List.mem_cons, exists_eq_or_imp]

/-- A text mentions what one of its pieces mentions. -/
theorem mentionsWord_iff_pieces {text : String} :
    p.MentionsWord text ↔
      ∃ line ∈ Text.pieces text.toList, p.MentionsWord (String.ofList line) := by
  rw [← mentionsWord_joinPieces_iff, Text.joinPieces_pieces, String.ofList_toList]

theorem mentionsWord_beforeComment {line : List Char}
    (h : p.MentionsWord (String.ofList (beforeComment line))) :
    p.MentionsWord (String.ofList line) := by
  rcases isCutAtComment_beforeComment line with ⟨hwhole, -⟩ | ⟨rest, hline, -⟩
  · rwa [hwhole] at h
  · rw [hline, List.append_assoc]
    exact (mentionsWord_append_iff (by decide) _ _).mpr (.inl h)

/-- Nothing comes to be mentioned because a comment is gone. -/
theorem mentionsWord_stripComments {text : String}
    (h : p.MentionsWord (stripComments text)) : p.MentionsWord text := by
  rw [mentionsWord_iff_pieces, pieces_stripComments] at h
  obtain ⟨cut, hcut, hmention⟩ := h
  obtain ⟨line, hline, rfl⟩ := List.mem_map.mp hcut
  exact mentionsWord_iff_pieces.mpr ⟨line, hline, mentionsWord_beforeComment hmention⟩

end TrackedPattern

/-- **Comments are cut off line by line.** Stripping cuts each piece of a text
at its first marker and keeps the line feeds. So it does nothing a second time,
and leaves a text without comments; the figures of a text say whether it does
anything; and what the stripped text mentions, the text mentions. -/
theorem stripComments_cuts_lines (content : String) :
    (Text.pieces (stripComments content).toList =
        (Text.pieces content.toList).map beforeComment
      ∧ ∀ line, IsCutAtComment line (beforeComment line))
    ∧ stripComments (stripComments content) = stripComments content
    ∧ (∀ size, (FragmentStats.ofContent size (stripComments content)).hasComments = false)
    ∧ (∀ size, (FragmentStats.ofContent size content).hasComments = true ↔
        stripComments content ≠ content)
    ∧ ∀ p : TrackedPattern, Settings.isIdentifier p.leading = true →
        p.isReferenced (stripComments content) = true → p.isReferenced content = true := by
  refine ⟨⟨pieces_stripComments content, isCutAtComment_beforeComment⟩, stripComments_idem content,
    fun size => ?_, fun size => hasComments_iff_stripComments_ne size content,
    fun p hp hreferenced => ?_⟩
  · refine Bool.eq_false_iff.mpr fun hcomments => ?_
    exact (hasComments_iff_stripComments_ne size _).mp hcomments (stripComments_idem content)
  · rw [TrackedPattern.isReferenced_iff_mentionsWord hp] at hreferenced ⊢
    exact TrackedPattern.mentionsWord_stripComments hreferenced

/-- Three slashes on a line with a carriage return, two slashes apart, and a
comment that the text ends in. -/
theorem stripComments_cuts_lines_sample :
    Settings.isIdentifier TrackedPattern.standard.leading = true
      ∧ stripComments "x /// y\r\n/ /racyVar1 //racyVar2" = "x \n/ /racyVar1 "
      ∧ TrackedPattern.standard.isReferenced "x /// y\r\n/ /racyVar1 //racyVar2" = true := by
  have hp : Settings.isIdentifier TrackedPattern.standard.leading = true := by decide
  have hstrip : stripComments "x /// y\r\n/ /racyVar1 //racyVar2" = "x \n/ /racyVar1 " := by
    decide
  obtain ⟨-, -, -, -, hkeeps⟩ := stripComments_cuts_lines "x /// y\r\n/ /racyVar1 //racyVar2"
  exact ⟨hp, hstrip, hkeeps _ hp (by rw [hstrip]; decide)⟩

end RaceSkeletons
