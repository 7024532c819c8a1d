import RaceSkeletons.Proofs.Corpus.Frame
import RaceSkeletons.Proofs.Corpus.Headers
import RaceSkeletons.Proofs.Tracked.Words

/-!
# Tracked variables line by line

A word never goes over a line feed, so the words of two texts with a line feed between
them are the words of the one and those of the other (`exists_word_joined_iff`). What
follows a word may go over it: a name at the end of the first text can be assigned to at
the start of the second (`TrackedPattern.assignsWord_joined`). Nothing else is found that
was not in one of the two.

A package header ends with a line feed, and there is no digit in it, so no tracked
name. A text with a header in front therefore mentions what it mentioned, and
assigns to what it assigned to, and neither the kind of a race nor the issue of a case is
another one when headers are inserted.
-/

namespace RaceSkeletons

open TrackedPattern

/-! ## Words on one side of a separator -/

section

variable {a b before word after : List Char} {sep : Char}

theorem IsWord.not_mem (h : IsWord before word after) (hsep : Text.isWordChar sep = false) :
    sep ∉ word := by
  intro hmem
  rw [h.chars sep hmem] at hsep
  cases hsep

/-- Three parts of a text with a separator in it, which is not in the middle part. -/
theorem parts_of_append_cons (hsep : sep ∉ word) (h : a ++ sep :: b = before ++ word ++ after) :
    (∃ rest, after = rest ++ sep :: b ∧ a = before ++ word ++ rest) ∨
      ∃ start, before = a ++ sep :: start ∧ b = start ++ word ++ after := by
  rcases List.append_eq_append_iff.mp h with ⟨more, hmore, hbehind⟩ | ⟨rest, rfl, rfl⟩
  · cases more with
    | nil =>
        rw [List.append_nil] at hmore
        exact .inl ⟨[], hbehind.symm, by rw [hmore, List.append_nil]⟩
    | cons s more =>
        obtain ⟨rfl, rfl⟩ := List.cons.inj hbehind
        rcases List.append_eq_append_iff.mp hmore with ⟨part, -, hword⟩ | ⟨part, rfl, hword⟩
        · exact absurd (hword ▸ List.mem_append_right part List.mem_cons_self) hsep
        · -- the separator is in front of the word
          cases part with
          | nil =>
              rw [List.nil_append] at hword
              exact absurd (hword ▸ List.mem_cons_self) hsep
          | cons s part =>
              obtain ⟨rfl, rfl⟩ := List.cons.inj hword
              exact .inr ⟨part, rfl, rfl⟩
  · exact .inl ⟨rest, rfl, rfl⟩

/-- What a word has before it matters only back to a separator. -/
theorem isWord_behind_iff (hsep : Text.isWordChar sep = false) {start : List Char} :
    IsWord (a ++ sep :: start) word after ↔ IsWord start word after := by
  have hlast : (a ++ sep :: start).getLast? = start.getLast?.or (some sep) := by
    rw [List.getLast?_append, List.getLast?_cons]
    cases start.getLast? <;> rfl
  constructor
  · intro h
    refine ⟨h.nonempty, h.chars, fun c hc => h.starts c ?_, h.ends⟩
    rw [hlast, hc]
    rfl
  · intro h
    refine ⟨h.nonempty, h.chars, fun c hc => ?_, h.ends⟩
    rw [hlast] at hc
    cases hstart : start.getLast? with
    | none =>
        rw [hstart] at hc
        obtain rfl := Option.some.inj hc
        exact hsep
    | some d =>
        rw [hstart] at hc
        exact h.starts c (hstart.trans hc)

/-- What a word has behind it matters only up to a separator. -/
theorem isWord_before_iff (hsep : Text.isWordChar sep = false) {rest : List Char} :
    IsWord before word (rest ++ sep :: b) ↔ IsWord before word rest := by
  have hhead : (rest ++ sep :: b).head? = rest.head?.or (some sep) := by
    rw [List.head?_append]
    rfl
  constructor
  · intro h
    refine ⟨h.nonempty, h.chars, h.starts, fun c hc => h.ends c ?_⟩
    rw [hhead, hc]
    rfl
  · intro h
    refine ⟨h.nonempty, h.chars, h.starts, fun c hc => ?_⟩
    rw [hhead] at hc
    cases hrest : rest.head? with
    | none =>
        rw [hrest] at hc
        obtain rfl := Option.some.inj hc
        exact hsep
    | some d =>
        rw [hrest] at hc
        exact h.ends c (hrest.trans hc)

/-- A word of two texts with a separator between them is a word of the one, with all of the
other behind it, or a word of the other. -/
theorem exists_word_joined_iff (test : List Char → List Char → Prop)
    (hsep : Text.isWordChar sep = false) :
    (∃ before word after, a ++ sep :: b = before ++ word ++ after ∧ IsWord before word after ∧
        test word after) ↔
      (∃ before word rest, a = before ++ word ++ rest ∧ IsWord before word rest ∧
        test word (rest ++ sep :: b)) ∨
      ∃ before word after, b = before ++ word ++ after ∧ IsWord before word after ∧
        test word after := by
  constructor
  · rintro ⟨before, word, after, heq, hword, htest⟩
    rcases parts_of_append_cons (hword.not_mem hsep) heq with
      ⟨rest, rfl, rfl⟩ | ⟨start, rfl, rfl⟩
    · exact .inl ⟨before, word, rest, rfl, (isWord_before_iff hsep).mp hword, htest⟩
    · exact .inr ⟨start, word, after, rfl, (isWord_behind_iff hsep).mp hword, htest⟩
  · rintro (⟨before, word, rest, rfl, hword, htest⟩ | ⟨start, word, after, rfl, hword, htest⟩)
    · exact ⟨before, word, rest ++ sep :: b, List.append_assoc ..,
        (isWord_before_iff hsep).mpr hword, htest⟩
    · refine ⟨a ++ sep :: start, word, after, ?_, (isWord_behind_iff hsep).mpr hword, htest⟩
      simp only [List.append_assoc, List.cons_append]

end

/-! ## Assignments over a line feed -/

theorem isWordChar_newline : Text.isWordChar '\n' = false :=
  Text.isWordChar_of_isBlank Text.isBlank_newline

/-- Two characters tell whether a text begins with one equals sign, and the second one only
if it is another. -/
theorem startsWithAssign_append_cons {c sep : Char} (hsep : sep ≠ '=') (text b : List Char) :
    startsWithAssign (c :: text ++ sep :: b) = startsWithAssign (c :: text) := by
  rw [Bool.eq_iff_iff, startsWithAssign_iff, startsWithAssign_iff]
  cases text with
  | nil => simp [hsep]
  | cons d text => simp

/-- Behind a word there is an assignment on the same side of a line feed, or there is only
white space up to it. -/
theorem isAssigning_joined_iff {rest b : List Char} :
    IsAssigning (rest ++ '\n' :: b) ↔
      IsAssigning rest ∨ (∀ c ∈ rest, Text.isBlank c = true) ∧ IsAssigning b := by
  by_cases hblank : ∀ c ∈ rest, Text.isBlank c = true
  · have hnone : ¬ IsAssigning rest := by
      rintro ⟨blanks, more, rfl, -, -⟩
      have hequals := hblank '=' (List.mem_append_right _ List.mem_cons_self)
      exact absurd hequals (by decide)
    rw [isAssigning_iff, @isAssigning_iff b, List.dropWhile_append_of_pos hblank,
      List.dropWhile_cons_of_pos Text.isBlank_newline, ← isAssigning_iff]
    exact ⟨fun h => .inr ⟨hblank, h⟩, fun h => h.elim (fun h => absurd h hnone) And.right⟩
  · have hsplit : (rest ++ '\n' :: b).dropWhile Text.isBlank =
        rest.dropWhile Text.isBlank ++ '\n' :: b := by
      rw [List.dropWhile_append, if_neg]
      intro hempty
      refine hblank (List.dropWhile_eq_nil_iff.mp (List.isEmpty_iff.mp hempty))
    obtain ⟨c, more, hmore⟩ := List.exists_cons_of_ne_nil
      (mt List.dropWhile_eq_nil_iff.mp hblank)
    rw [isAssigning_iff, hsplit, hmore, startsWithAssign_append_cons (by decide), ← hmore,
      ← isAssigning_iff]
    exact ⟨.inl, fun h => h.elim id fun h => absurd h.1 hblank⟩

namespace TrackedPattern

variable {p : TrackedPattern} {word : List Char} {text : String}

/-- Whether a text ends with a tracked name, but for white space. -/
def EndsWithName (p : TrackedPattern) (text : String) : Prop :=
  ∃ before word blanks, text.toList = before ++ word ++ blanks ∧ IsWord before word blanks ∧
    p.IsName word ∧ ∀ c ∈ blanks, Text.isBlank c = true

theorem toList_joined (a b : String) :
    (a ++ "\n" ++ b).toList = a.toList ++ '\n' :: b.toList := by
  rw [String.toList_append, String.toList_append, List.append_assoc]
  rfl

theorem mentionsWord_joined (p : TrackedPattern) (a b : String) :
    p.MentionsWord (a ++ "\n" ++ b) ↔ p.MentionsWord a ∨ p.MentionsWord b := by
  rw [MentionsWord, toList_joined]
  exact exists_word_joined_iff (fun word _ => p.StartsName word) isWordChar_newline

theorem assignsWord_joined (p : TrackedPattern) (a b : String) :
    p.AssignsWord (a ++ "\n" ++ b) ↔
      p.AssignsWord a ∨ p.AssignsWord b ∨ p.EndsWithName a ∧ IsAssigning b.toList := by
  rw [AssignsWord, toList_joined]
  have hsides := exists_word_joined_iff (a := a.toList) (b := b.toList)
    (fun word after => p.IsName word ∧ IsAssigning after) isWordChar_newline
  refine hsides.trans ?_
  constructor
  · rintro (⟨before, word, rest, heq, hword, hname, hassign⟩ | hsecond)
    · rcases isAssigning_joined_iff.mp hassign with hown | ⟨hblank, hover⟩
      · exact .inl ⟨before, word, rest, heq, hword, hname, hown⟩
      · exact .inr (.inr ⟨⟨before, word, rest, heq, hword, hname, hblank⟩, hover⟩)
    · exact .inr (.inl hsecond)
  · rintro (⟨before, word, rest, heq, hword, hname, hown⟩ | hsecond |
      ⟨⟨before, word, blanks, heq, hword, hname, hblank⟩, hover⟩)
    · exact .inl ⟨before, word, rest, heq, hword, hname, isAssigning_joined_iff.mpr (.inl hown)⟩
    · exact .inr hsecond
    · exact .inl ⟨before, word, blanks, heq, hword, hname,
        isAssigning_joined_iff.mpr (.inr ⟨hblank, hover⟩)⟩

/-! ## Headers -/

theorem IsName.startsName (h : p.IsName word) : p.StartsName word := by
  obtain ⟨digits, rfl, hne, hdigits⟩ := h
  obtain ⟨d, rest, rfl⟩ := List.exists_cons_of_ne_nil hne
  exact ⟨d, rest, rfl, hdigits d List.mem_cons_self⟩

theorem AssignsWord.mentionsWord (h : p.AssignsWord text) : p.MentionsWord text := by
  obtain ⟨before, word, after, heq, hword, hname, -⟩ := h
  exact ⟨before, word, after, heq, hword, hname.startsName⟩

theorem EndsWithName.mentionsWord (h : p.EndsWithName text) : p.MentionsWord text := by
  obtain ⟨before, word, blanks, heq, hword, hname, -⟩ := h
  exact ⟨before, word, blanks, heq, hword, hname.startsName⟩

/-- There is a digit in every text that mentions a tracked variable. -/
theorem MentionsWord.exists_digit (h : p.MentionsWord text) :
    ∃ d ∈ text.toList, Text.isDecimalDigit d = true := by
  obtain ⟨before, _, after, heq, -, d, rest, rfl, hd⟩ := h
  refine ⟨d, ?_, hd⟩
  rw [heq]
  simp

theorem not_mentionsWord_header (p : TrackedPattern) : ¬ p.MentionsWord "package main\n" := by
  intro h
  obtain ⟨d, hmem, hd⟩ := h.exists_digit
  have hnone : ∀ c ∈ "package main\n".toList, c.toNat < 128 ∧ c.isDigit = false := by simp
  obtain ⟨hascii, hno⟩ := hnone d hmem
  rw [Text.isDecimalDigit, if_pos hascii, hno] at hd
  cases hd

theorem header_eq (text : String) : defaultHeader ++ text = "package main\n" ++ "\n" ++ text :=
  rfl

theorem mentionsWord_header (p : TrackedPattern) (text : String) :
    p.MentionsWord (defaultHeader ++ text) ↔ p.MentionsWord text := by
  rw [header_eq, mentionsWord_joined]
  exact or_iff_right p.not_mentionsWord_header

theorem assignsWord_header (p : TrackedPattern) (text : String) :
    p.AssignsWord (defaultHeader ++ text) ↔ p.AssignsWord text := by
  rw [header_eq, assignsWord_joined, or_iff_right fun h => p.not_mentionsWord_header h.mentionsWord]
  exact or_iff_left fun h => p.not_mentionsWord_header h.1.mentionsWord

/-- Whether a text is another one, perhaps with a header in front. -/
def IsHeadedText (text headed : String) : Prop :=
  headed = text ∨ headed = defaultHeader ++ text

variable {headed : String}

theorem isReferenced_headed (hp : Settings.isIdentifier p.leading = true)
    (h : IsHeadedText text headed) : p.isReferenced headed = p.isReferenced text := by
  rcases h with rfl | rfl
  · rfl
  · rw [Bool.eq_iff_iff, isReferenced_iff_mentionsWord hp, isReferenced_iff_mentionsWord hp,
      mentionsWord_header]

theorem isAssigned_headed (hp : Settings.isIdentifier p.leading = true)
    (h : IsHeadedText text headed) : p.isAssigned headed = p.isAssigned text := by
  rcases h with rfl | rfl
  · rfl
  · rw [Bool.eq_iff_iff, isAssigned_iff_assignsWord hp, isAssigned_iff_assignsWord hp,
      assignsWord_header]

end TrackedPattern

/-! ## Cases with headers -/

/-- Whether a fragment is another one, perhaps with a header in front. -/
structure Fragment.IsHeaded (f f' : Fragment) : Prop where
  name : f'.name = f.name
  content : IsHeadedText f.content f'.content

/-- A case with its fragments loaded again. -/
def Case.reloaded (fs : FileSystem) (c : Case) : Case :=
  { c with first := Fragment.load fs c.first.path, second := Fragment.load fs c.second.path }

namespace FileSystem

variable {fs fs' : FileSystem}

/-- What can be read is a file, and stays one, whatever is written to it. -/
theorem IsRewrite.target?_of_readBytes {q : Path} {bytes : Bytes} (h : IsRewrite fs fs')
    (hread : fs.readBytes q = .ok bytes) : ∃ location bytes' mode,
      fs.target? q = .ok (location, .file bytes mode) ∧
        fs'.target? q = .ok (location, .file bytes' mode) := by
  rw [readBytes] at hread
  split at hread
  · cases hread
  · next location content mode htarget =>
      obtain rfl := Except.ok.inj hread
      obtain ⟨node', hrewrite, htarget'⟩ := h.grows.target? htarget
      rcases hrewrite with rfl | ⟨_, bytes', _, hnode, rfl⟩
      · exact ⟨location, content, mode, htarget, htarget'⟩
      · obtain ⟨rfl, rfl⟩ := Node.file.inj hnode
        exact ⟨location, bytes', mode, htarget, htarget'⟩
  · cases hread
  · cases hread

theorem IsRewrite.readBytes_cases (h : IsRewrite fs fs') (q : Path) :
    (∃ e e', fs.readBytes q = .error e ∧ fs'.readBytes q = .error e') ∨
      ∃ location bytes bytes' mode,
        fs.target? q = .ok (location, .file bytes mode) ∧
          fs'.target? q = .ok (location, .file bytes' mode) := by
  cases hread : fs.readBytes q with
  | ok bytes =>
      obtain ⟨location, bytes', mode, htarget, htarget'⟩ := h.target?_of_readBytes hread
      exact .inr ⟨location, bytes, bytes', mode, htarget, htarget'⟩
  | error e =>
      cases hread' : fs'.readBytes q with
      | error e' => exact .inl ⟨e, e', rfl, rfl⟩
      | ok bytes' =>
          obtain ⟨location, bytes, mode, -, htarget⟩ := h.symm.target?_of_readBytes hread'
          rw [readBytes, htarget] at hread
          cases hread

end FileSystem

open FileSystem

/-- A fragment is the file that got the header, or another one. -/
theorem isHeaded_load_of_write {fs written : FileSystem} {place : Location} {bytes : Bytes}
    {mode : FileMode} {text : String} (hnode : fs.nodeAt? place = some (.file bytes mode))
    (hdecode : Utf8.decode? bytes = some text)
    (hwrite : IsWrite fs written place (.file (Utf8.encode (defaultHeader ++ text)) mode))
    (q : Path) : (Fragment.load fs q).IsHeaded (Fragment.load written q) := by
  rcases (IsRewrite.of_write hwrite hnode).readBytes_cases q with
    ⟨e, e', hread, hread'⟩ | ⟨location, old, new, flag, hfile, hfile'⟩
  · simp only [Fragment.load, hread, hread']
    exact ⟨rfl, .inl rfl⟩
  · have hread : fs.readBytes q = .ok old := by rw [readBytes, hfile]
    have hread' : written.readBytes q = .ok new := by rw [readBytes, hfile']
    have hold := nodeAt?_of_target? hfile
    have hnew := nodeAt?_of_target? hfile'
    simp only [Fragment.load, hread, hread']
    refine ⟨rfl, ?_⟩
    by_cases hplace : location = place
    · subst hplace
      rw [hnode] at hold
      rw [hwrite.nodeAt?_self] at hnew
      obtain ⟨rfl, -⟩ := Node.file.inj (Option.some.inj hold)
      obtain ⟨rfl, -⟩ := Node.file.inj (Option.some.inj hnew)
      rw [Utf8.decodeLossy_of_decode? (Utf8.decode?_encode _), Utf8.decodeLossy_of_decode? hdecode]
      exact .inr rfl
    · rw [hwrite.nodeAt?_of_ne hplace, hold] at hnew
      obtain ⟨rfl, -⟩ := Node.file.inj (Option.some.inj hnew)
      exact .inl rfl

/-- Whatever file is to get a header, every fragment is what it was, perhaps with a header in
front, where no write fails halfway. -/
theorem isHeaded_load {fs : FileSystem} (hfaults : fs.faults = []) (p q : Path) :
    (Fragment.load fs q).IsHeaded (Fragment.load (ensureHeader fs p).1 q) := by
  have hsame : ∀ f : Fragment, f.IsHeaded f := fun f => ⟨rfl, .inl rfl⟩
  have hrewrites := rewrites_ensureHeader fs p
  generalize (ensureHeader fs p).1 = headed, (ensureHeader fs p).2 = result at hrewrites
  cases hrewrites with
  | unread | same | refused => exact hsame _
  | written hchanged _ hwrite =>
      obtain ⟨bytes, htarget, hdecode⟩ := hchanged.file
      rw [insertHeader, if_neg (mt insertHeader_eq_iff.mpr hchanged.ne)] at hwrite
      exact isHeaded_load_of_write (nodeAt?_of_target? htarget) hdecode hwrite q
  | cut _ _ hfails =>
      rw [fault?_of_nil hfaults] at hfails
      cases hfails

/-! ## What is said of cases with headers -/

namespace TrackedPattern

variable {p : TrackedPattern} {fs fs' : FileSystem}

theorem classify_reloaded (hp : Settings.isIdentifier p.leading = true)
    (h : ∀ q, (Fragment.load fs q).IsHeaded (Fragment.load fs' q)) (c : Case) :
    p.classify (c.reloaded fs') = p.classify (c.reloaded fs) := by
  have hfirst : p.isAssigned (c.reloaded fs').first.content =
      p.isAssigned (c.reloaded fs).first.content := isAssigned_headed hp (h c.first.path).content
  have hsecond : p.isAssigned (c.reloaded fs').second.content =
      p.isAssigned (c.reloaded fs).second.content := isAssigned_headed hp (h c.second.path).content
  rw [classify, classify, classifyTexts, classifyTexts, hfirst, hsecond]

theorem missingIn_reloaded (hp : Settings.isIdentifier p.leading = true)
    (h : ∀ q, (Fragment.load fs q).IsHeaded (Fragment.load fs' q)) (c : Case) :
    p.missingIn (c.reloaded fs') = p.missingIn (c.reloaded fs) := by
  have hside : ∀ q, ([Fragment.load fs' q].filter fun f => !p.isReferenced f.content).map (·.name)
      = ([Fragment.load fs q].filter fun f => !p.isReferenced f.content).map (·.name) := by
    intro q
    rw [List.filter_singleton, List.filter_singleton, isReferenced_headed hp (h q).content]
    cases p.isReferenced (Fragment.load fs q).content with
    | false => exact congrArg (fun name => [name]) (h q).name
    | true => rfl
  have hpair : ∀ f g : Fragment, [f, g] = [f] ++ [g] := fun _ _ => rfl
  simp only [missingIn, Case.fragments, Case.reloaded]
  rw [hpair, hpair (Fragment.load fs _), List.filter_append, List.filter_append, List.map_append,
    List.map_append, hside, hside]

theorem validate_reloaded (hp : Settings.isIdentifier p.leading = true)
    (h : ∀ q, (Fragment.load fs q).IsHeaded (Fragment.load fs' q)) (cases : List Case) :
    p.validate (cases.map (·.reloaded fs')) = p.validate (cases.map (·.reloaded fs)) := by
  have hissue : ∀ c : Case, p.issueOf? (c.reloaded fs') = p.issueOf? (c.reloaded fs) := by
    intro c
    rw [issueOf?, issueOf?, missingIn_reloaded hp h]
    rfl
  simp only [validate, List.length_map, List.filterMap_map, Function.comp_def, hissue]

end TrackedPattern

/-- The files after headers were put in front of some, one after the other. -/
def ensureHeaders (fs : FileSystem) (paths : List Path) : FileSystem :=
  paths.foldl (fun fs q => (ensureHeader fs q).1) fs

/-- Kinds and issues of the cases stay what they were with every further header. -/
theorem cases_ensureHeaders {p : TrackedPattern} (hp : Settings.isIdentifier p.leading = true)
    (cases : List Case) (paths : List Path) : ∀ fs : FileSystem, fs.faults = [] →
    (cases.map fun c => p.classify (c.reloaded (ensureHeaders fs paths))) =
        (cases.map fun c => p.classify (c.reloaded fs)) ∧
      p.validate (cases.map (·.reloaded (ensureHeaders fs paths))) =
        p.validate (cases.map (·.reloaded fs)) := by
  induction paths with
  | nil => exact fun fs _ => ⟨rfl, rfl⟩
  | cons q paths ih =>
      intro fs hfaults
      obtain ⟨hkinds, hissues⟩ := ih (ensureHeader fs q).1
        (List.suffix_nil.mp (hfaults ▸ faults_ensureHeader fs q))
      have hload := isHeaded_load hfaults q
      have hstep : (cases.map fun c => p.classify (c.reloaded (ensureHeader fs q).1)) =
          cases.map fun c => p.classify (c.reloaded fs) :=
        List.map_congr_left fun c _ => p.classify_reloaded hp hload c
      exact ⟨hkinds.trans hstep, hissues.trans (validate_reloaded hp hload cases)⟩

/-- **Tracked variables are found line by line.** With the prefix of valid settings, two texts
with a line feed between them mention a tracked variable iff one of them does, and assign to
one iff one of them does or a name at the end of the first is assigned to at the start of the
second. A header in front of a text changes neither answer, and headers put in front of any
files change neither the kinds of the cases nor what the validator says of them, where no write
fails halfway. -/
theorem tracked_across_lines (s : Settings) (hs : s.isValid = true) :
    let p : TrackedPattern := ⟨s.varPrefix⟩
    (∀ a b, p.isReferenced (a ++ "\n" ++ b) = true ↔
        p.isReferenced a = true ∨ p.isReferenced b = true) ∧
      (∀ a b, p.isAssigned (a ++ "\n" ++ b) = true ↔
        p.isAssigned a = true ∨ p.isAssigned b = true ∨
          p.EndsWithName a ∧ IsAssigning b.toList) ∧
      (∀ text, p.isReferenced (defaultHeader ++ text) = p.isReferenced text ∧
        p.isAssigned (defaultHeader ++ text) = p.isAssigned text) ∧
      ∀ (fs : FileSystem) (paths : List Path) (cases : List Case), fs.faults = [] →
        (cases.map fun c => p.classify (c.reloaded (ensureHeaders fs paths))) =
            (cases.map fun c => p.classify (c.reloaded fs)) ∧
          p.validate (cases.map (·.reloaded (ensureHeaders fs paths))) =
            p.validate (cases.map (·.reloaded fs)) := by
  intro p
  have hp : Settings.isIdentifier p.leading = true := Settings.isIdentifier_of_isValid hs
  refine ⟨fun a b => ?_, fun a b => ?_, fun text => ⟨isReferenced_headed hp (.inr rfl),
    isAssigned_headed hp (.inr rfl)⟩, fun fs paths cases => cases_ensureHeaders hp cases paths fs⟩
  · rw [isReferenced_iff_mentionsWord hp, isReferenced_iff_mentionsWord hp,
      isReferenced_iff_mentionsWord hp]
    exact mentionsWord_joined p a b
  · rw [isAssigned_iff_assignsWord hp, isAssigned_iff_assignsWord hp,
      isAssigned_iff_assignsWord hp]
    exact assignsWord_joined p a b

/-- A name before a line feed and an equals sign behind it make an assignment that neither
line has alone, and a comparison there makes none. -/
theorem tracked_across_lines_standard :
    ({ workers := 1 } : Settings).isValid = true ∧
      TrackedPattern.standard.EndsWithName "x++\nracyVar٣ " ∧
      TrackedPattern.standard.isAssigned "x++\nracyVar٣ " = false ∧
      TrackedPattern.standard.isAssigned "x++\nracyVar٣ \n\t= x" = true ∧
      TrackedPattern.standard.isAssigned "x++\nracyVar٣ \n\t== x" = false ∧
      ¬ IsAssigning "\t== x".toList ∧
      TrackedPattern.standard.isReferenced (defaultHeader ++ "x = racyVar1") = true := by
  have hs : ({ workers := 1 } : Settings).isValid = true := by decide
  obtain ⟨-, hassigned, hheader, -⟩ := tracked_across_lines _ hs
  have hfirst : TrackedPattern.standard.isAssigned "x++\nracyVar٣ " = false := by decide
  have hsecond : TrackedPattern.standard.isAssigned "\t= x" = false := by decide
  have hjoined : TrackedPattern.standard.isAssigned "x++\nracyVar٣ \n\t= x" = true := by decide
  have hno : TrackedPattern.standard.isAssigned "x++\nracyVar٣ \n\t== x" = false := by decide
  have hend : TrackedPattern.standard.EndsWithName "x++\nracyVar٣ " := by
    rcases (hassigned "x++\nracyVar٣ " "\t= x").mp hjoined with h | h | h
    · exact absurd (h.symm.trans hfirst) (by decide)
    · exact absurd (h.symm.trans hsecond) (by decide)
    · exact h.1
  refine ⟨hs, hend, hfirst, hjoined, hno, fun hassign => ?_, ?_⟩
  · have h := (hassigned "x++\nracyVar٣ " "\t== x").mpr (.inr (.inr ⟨hend, hassign⟩))
    exact absurd (h.symm.trans hno) (by decide)
  · exact ((hheader "x = racyVar1").1).trans (by decide)

end RaceSkeletons
