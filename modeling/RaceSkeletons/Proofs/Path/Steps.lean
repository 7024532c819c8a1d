import RaceSkeletons.FileSystem.Basic
import RaceSkeletons.Proofs.Path.Join

/-!
# The steps of the path of an entry

What a walk through `dir.join name` meets: the names of `dir`, and then `name`
(`Path.steps_join`). Putting another name in the place of the last one keeps
the names before it, except that dots right before it are lost
(`Path.withFileName_join`). Neither depends on how the directory is spelled.
-/

namespace RaceSkeletons

namespace Path

variable {p q dir : Path} {name other : String}

/-! ## Names -/

/-- The segments of a path that are not empty. -/
def names (p : Path) : List String :=
  p.segments.filter (· ≠ "")

theorem steps_eq (p : Path) : p.steps = p.names ∨ p.steps = p.names ++ ["."] := by
  simp only [steps, names]
  split
  · exact Or.inr rfl
  · exact Or.inl rfl

theorem steps_of_getLast? (h : p.segments.getLast? ≠ some "") : p.steps = p.names := by
  simp only [steps, names]
  exact if_neg fun hlast => h hlast.2

/-- A joined path has one segment more than its directory, up to empty ones. -/
theorem segments_join (p : Path) (hslash : '/' ∉ name.toList) :
    ∃ front, (p.join name).segments = front ++ [name] ∧ front.filter (· ≠ "") = p.names ∧
      (p.text ≠ "" → front ≠ []) := by
  obtain ⟨text⟩ := p
  have hname : segments.cut name.toList = [name.toList] := cut_of_no_slash hslash
  have hslashed : ∀ {q : Path} {before : List Char}, q.text.toList = before ++ '/' :: name.toList →
      q.segments = (segments.cut before).map String.ofList ++ [name] := by
    intro q before hq
    rw [segments_of_slash hq, hname, List.map_singleton, String.ofList_toList]
  have hnone : ∀ before : List Char, (segments.cut before).map String.ofList ≠ [] := by
    intro before hnil
    exact cut_ne_nil before (List.map_eq_nil_iff.mp hnil)
  rw [join]
  split
  · next hfirst =>
      have htext : text = "" :=
        hfirst.resolve_left fun hhead => hslash (List.mem_of_head? hhead)
      subst htext
      refine ⟨[], ?_, rfl, fun hne => absurd rfl hne⟩
      rw [segments, hname, List.map_singleton, String.ofList_toList]
      rfl
  · split
    · next hlast =>
        obtain ⟨before, hbefore⟩ := List.getLast?_eq_some_iff.mp hlast
        have hjoin : (⟨text ++ name⟩ : Path).text.toList = before ++ '/' :: name.toList := by
          rw [String.toList_append, hbefore, List.append_assoc]
          rfl
        refine ⟨(segments.cut before).map String.ofList, hslashed hjoin, ?_,
          fun _ => hnone before⟩
        rw [names, segments_of_slash hbefore, List.filter_append]
        exact (List.append_nil _).symm
    · have hjoin : (⟨text ++ "/" ++ name⟩ : Path).text.toList =
          text.toList ++ '/' :: name.toList := by
        rw [String.toList_append, String.toList_append, List.append_assoc]
        rfl
      exact ⟨(segments.cut text.toList).map String.ofList, hslashed hjoin, rfl,
        fun _ => hnone text.toList⟩

theorem names_join (p : Path) (hne : name ≠ "") (hslash : '/' ∉ name.toList) :
    (p.join name).names = p.names ++ [name] := by
  obtain ⟨front, hsegments, hfront, -⟩ := segments_join p hslash
  rw [names, hsegments, List.filter_append, hfront]
  simp only [List.filter_cons, hne, ne_eq, not_false_eq_true, decide_true, if_true,
    List.filter_nil]

theorem steps_join (p : Path) (hne : name ≠ "") (hslash : '/' ∉ name.toList) :
    (p.join name).steps = p.names ++ [name] := by
  obtain ⟨front, hsegments, -, -⟩ := segments_join p hslash
  rw [steps_of_getLast?, names_join p hne hslash]
  rw [hsegments, List.getLast?_concat]
  exact fun heq => hne (Option.some.inj heq)

theorem isAbsolute_join (p : Path) (hslash : '/' ∉ name.toList) :
    (p.join name).isAbsolute = p.isAbsolute := by
  obtain ⟨text⟩ := p
  have hname : name.toList.head? ≠ some '/' := fun hhead => hslash (List.mem_of_head? hhead)
  rw [join]
  split
  · next hfirst =>
      obtain rfl : text = "" := hfirst.resolve_left hname
      exact beq_eq_false_iff_ne.mpr hname
  · next hfirst =>
      have htext : text.toList ≠ [] := fun hnil =>
        hfirst (Or.inr (String.toList_eq_nil_iff.mp hnil))
      obtain ⟨first, rest, hfirst⟩ := List.exists_cons_of_ne_nil htext
      split <;> simp only [isAbsolute, String.toList_append, hfirst] <;> rfl

theorem fileName?_join (p : Path) (h : IsEntryName name) :
    (p.join name).fileName? = some name := by
  rw [fileName?, components_join p h, List.getLast?_concat]

theorem fileName_join (p : Path) (h : IsEntryName name) : (p.join name).fileName = name := by
  rw [fileName, fileName?_join p h]
  rfl

theorem hasExtension_join (p : Path) (h : IsEntryName name) (extension : String) :
    (p.join name).hasExtension extension =
      (extensionOfName? name.toList == some extension.toList) := by
  rw [hasExtension, fileName?_join p h]

theorem join_ne_empty (p : Path) (h : IsEntryName name) : (p.join name).text ≠ "" := by
  have hlength : (p.join name).text.toList ≠ [] := by
    rw [join]
    have hname : name.toList ≠ [] := fun hnil => h.nonempty (String.toList_eq_nil_iff.mp hnil)
    split
    · exact hname
    · split <;> simp only [String.toList_append, ne_eq, List.append_eq_nil_iff, hname, and_false,
        not_false_eq_true]
  exact fun htext => hlength (String.toList_eq_nil_iff.mpr htext)

/-! ## Another name in the same directory -/

theorem isAbsolute_iff :
    p.isAbsolute = true ↔ ∃ second rest, p.segments = "" :: second :: rest := by
  obtain ⟨text⟩ := p
  rw [isAbsolute, beq_iff_eq, segments]
  cases htext : text.toList with
  | nil =>
      constructor
      · intro h
        cases h
      · rintro ⟨second, rest, h⟩
        cases h
  | cons c cs =>
      rw [List.head?_cons, Option.some_inj, segments.cut]
      by_cases hc : c = '/'
      · rw [if_pos hc]
        obtain ⟨second, rest, hcut⟩ := List.exists_cons_of_ne_nil (cut_ne_nil cs)
        rw [hcut]
        exact ⟨fun _ => ⟨_, _, rfl⟩, fun _ => hc⟩
      · rw [if_neg hc]
        obtain ⟨first, rest, hcut⟩ := List.exists_cons_of_ne_nil (cut_ne_nil cs)
        rw [hcut]
        refine ⟨fun h => absurd h hc, ?_⟩
        rintro ⟨second, more, h⟩
        have hfirst : String.ofList (c :: first) = "" := (List.cons.inj h).1
        have hlist := congrArg String.toList hfirst
        rw [String.toList_ofList] at hlist
        cases hlist

theorem segments_intercalate {kept : List String} (hne : kept ≠ [])
    (hslash : ∀ s ∈ kept, '/' ∉ s.toList) :
    (⟨String.intercalate "/" kept⟩ : Path).segments = kept := by
  rw [segments, String.toList_intercalate]
  induction kept with
  | nil => exact absurd rfl hne
  | cons first rest ih =>
      have hfirst : segments.cut first.toList = [first.toList] :=
        cut_of_no_slash (hslash first List.mem_cons_self)
      cases rest with
      | nil =>
          rw [List.map_singleton, List.intercalate_singleton, hfirst, List.map_singleton,
            String.ofList_toList]
      | cons second more =>
          have hrest := ih (List.cons_ne_nil _ _)
            fun s hs => hslash s (List.mem_cons_of_mem first hs)
          have hslashed : "/".toList.intercalate ((first :: second :: more).map String.toList) =
              first.toList ++
                '/' :: "/".toList.intercalate ((second :: more).map String.toList) := by
            rw [List.map_cons, List.map_cons, List.intercalate_cons_cons, List.append_assoc]
            rfl
          rw [hslashed, cut_append_slash, List.map_append, hrest, hfirst, List.map_singleton,
            String.ofList_toList, List.singleton_append]

theorem intercalate_cut (text : List Char) : ['/'].intercalate (segments.cut text) = text := by
  induction text with
  | nil => rfl
  | cons c rest ih =>
      rw [segments.cut]
      obtain ⟨first, more, hcut⟩ := List.exists_cons_of_ne_nil (cut_ne_nil rest)
      rw [hcut] at ih ⊢
      split
      · next hc =>
          rw [List.intercalate_cons_cons, ih, hc]
          rfl
      · cases more with
        | nil =>
            rw [List.intercalate_singleton] at ih ⊢
            rw [ih]
        | cons second more =>
            rw [List.intercalate_cons_cons] at ih ⊢
            rw [← ih]
            rfl

theorem intercalate_segments (p : Path) : String.intercalate "/" p.segments = p.text := by
  have hlist : (String.intercalate "/" p.segments).toList = p.text.toList := by
    rw [String.toList_intercalate, segments, List.map_map]
    simp only [Function.comp_def, String.toList_ofList, List.map_id']
    exact intercalate_cut p.text.toList
  exact String.toList_inj.mp hlist

/-- What stands before the last segment, without the dots at its end. -/
theorem trimSegments_append (first : String) (rest : List String) (h : IsEntryName name) :
    trimSegments (first :: rest ++ [name]) = first :: rest ++ [name] := by
  have hkeep : ¬ (name = "" ∨ name = ".") := not_or.mpr ⟨h.nonempty, h.notCurrent⟩
  rw [List.cons_append, trimSegments, List.reverse_append, List.reverse_singleton,
    List.singleton_append, List.dropWhile_cons_of_neg (by simpa using hkeep), List.reverse_cons,
    List.reverse_reverse]

theorem trimSegments_prefix (segments : List String) :
    ∃ blank, segments = trimSegments segments ++ blank ∧ ∀ s ∈ blank, s = "" ∨ s = "." := by
  cases segments with
  | nil => exact ⟨[], rfl, fun _ h => absurd h List.not_mem_nil⟩
  | cons first rest =>
      refine ⟨(rest.reverse.takeWhile fun s => s = "" ∨ s = ".").reverse, ?_, ?_⟩
      · rw [trimSegments, List.cons_append, ← List.reverse_append, List.takeWhile_append_dropWhile,
          List.reverse_reverse]
      · intro s hs
        have hblank := List.all_eq_true.mp List.all_takeWhile s (List.mem_reverse.mp hs)
        exact of_decide_eq_true hblank

/-- What is trimmed ends in a name, unless one segment is left. -/
theorem getLast_trimSegments {segments front : List String} {last : String}
    (h : trimSegments segments = front ++ [last]) (hne : front ≠ []) : last ≠ "" := by
  rintro rfl
  obtain ⟨first, more, rfl⟩ := List.exists_cons_of_ne_nil hne
  cases segments with
  | nil => cases h
  | cons head rest =>
      have htail : (rest.reverse.dropWhile fun s => s = "" ∨ s = ".").reverse = more ++ [""] :=
        (List.cons.inj h).2
      rw [List.reverse_eq_iff, List.reverse_append, List.reverse_singleton,
        List.singleton_append] at htail
      have hhead := List.head?_dropWhile_not (fun s => decide (s = "" ∨ s = ".")) rest.reverse
      rw [htail] at hhead
      cases hhead

/-- The path around another one has no slash at its end, unless it is all
slashes. -/
theorem parent?_cases (h : p.parent? = some q) :
    q = ⟨"/"⟩ ∨ q.text.toList.getLast? ≠ some '/' := by
  rw [parent?] at h
  split at h
  · cases h
  · cases h
  · dsimp only at h
    split at h
    · exact .inl (Option.some.inj h).symm
    · next hkept =>
        right
        obtain rfl := Option.some.inj h
        intro hlast
        obtain ⟨before, hbefore⟩ := List.getLast?_eq_some_iff.mp hlast
        have hsegments := segments_of_slash (show _ = before ++ '/' :: [] from hbefore)
        have hslash : ∀ s ∈ trimSegments (trimSegments p.segments).dropLast, '/' ∉ s.toList := by
          intro s hs
          obtain ⟨blank, hblank, -⟩ := trimSegments_prefix (trimSegments p.segments).dropLast
          obtain ⟨blank', hblank', -⟩ := trimSegments_prefix p.segments
          refine no_slash_of_mem_segments (p := p) ?_
          rw [hblank']
          refine List.mem_append_left _ (List.dropLast_subset _ ?_)
          rw [hblank]
          exact List.mem_append_left _ hs
        have hne : trimSegments (trimSegments p.segments).dropLast ≠ [] := by
          intro hnil
          rw [hnil] at hlast
          cases hlast
        rw [segments_intercalate hne hslash] at hsegments
        exact getLast_trimSegments hsegments
          (fun hnil => cut_ne_nil before (List.map_eq_nil_iff.mp hnil)) rfl

theorem parent?_of_front {front : List String} (h : IsEntryName name) (hne : front ≠ [])
    (hp : p.segments = front ++ [name]) :
    p.parent? = if trimSegments front = [""] then some ⟨"/"⟩
      else some ⟨String.intercalate "/" (trimSegments front)⟩ := by
  obtain ⟨first, rest, rfl⟩ := List.exists_cons_of_ne_nil hne
  have htrimmed := trimSegments_append first rest h
  rw [parent?, hp]
  split
  · next hnil =>
      rw [htrimmed] at hnil
      cases hnil
  · next hsingle =>
      rw [htrimmed] at hsingle
      have hlength := congrArg List.length hsingle
      simp at hlength
  · simp only [htrimmed, List.dropLast_concat]

/-- The path around an entry, without its dots: it is not empty, starts where
the path of the entry starts, and has the names before the last one. -/
theorem parent?_of_segments {front : List String} (h : IsEntryName name) (hne : front ≠ [])
    (hp : p.segments = front ++ [name]) :
    ∃ around, p.parent? = some around ∧ around.text ≠ "" ∧ around.isAbsolute = p.isAbsolute ∧
      ∃ k, front.filter (· ≠ "") = around.names ++ List.replicate k "." := by
  obtain ⟨first, rest, rfl⟩ := List.exists_cons_of_ne_nil hne
  obtain ⟨blank, hblank, hdots⟩ := trimSegments_prefix (first :: rest)
  have hkept : trimSegments (first :: rest) ≠ [] := List.cons_ne_nil _ _
  have hnames : ∃ k, (first :: rest).filter (· ≠ "") =
      (trimSegments (first :: rest)).filter (· ≠ "") ++ List.replicate k "." := by
    refine ⟨(blank.filter (· ≠ "")).length, ?_⟩
    have hreplicate : blank.filter (· ≠ "") =
        List.replicate (blank.filter (· ≠ "")).length "." := by
      refine List.eq_replicate_of_mem fun s hs => ?_
      obtain ⟨hmem, hs⟩ := List.mem_filter.mp hs
      exact (hdots s hmem).resolve_left (of_decide_eq_true hs)
    rw [← hreplicate, ← List.filter_append, ← hblank]
  have habsolute : p.isAbsolute = true ↔ first = "" := by
    rw [isAbsolute_iff, hp, List.cons_append]
    obtain ⟨second, more, hrest⟩ := List.exists_cons_of_ne_nil
      (List.append_ne_nil_of_right_ne_nil rest (List.cons_ne_nil name []))
    rw [hrest]
    exact ⟨fun ⟨_, _, heq⟩ => (List.cons.inj heq).1, fun heq => ⟨_, _, by rw [heq]⟩⟩
  rw [parent?_of_front h (List.cons_ne_nil first rest) hp]
  by_cases hroot : trimSegments (first :: rest) = [""]
  · have hfirst : first = "" := (List.cons.inj hroot).1
    rw [if_pos hroot]
    rw [hroot] at hnames
    refine ⟨⟨"/"⟩, rfl, by decide, ?_, hnames⟩
    rw [habsolute.mpr hfirst]
    rfl
  · have hslash : ∀ s ∈ trimSegments (first :: rest), '/' ∉ s.toList := by
      intro s hs
      refine no_slash_of_mem_segments (p := p) ?_
      rw [hp, hblank]
      exact List.mem_append_left _ (List.mem_append_left _ hs)
    have hsegments := segments_intercalate hkept hslash
    rw [if_neg hroot]
    refine ⟨_, rfl, ?_, ?_, ?_⟩
    · intro htext
      have hempty : String.intercalate "/" (trimSegments (first :: rest)) = "" := htext
      rw [hempty] at hsegments
      exact hroot hsegments.symm
    · rw [Bool.eq_iff_iff, habsolute, isAbsolute_iff, hsegments]
      refine ⟨fun ⟨_, _, heq⟩ => (List.cons.inj heq).1, fun hfirst => ?_⟩
      subst hfirst
      cases hrest : (rest.reverse.dropWhile fun s => s = "" ∨ s = ".").reverse with
      | nil => exact absurd (congrArg (List.cons "") hrest) hroot
      | cons second more => exact ⟨second, more, congrArg (List.cons "") hrest⟩
    · rw [names, hsegments]
      exact hnames

/-- Around an entry of a directory stands a path that leads to the directory:
it differs from the directory's own in dots at its end. -/
structure IsAround (around dir : Path) : Prop where
  nonempty : around.text ≠ ""
  isAbsolute : around.isAbsolute = dir.isAbsolute
  names : ∃ k, dir.names = around.names ++ List.replicate k "."

/-- Another name in the place of the last one stands in the same directory. -/
theorem withFileName_join (hdir : dir.text ≠ "") (h : IsEntryName name) :
    ∃ around, IsAround around dir ∧
      ∀ other, (dir.join name).withFileName other = around.join other := by
  obtain ⟨front, hsegments, hfront, hne⟩ := segments_join dir h.noSlash
  obtain ⟨around, hparent, htext, habsolute, hnames⟩ :=
    parent?_of_segments h (hne hdir) hsegments
  rw [hfront] at hnames
  rw [isAbsolute_join dir h.noSlash] at habsolute
  refine ⟨around, ⟨htext, habsolute, hnames⟩, fun other => ?_⟩
  rw [withFileName, fileName?_join dir h, hparent, Option.getD_some]

/-- Where the directory is an entry itself, its path has no dots to lose. -/
theorem withFileName_join_join (p : Path) {entry : String} (hentry : IsEntryName entry)
    (h : IsEntryName name) (other : String) :
    ((p.join entry).join name).withFileName other = (p.join entry).join other := by
  obtain ⟨front, hsegments, -, -⟩ := segments_join p hentry.noSlash
  have hlast : (p.join entry).text.toList.getLast? ≠ some '/' := by
    intro hslash
    obtain ⟨before, hbefore⟩ := List.getLast?_eq_some_iff.mp hslash
    have hends : (p.join entry).text.toList = before ++ '/' :: [] := hbefore
    have hblank := segments_of_slash hends
    rw [hsegments] at hblank
    have heq : entry = "" := List.singleton_inj.mp (List.append_inj_right' hblank rfl)
    exact hentry.nonempty heq
  have hjoin : ((p.join entry).join name).text.toList =
      (p.join entry).text.toList ++ '/' :: name.toList := by
    have hfirst : ¬ (name.toList.head? = some '/' ∨ (p.join entry).text = "") :=
      not_or.mpr ⟨fun hhead => h.noSlash (List.mem_of_head? hhead), join_ne_empty p hentry⟩
    rw [join, if_neg hfirst, if_neg hlast, String.toList_append, String.toList_append,
      List.append_assoc]
    rfl
  have hdir : ((p.join entry).join name).segments = (p.join entry).segments ++ [name] :=
    h.segments_of_slash hjoin
  have hparent : ((p.join entry).join name).parent? = some (p.join entry) := by
    have htrimmed : trimSegments (p.join entry).segments = (p.join entry).segments := by
      rw [hsegments]
      cases front with
      | nil => rfl
      | cons first rest => exact trimSegments_append first rest hentry
    have hentrySegment : trimSegments (p.join entry).segments ≠ [""] := by
      rw [htrimmed, hsegments]
      intro heq
      have hmem : entry ∈ front ++ [entry] := List.mem_append_right front List.mem_cons_self
      rw [heq] at hmem
      exact hentry.nonempty (List.mem_singleton.mp hmem)
    have hne : (p.join entry).segments ≠ [] := by
      rw [hsegments]
      exact List.append_ne_nil_of_right_ne_nil front (List.cons_ne_nil entry [])
    rw [parent?_of_front h hne hdir, if_neg hentrySegment, htrimmed, intercalate_segments]
  rw [withFileName, fileName?_join _ h, hparent, Option.getD_some]

end Path

end RaceSkeletons
