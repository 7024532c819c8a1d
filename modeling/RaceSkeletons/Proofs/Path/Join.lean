import RaceSkeletons.Path.Basic

/-!
# Joining paths

The path of an entry has one component more than the path of its directory,
however the directory is spelled: `a`, `a/` and `a/.` all join to a path that
ends in the entry's name (`Path.components_join`). A name that could stand in
a directory (`Path.IsEntryName`) is never taken for a dot or cut at a slash.
-/

namespace RaceSkeletons

namespace Path

/-! ## Cutting at slashes -/

/-- The name of an entry of a directory. -/
structure IsEntryName (name : String) : Prop where
  nonempty : name ≠ ""
  notCurrent : name ≠ "."
  notParent : name ≠ ".."
  noSlash : '/' ∉ name.toList

instance (name : String) : Decidable (IsEntryName name) :=
  decidable_of_iff (name ≠ "" ∧ name ≠ "." ∧ name ≠ ".." ∧ '/' ∉ name.toList)
    ⟨fun ⟨h₁, h₂, h₃, h₄⟩ => ⟨h₁, h₂, h₃, h₄⟩,
      fun h => ⟨h.nonempty, h.notCurrent, h.notParent, h.noSlash⟩⟩

theorem cut_ne_nil (text : List Char) : segments.cut text ≠ [] := by
  cases text with
  | nil => exact List.cons_ne_nil _ _
  | cons c rest =>
      rw [segments.cut]
      split
      · exact List.cons_ne_nil _ _
      · split <;> exact List.cons_ne_nil _ _

/-- The segments at both sides of a slash are cut by themselves. -/
theorem cut_append_slash (before after : List Char) :
    segments.cut (before ++ '/' :: after) = segments.cut before ++ segments.cut after := by
  induction before with
  | nil => rfl
  | cons c rest ih =>
      rw [List.cons_append, segments.cut, segments.cut, ih]
      by_cases hc : c = '/'
      · rw [if_pos hc, if_pos hc, List.cons_append]
      · rw [if_neg hc, if_neg hc]
        cases hcut : segments.cut rest with
        | nil => exact absurd hcut (cut_ne_nil rest)
        | cons first more => rfl

theorem cut_of_no_slash {text : List Char} (h : '/' ∉ text) : segments.cut text = [text] := by
  induction text with
  | nil => rfl
  | cons c rest ih =>
      have hc : '/' ≠ c := List.ne_of_not_mem_cons h
      rw [segments.cut, if_neg hc.symm, ih (List.not_mem_of_not_mem_cons h)]

theorem no_slash_of_mem_cut {text segment : List Char} (h : segment ∈ segments.cut text) :
    '/' ∉ segment := by
  induction text generalizing segment with
  | nil =>
      rw [List.mem_singleton.mp h]
      exact List.not_mem_nil
  | cons c rest ih =>
      rw [segments.cut] at h
      by_cases hc : c = '/'
      · rw [if_pos hc] at h
        rcases List.mem_cons.mp h with rfl | hmem
        · exact List.not_mem_nil
        · exact ih hmem
      · rw [if_neg hc] at h
        cases hcut : segments.cut rest with
        | nil => exact absurd hcut (cut_ne_nil rest)
        | cons first more =>
            rw [hcut] at ih h
            rcases List.mem_cons.mp h with rfl | hmem
            · exact List.not_mem_cons_of_ne_of_not_mem (Ne.symm hc) (ih List.mem_cons_self)
            · exact ih (List.mem_cons_of_mem first hmem)

theorem no_slash_of_mem_segments {p : Path} {segment : String} (h : segment ∈ p.segments) :
    '/' ∉ segment.toList := by
  obtain ⟨text, hmem, rfl⟩ := List.mem_map.mp h
  rw [String.toList_ofList]
  exact no_slash_of_mem_cut hmem

/-! ## The path of an entry -/

variable {p q : Path} {name : String}

theorem IsEntryName.componentOf? (h : IsEntryName name) :
    componentOf? name = some (.normal name) := by
  rw [Path.componentOf?, if_neg (not_or.mpr ⟨h.nonempty, h.notCurrent⟩), if_neg h.notParent]

theorem segments_of_slash {before after : List Char} (h : p.text.toList = before ++ '/' :: after) :
    p.segments =
      (segments.cut before).map String.ofList ++ (segments.cut after).map String.ofList := by
  rw [segments, h, cut_append_slash, List.map_append]

theorem IsEntryName.segments_of_slash (h : IsEntryName name) {before : List Char}
    (hp : p.text.toList = before ++ '/' :: name.toList) :
    p.segments = (segments.cut before).map String.ofList ++ [name] := by
  rw [Path.segments_of_slash hp, cut_of_no_slash h.noSlash, List.map_singleton,
    String.ofList_toList]

/-- A last segment that counts is a component more. What stands in its place
before must not count. -/
theorem components_of_segments {front blank : List String} (h : IsEntryName name)
    (hfront : front ≠ []) (hblank : blank.filterMap Path.componentOf? = [])
    (hp : p.segments = front ++ blank) (hq : q.segments = front ++ [name])
    (habsolute : q.isAbsolute = p.isAbsolute) :
    q.components = p.components ++ [.normal name] := by
  obtain ⟨first, rest, rfl⟩ := List.exists_cons_of_ne_nil hfront
  have hlast : [name].filterMap Path.componentOf? = [.normal name] := by
    rw [List.filterMap_cons, h.componentOf?, List.filterMap_nil]
  have hbody : q.segments.filterMap Path.componentOf? =
      p.segments.filterMap Path.componentOf? ++ [.normal name] := by
    rw [hp, hq, List.filterMap_append, List.filterMap_append, hblank, hlast, List.append_nil]
  have hfirst : q.segments.head? = p.segments.head? := by
    rw [hp, hq, List.cons_append, List.cons_append, List.head?_cons, List.head?_cons]
  simp only [components, hbody, habsolute, hfirst]
  split
  · rfl
  · split <;> rfl

theorem IsEntryName.components_eq (h : IsEntryName name) :
    (⟨name⟩ : Path).components = [.normal name] := by
  have hsegments : (⟨name⟩ : Path).segments = [name] := by
    rw [segments, cut_of_no_slash h.noSlash, List.map_singleton, String.ofList_toList]
  have habsolute : (⟨name⟩ : Path).isAbsolute = false := by
    refine beq_eq_false_iff_ne.mpr fun hhead => h.noSlash ?_
    exact List.mem_of_head? hhead
  have hfirst : some name ≠ some "." := fun heq => h.notCurrent (Option.some.inj heq)
  simp only [components, hsegments, habsolute, List.head?_cons, if_neg hfirst,
    List.filterMap_cons, h.componentOf?, List.filterMap_nil]
  rfl

/-- The path of an entry has the components of its directory, and its name
behind them. -/
theorem components_join (p : Path) (h : IsEntryName name) :
    (p.join name).components = p.components ++ [.normal name] := by
  rw [join]
  split
  · next hname =>
      have hp : p.text = "" := hname.resolve_left fun hhead => h.noSlash (List.mem_of_head? hhead)
      obtain ⟨text⟩ := p
      obtain rfl : text = "" := hp
      exact h.components_eq
  · next hname =>
      have hp : p.text.toList ≠ [] := fun hnil =>
        hname (Or.inr (String.toList_eq_nil_iff.mp hnil))
      split
      · next hlast =>
          obtain ⟨before, hbefore⟩ := List.getLast?_eq_some_iff.mp hlast
          have hq : (p.text ++ name).toList = before ++ '/' :: name.toList := by
            rw [String.toList_append, hbefore, List.append_assoc]
            rfl
          refine components_of_segments h ?_ rfl (segments_of_slash hbefore)
            (h.segments_of_slash hq) ?_
          · exact fun hnil => cut_ne_nil _ (List.map_eq_nil_iff.mp hnil)
          · rw [isAbsolute, isAbsolute, hq, hbefore, List.head?_append, List.head?_append]
            rfl
      · have hq : (p.text ++ "/" ++ name).toList = p.text.toList ++ '/' :: name.toList := by
          rw [String.toList_append, String.toList_append, List.append_assoc]
          rfl
        refine components_of_segments h ?_ List.filterMap_nil (List.append_nil _).symm
          (h.segments_of_slash hq) ?_
        · exact fun hnil => cut_ne_nil _ (List.map_eq_nil_iff.mp hnil)
        · obtain ⟨first, rest, hfirst⟩ := List.exists_cons_of_ne_nil hp
          rw [isAbsolute, isAbsolute, hq, hfirst]
          rfl

end Path

end RaceSkeletons
