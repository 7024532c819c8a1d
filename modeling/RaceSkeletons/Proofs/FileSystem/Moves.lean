import Mathlib
import RaceSkeletons.Proofs.FileSystem.Directories

/-!
# What a rename moves

A rename takes one entry, which is no directory, from its location to another
one and leaves all other locations alone (`FileSystem.IsMove`). The directories
are the same as before, so every way to an entry that goes through directories
alone is, too.

A file system is closed when every entry lies in a directory. Renames and
writes keep it so.
-/

namespace RaceSkeletons

namespace FileSystem

variable {fs fs' : FileSystem} {source target location other : Location} {node : Node}
  {p q : Path} {name : String}

/-! ## Entries and nodes -/

theorem exists_entry_of_nodeAt? (hne : location ≠ []) (h : fs.nodeAt? location = some node) :
    ∃ entry ∈ fs.entries, entry.location = location ∧ entry.node = node := by
  rw [nodeAt?_of_ne_nil fs hne] at h
  obtain ⟨entry, hfind, hnode⟩ := Option.map_eq_some_iff.mp h
  exact ⟨entry, List.mem_of_find?_eq_some hfind, by simpa using List.find?_some hfind, hnode⟩

theorem WellFormed.nodeAt?_of_mem (hwf : fs.WellFormed) {entry : Entry} (h : entry ∈ fs.entries)
    (hne : entry.location ≠ []) : fs.nodeAt? entry.location = some entry.node := by
  rw [nodeAt?_of_ne_nil fs hne]
  cases hfind : fs.entries.find? fun e => e.location = entry.location with
  | none => exact absurd (List.find?_eq_none.mp hfind entry h) (by simp)
  | some other =>
      have hother : other.location = entry.location := by simpa using List.find?_some hfind
      have heq : other = entry :=
        List.inj_on_of_nodup_map hwf.distinct (List.mem_of_find?_eq_some hfind) h hother
      rw [heq]
      rfl

/-- The entries of a directory are the nodes right below it. -/
theorem WellFormed.mem_children (hwf : fs.WellFormed) :
    (name, node) ∈ fs.children location ↔ fs.nodeAt? (location ++ [name]) = some node := by
  have hne : location ++ [name] ≠ [] := List.append_ne_nil_of_right_ne_nil _ (List.cons_ne_nil _ _)
  rw [children, List.mem_filterMap]
  constructor
  · rintro ⟨entry, hentry, hchild⟩
    obtain ⟨_, hname, heq⟩ := Option.map_eq_some_iff.mp hchild
    obtain ⟨rfl, rfl⟩ := Prod.mk.inj heq
    have hlocation := childName?_eq_some_iff.mp hname
    rw [← hlocation] at hne ⊢
    exact hwf.nodeAt?_of_mem hentry hne
  · intro h
    obtain ⟨entry, hentry, hlocation, rfl⟩ := exists_entry_of_nodeAt? hne h
    refine ⟨entry, hentry, ?_⟩
    rw [childName?_eq_some_iff.mpr hlocation]
    rfl

/-! ## Closed file systems -/

/-- Every entry lies in a directory. -/
def Closed (fs : FileSystem) : Prop :=
  ∀ entry ∈ fs.entries, fs.isDirAt entry.location.dropLast = true

instance (fs : FileSystem) : Decidable fs.Closed :=
  inferInstanceAs (Decidable (∀ _ ∈ _, _))

theorem Closed.isDirAt (h : fs.Closed) (hnode : fs.nodeAt? (location ++ [name]) ≠ none) :
    fs.isDirAt location = true := by
  obtain ⟨node, hnode⟩ := Option.ne_none_iff_exists'.mp hnode
  have hne : location ++ [name] ≠ [] := List.append_ne_nil_of_right_ne_nil _ (List.cons_ne_nil _ _)
  obtain ⟨entry, hentry, hlocation, -⟩ := exists_entry_of_nodeAt? hne hnode
  have hdir := h entry hentry
  rw [hlocation, List.dropLast_concat] at hdir
  exact hdir

theorem closed_of_isDirAt (h : ∀ location name, fs.nodeAt? (location ++ [name]) ≠ none →
    fs.isDirAt location = true) : fs.Closed := by
  intro entry hentry
  rcases List.eq_nil_or_concat entry.location with hnil | ⟨location, name, hlocation⟩
  · rw [hnil]
    rfl
  · rw [List.concat_eq_append] at hlocation
    rw [hlocation, List.dropLast_concat]
    refine h location name fun hnone => not_mem_locations hnone ?_
    exact List.mem_map.mpr ⟨entry, hentry, hlocation⟩

theorem Closed.isDirAt_dropLast (h : fs.Closed) (hdir : fs.isDirAt location = true) :
    fs.isDirAt location.dropLast = true := by
  rcases List.eq_nil_or_concat location with rfl | ⟨around, name, rfl⟩
  · exact hdir
  · rw [List.concat_eq_append] at hdir ⊢
    rw [List.dropLast_concat]
    have hnode : fs.nodeAt? (around ++ [name]) ≠ none := by
      rw [beq_iff_eq.mp hdir]
      exact nofun
    exact h.isDirAt hnode

/-! ## Moves -/

/-- `fs'` is `fs` with the node at `source` moved to `target`. -/
structure IsMove (fs fs' : FileSystem) (source target : Location) (node : Node) : Prop where
  nodeAt? : ∀ other, fs'.nodeAt? other =
    if other = target then some node else if other = source then none else fs.nodeAt? other
  atSource : fs.nodeAt? source = some node
  noDir : node ≠ .dir
  overNoDir : fs.nodeAt? target ≠ some .dir
  terms : fs'.toTerms = fs.toTerms

theorem IsMove.workingDir (h : IsMove fs fs' source target node) :
    fs'.workingDir = fs.workingDir :=
  congrArg Terms.workingDir h.terms

theorem nodeAt?_removeAt (hne : location ≠ []) :
    (fs.removeAt location).nodeAt? other =
      if other = location then none else fs.nodeAt? other := by
  by_cases hother : other = []
  · rw [hother, if_neg hne.symm, nodeAt?_nil, nodeAt?_nil]
  · rw [nodeAt?_of_ne_nil _ hother, nodeAt?_of_ne_nil fs hother, removeAt, List.find?_filter]
    by_cases heq : other = location
    · rw [if_pos heq, heq, List.find?_eq_none.mpr, Option.map_none]
      simp
    · rw [if_neg heq]
      congr 2
      funext entry
      by_cases hentry : entry.location = other
      · simp [hentry, heq]
      · simp [hentry]

theorem nodeAt?_relocate (hsource : fs.nodeAt? source = some node) (hnode : node ≠ .dir)
    (htarget : fs.nodeAt? target = none) :
    (fs.relocate source target).nodeAt? other =
      if other = target then some node else if other = source then none else fs.nodeAt? other := by
  have hne : source ≠ [] := by
    rintro rfl
    rw [nodeAt?_nil] at hsource
    exact hnode (Option.some.inj hsource).symm
  by_cases hother : other = []
  · rw [hother, if_neg (ne_nil_of_none htarget).symm, if_neg hne.symm, nodeAt?_nil, nodeAt?_nil]
  · have hfresh : ∀ entry ∈ fs.entries, entry.location ≠ target := fun entry hentry heq =>
      not_mem_locations htarget (List.mem_map.mpr ⟨entry, hentry, heq⟩)
    have hfind : (fs.relocate source target).nodeAt? other =
        (fs.entries.find? fun entry =>
          (if entry.location = source then target else entry.location) = other).map (·.node) := by
      rw [nodeAt?_of_ne_nil _ hother, relocate, List.find?_map, Option.map_map]
      have hlocation : ∀ entry : Entry,
          (if entry.location = source then { entry with location := target } else entry).location =
            if entry.location = source then target else entry.location := by
        intro entry
        split <;> rfl
      simp only [Function.comp_def, hlocation]
      congr 1
      funext entry
      split <;> rfl
    rw [hfind]
    by_cases heq : other = target
    · have hpred : ∀ entry ∈ fs.entries, decide ((if entry.location = source then target
          else entry.location) = other) = decide (entry.location = source) := by
        intro entry hentry
        subst heq
        by_cases hentrySource : entry.location = source
        · simp [hentrySource]
        · simp [hentrySource, hfresh entry hentry]
      rw [if_pos heq, List.find?_congr hpred, ← nodeAt?_of_ne_nil fs hne, hsource]
    · rw [if_neg heq]
      by_cases hother' : other = source
      · rw [if_pos hother', List.find?_eq_none.mpr, Option.map_none]
        intro entry _
        subst hother'
        by_cases hentrySource : entry.location = other
        · simp [hentrySource, Ne.symm heq]
        · simp [hentrySource]
      · have hpred : ∀ entry ∈ fs.entries, decide ((if entry.location = source then target
            else entry.location) = other) = decide (entry.location = other) := by
          intro entry _
          by_cases hentrySource : entry.location = source
          · simp [hentrySource, Ne.symm heq, Ne.symm hother']
          · simp [hentrySource]
        rw [if_neg hother', List.find?_congr hpred, ← nodeAt?_of_ne_nil fs hother]

theorem isMove_relocate (hsource : fs.nodeAt? source = some node) (hnode : node ≠ .dir)
    (htarget : fs.nodeAt? target = none) :
    IsMove fs (fs.relocate source target) source target node where
  nodeAt? _ := nodeAt?_relocate hsource hnode htarget
  atSource := hsource
  noDir := hnode
  overNoDir := by
    rw [htarget]
    exact nofun
  terms := rfl

theorem childName?_concat (around : Location) (node : Node) :
    childName? around ⟨location ++ [name], node⟩ =
      if around = location then some name else none := by
  refine Option.ext fun other => ?_
  rw [childName?_eq_some_iff]
  constructor
  · intro h
    obtain ⟨rfl, hlast⟩ := List.append_inj' h rfl
    rw [if_pos rfl, List.singleton_inj.mp hlast]
  · intro h
    split at h
    · next heq => rw [heq, Option.some.inj h]
    · cases h

/-- An entry that gets another name keeps its place among the entries of its
directory. -/
theorem children_relocate (fs : FileSystem) (location around : Location) (name other : String) :
    (fs.relocate (location ++ [name]) (location ++ [other])).children around =
      (fs.children around).map fun child =>
        if around = location ∧ child.1 = name then (other, child.2) else child := by
  rw [children, children, relocate, List.filterMap_map, List.map_filterMap]
  refine List.filterMap_congr fun entry _ => ?_
  obtain ⟨place, node⟩ := entry
  rw [Function.comp_apply]
  by_cases hplace : place = location ++ [name]
  · subst hplace
    rw [if_pos rfl, childName?_concat, childName?_concat]
    by_cases haround : around = location
    · simp [haround]
    · simp [haround]
  · rw [if_neg hplace]
    cases hchild : childName? around ⟨place, node⟩ with
    | none => rfl
    | some child =>
        have hlocation : place = around ++ [child] := childName?_eq_some_iff.mp hchild
        have hother : ¬ (around = location ∧ child = name) := by
          rintro ⟨rfl, rfl⟩
          exact hplace hlocation
        simp [hother]

/-- A rename that succeeds moves the entry, unless it stays where it is. -/
theorem isMove_of_rename (h : fs.rename p q = .ok fs') :
    ∃ source node target found, fs.locate false p = .ok ⟨source, some node⟩ ∧
      fs.locate false q = .ok ⟨target, found⟩ ∧ found ≠ some .dir ∧
      (node ≠ .dir → source = target ∧ fs' = fs ∨
        source ≠ target ∧ IsMove fs fs' source target node) := by
  rw [rename] at h
  split at h
  · cases h
  · cases h
  · next source node hp =>
      have hsource : fs.nodeAt? source = some node := (node_eq_of_locate hp).symm
      split at h
      · cases h
      · next target hq =>
          cases h
          have htarget : fs.nodeAt? target = none := (node_eq_of_locate hq).symm
          refine ⟨source, node, target, none, hp, hq, by simp, fun hnode => .inr ⟨?_, ?_⟩⟩
          · rintro rfl
            rw [htarget] at hsource
            cases hsource
          · exact isMove_relocate hsource hnode htarget
      · cases h
      · next target found hfound hq =>
          refine ⟨source, node, target, some found, hp, hq, ?_, fun hnode => ?_⟩
          · rintro heq
            exact hfound (Option.some.inj heq)
          · have htarget : fs.nodeAt? target = some found := (node_eq_of_locate hq).symm
            have hne : target ≠ [] := by
              rintro rfl
              rw [nodeAt?_nil] at htarget
              exact hfound (Option.some.inj htarget).symm
            split at h
            · next heq =>
                cases h
                exact .inl ⟨heq, rfl⟩
            · next hdiffer =>
                cases h
                refine .inr ⟨hdiffer, ?_⟩
                have hmove : IsMove (fs.removeAt target)
                    ((fs.removeAt target).relocate source target) source target node := by
                  refine isMove_relocate ?_ hnode ?_
                  · rw [nodeAt?_removeAt hne, if_neg hdiffer, hsource]
                  · rw [nodeAt?_removeAt hne, if_pos rfl]
                refine ⟨fun other => ?_, hsource, hnode, ?_, rfl⟩
                · rw [hmove.nodeAt?, nodeAt?_removeAt hne]
                  by_cases heq : other = target
                  · rw [if_pos heq, if_pos heq]
                  · rw [if_neg heq, if_neg heq, if_neg heq]
                · rw [htarget]
                  exact fun heq => hfound (Option.some.inj heq)

namespace IsMove

variable (h : IsMove fs fs' source target node)

include h

theorem atTarget : fs'.nodeAt? target = some node := by
  rw [h.nodeAt?, if_pos rfl]

theorem isDirAt : fs'.isDirAt location = fs.isDirAt location := by
  rw [FileSystem.isDirAt, FileSystem.isDirAt, h.nodeAt?]
  split
  · next heq =>
      rw [heq, beq_eq_false_iff_ne.mpr h.overNoDir]
      exact beq_eq_false_iff_ne.mpr fun heq => h.noDir (Option.some.inj heq)
  · split
    · next heq =>
        rw [heq, h.atSource]
        exact (beq_eq_false_iff_ne.mpr fun heq => h.noDir (Option.some.inj heq)).symm
    · rfl

theorem nodeAt?_of_ne (htarget : location ≠ target) (hsource : location ≠ source) :
    fs'.nodeAt? location = fs.nodeAt? location := by
  rw [h.nodeAt?, if_neg htarget, if_neg hsource]

/-- A move within a directory leaves a closed file system closed. -/
theorem closed (hclosed : fs.Closed) {around : Location} (htarget : target = around ++ [name])
    (hdir : fs.isDirAt around = true) : fs'.Closed := by
  refine closed_of_isDirAt fun location other hnode => ?_
  rw [h.isDirAt]
  rw [h.nodeAt?] at hnode
  split at hnode
  · next heq =>
      rw [htarget] at heq
      rw [(List.append_inj' heq rfl).1]
      exact hdir
  · split at hnode
    · exact absurd rfl hnode
    · exact hclosed.isDirAt hnode

end IsMove

end FileSystem

end RaceSkeletons
