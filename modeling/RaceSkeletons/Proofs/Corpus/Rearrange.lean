import RaceSkeletons.Proofs.Corpus.Links
import RaceSkeletons.Proofs.Corpus.Rename
import RaceSkeletons.Proofs.FileSystem.Growth

/-!
# Renames that lose nothing

A rename replaces what stands at the new name. The rename pass avoids that by a
look at the new name, but the look follows links and the rename does not: a link
that leads nowhere when it is looked at is replaced. Where no such link is met
(`FileSystem.SeesTarget`), every entry is kept, and the pass amounts to a map of
locations (`FileSystem.IsRearranged`). No entry is moved twice: if another one
than the file that was listed had come to stand at its name, the file would stand
at its normal name, and that was free (`IsRearranged.location_eq_of_free`).

In a tree without links there is nothing to miss, so the pass loses nothing
(`renameFiles_loses_nothing`).
-/

namespace RaceSkeletons

open RaceSkeletons.Path (IsEntryName)

variable {fs fs' before : FileSystem} {root p dir : Path} {name extension : String}
  {location top around goal : Location} {node : Node} {moved : Location → Location}
  {order : EntryOrder}
  {gone : List Location}

namespace FileSystem

/-! ## One file -/

/-- Whether what stands where a file is to go is seen there. -/
def SeesTarget (extension : String) (fs : FileSystem) (p : Path) : Prop :=
  normalName p.fileName extension ≠ p.fileName →
    ∀ goal node, fs.locate false (normalPath extension p) = .ok ⟨goal, some node⟩ →
      fs.pathExists (normalPath extension p) = true

/-- A file is left alone, or its entry goes to a free place. -/
theorem renameFile_cases_of_seesTarget (h : SeesTarget extension fs p) :
    ((renameFile extension fs p).1 = fs ∧ (renameFile extension fs p).2.isRenamed = false) ∨
      ∃ source goal node, normalName p.fileName extension ≠ p.fileName ∧
        fs.locate false p = .ok ⟨source, some node⟩ ∧
        fs.locate false (normalPath extension p) = .ok ⟨goal, none⟩ ∧
        (renameFile extension fs p).1 = fs.relocate source goal ∧
        (renameFile extension fs p).2.isRenamed = true := by
  simp only [renameFile]
  split
  · exact .inl ⟨rfl, rfl⟩
  · next hname =>
    split
    · exact .inl ⟨rfl, rfl⟩
    · next hfree =>
      split
      · next renamed hrename =>
        rw [rename] at hrename
        split at hrename
        · cases hrename
        · cases hrename
        · next source node hsource =>
          split at hrename
          · cases hrename
          · next goal hgoal =>
            cases hrename
            exact .inr ⟨source, goal, node, hname, hsource, hgoal, rfl, rfl⟩
          · cases hrename
          · next goal found _ hgoal => exact absurd (h hname goal found hgoal) hfree
      · exact .inl ⟨rfl, rfl⟩

/-- What is no link is seen. -/
theorem pathExists_of_locate (h : fs.locate false p = .ok ⟨location, some node⟩)
    (hnode : ∀ target, node ≠ .link target) : fs.pathExists p = true := by
  obtain ⟨hpassable, hleads⟩ := locate_eq_ok_iff.mp h
  have htarget := hleads.following fun target heq => hnode target (Option.some.inj heq)
  rw [pathExists, target?_eq_ok_iff.mpr ⟨hpassable, htarget⟩]

/-- The entry of a file. -/
theorem locate_of_isFile (hname : IsEntryName name) (h : fs.isFile (dir.join name) = true) :
    ∃ around node, fs.Opens dir around ∧
      fs.locate false (dir.join name) = .ok ⟨around ++ [name], some node⟩ := by
  obtain ⟨location, file, htarget, -⟩ := isFile_iff.mp h
  obtain ⟨hpassable, hleads⟩ := target?_eq_ok_iff.mp htarget
  obtain ⟨place, hway, hend⟩ := hleads.notFollowing
  have hlocate := locate_eq_ok_iff.mpr ⟨hpassable, hway⟩
  obtain ⟨-, around, hopens, -, left, -, hlast⟩ := opens_of_locate_join hname hlocate
  obtain ⟨-, hlocation⟩ := hlast.location_of_last hname
  obtain ⟨node, hnode⟩ : ∃ node, place.node = some node := by
    rcases hend with rfl | ⟨target, htarget⟩
    · exact ⟨file, rfl⟩
    · exact ⟨.link target, htarget⟩
  refine ⟨around, node, hopens, ?_⟩
  rw [hlocate, ← hlocation, ← hnode]

/-- A normal name stands in the directory of its file. -/
theorem IsRenamed.goal_eq (h : IsRenamed before fs) (hslash : '/' ∉ extension.toList)
    (hdir : dir.text ≠ "") (hname : IsEntryName name) (hopens : before.Opens dir around)
    {found : Option Node} (hfound : found ≠ some .dir)
    (hgoal : fs.locate false (normalPath extension (dir.join name)) = .ok ⟨goal, found⟩) :
    goal = around ++ [normalName name extension] := by
  obtain ⟨beside, hbeside, hnormal⟩ := Path.withFileName_join hdir hname
  rw [normalPath, hnormal, Path.fileName_join dir hname] at hgoal
  obtain ⟨around', hopens', left, -, hlast⟩ := opens_of_locate_step
    (normalName_ne_empty name extension) (normalName_noSlash hslash hname.noSlash) hgoal
  obtain rfl := (hopens.of_isAround hbeside).unique (h.opens hopens')
  exact h.closed.location_of_last hfound hlast

/-! ## Maps of locations -/

/-- Every entry of `before` is in `fs`, at the location that `moved` gives. What is
moved is one of the entries `gone`, and goes to its normal name. -/
structure IsRearranged (extension : String) (gone : List Location) (before fs : FileSystem)
    (moved : Location → Location) : Prop where
  entries : fs.entries = before.entries.map fun e => { e with location := moved e.location }
  moves : ∀ entry ∈ before.entries, moved entry.location = entry.location ∨
    entry.location ∈ gone ∧ ∃ around name, entry.location = around ++ [name] ∧
      moved entry.location = around ++ [normalName name extension]
  isRenamed : IsRenamed before fs
  wellFormed : fs.WellFormed

/-- The number of entries that a map of locations moves. -/
def countMoved (before : FileSystem) (moved : Location → Location) : Nat :=
  before.entries.countP fun e => moved e.location ≠ e.location

namespace IsRearranged

variable (h : IsRearranged extension gone before fs moved)

theorem refl (hwf : fs.WellFormed) (hclosed : fs.Closed) :
    IsRearranged extension gone fs fs id where
  entries := (List.map_id _).symm
  moves _ _ := .inl rfl
  isRenamed := hclosed.isRenamed
  wellFormed := hwf

include h

theorem mem_of_mem {entry : Entry} (hentry : entry ∈ before.entries) :
    { entry with location := moved entry.location } ∈ fs.entries := by
  rw [h.entries]
  exact List.mem_map_of_mem hentry

theorem nodup_moved : (before.entries.map fun e => moved e.location).Nodup := by
  have hnodup := h.wellFormed.distinct
  rw [h.entries, List.map_map] at hnodup
  exact hnodup

theorem nodeAt?_moved {entry : Entry} (hentry : entry ∈ before.entries)
    (hne : moved entry.location ≠ []) :
    fs.nodeAt? (moved entry.location) = some entry.node :=
  h.wellFormed.nodeAt?_of_mem (h.mem_of_mem hentry) hne

/-- What stands in a directory stood in it before, under this name or another one. -/
theorem exists_entry (hnode : fs.nodeAt? (around ++ [name]) = some node) :
    ∃ entry ∈ before.entries, entry.node = node ∧ moved entry.location = around ++ [name] ∧
      (entry.location = around ++ [name] ∨ entry.location ∈ gone ∧
        ∃ other, entry.location = around ++ [other] ∧ name = normalName other extension) := by
  obtain ⟨entry', hentry', hlocation, hentryNode⟩ :=
    exists_entry_of_nodeAt? (List.append_ne_nil_of_right_ne_nil _ (List.cons_ne_nil _ _)) hnode
  rw [h.entries] at hentry'
  obtain ⟨entry, hentry, rfl⟩ := List.mem_map.mp hentry'
  refine ⟨entry, hentry, hentryNode, hlocation, ?_⟩
  rcases h.moves entry hentry with hstays | ⟨hgone, around', other, heq, hmoved⟩
  · exact .inl (hstays.symm.trans hlocation)
  · obtain ⟨rfl, hnames⟩ := List.append_inj' (hmoved.symm.trans hlocation) rfl
    exact .inr ⟨hgone, other, heq, (List.singleton_inj.mp hnames).symm⟩

/-- An entry that stands where a file was listed, with the normal name of the file
free, was not moved there: what was listed would stand at the normal name. -/
theorem location_eq_of_free {entry : Entry}
    (hentry : entry ∈ before.entries) (hlisted : before.nodeAt? (around ++ [name]) ≠ none)
    (hmoved : moved entry.location = around ++ [name])
    (hfree : fs.nodeAt? (around ++ [normalName name extension]) = none) :
    entry.location = around ++ [name] := by
  obtain ⟨node, hnode⟩ := Option.ne_none_iff_exists'.mp hlisted
  obtain ⟨listed, hlisted, hlocation, -⟩ :=
    exists_entry_of_nodeAt? (List.append_ne_nil_of_right_ne_nil _ (List.cons_ne_nil _ _)) hnode
  rcases h.moves listed hlisted with hstays | ⟨-, around', other, heq, hgoes⟩
  · rw [hlocation] at hstays
    have hsame : entry = listed := by
      refine List.inj_on_of_nodup_map h.nodup_moved hentry hlisted ?_
      rw [hmoved, hlocation, hstays]
    rw [hsame, hlocation]
  · rw [hlocation] at heq
    obtain ⟨rfl, hnames⟩ := List.append_inj' heq rfl
    obtain rfl := List.singleton_inj.mp hnames
    have hthere := h.nodeAt?_moved hlisted (by rw [hgoes]; simp)
    rw [hgoes, hfree] at hthere
    cases hthere

/-- One more entry is moved. -/
theorem relocate (hgone : around ++ [name] ∈ gone) (hnew : normalName name extension ≠ name)
    (hlisted : before.nodeAt? (around ++ [name]) ≠ none)
    (hnode : fs.nodeAt? (around ++ [name]) = some node)
    (hfree : fs.nodeAt? (around ++ [normalName name extension]) = none)
    (hrenamed : IsRenamed before
      (fs.relocate (around ++ [name]) (around ++ [normalName name extension])))
    (hafter : (fs.relocate (around ++ [name])
      (around ++ [normalName name extension])).WellFormed) :
    ∃ moved', IsRearranged extension gone before
        (fs.relocate (around ++ [name]) (around ++ [normalName name extension])) moved' ∧
      before.countMoved moved' = before.countMoved moved + 1 := by
  have hback : ∀ entry ∈ before.entries, moved entry.location = around ++ [name] →
      entry.location = around ++ [name] := fun entry hentry hmoved =>
    h.location_eq_of_free hentry hlisted hmoved hfree
  refine ⟨fun location => if moved location = around ++ [name] then
    around ++ [normalName name extension] else moved location, ⟨?_, ?_, hrenamed, hafter⟩, ?_⟩
  · rw [FileSystem.relocate, h.entries, List.map_map]
    refine List.map_congr_left fun entry _ => ?_
    simp only [Function.comp_apply]
    split <;> rfl
  · intro entry hentry
    by_cases hmoved : moved entry.location = around ++ [name]
    · have hlocation := hback entry hentry hmoved
      simp only [if_pos hmoved]
      exact .inr ⟨hlocation ▸ hgone, around, name, hlocation, rfl⟩
    · simp only [if_neg hmoved]
      exact h.moves entry hentry
  · obtain ⟨entry, hentry, -, hmoved, -⟩ := h.exists_entry hnode
    have hlocation := hback entry hentry hmoved
    obtain ⟨front, back, hsplit⟩ := List.append_of_mem hentry
    -- no other entry stands at the file's name now
    have hother : ∀ e ∈ front ++ back, moved e.location ≠ around ++ [name] := by
      have hnodup := h.nodup_moved
      rw [hsplit, List.map_append, List.map_cons, List.nodup_middle, ← List.map_append,
        List.nodup_cons, hmoved] at hnodup
      exact fun e he heq => hnodup.1 (List.mem_map.mpr ⟨e, he, heq⟩)
    have hsame : ∀ part : List Entry, part ⊆ front ++ back →
        (part.countP fun e => (if moved e.location = around ++ [name] then
          around ++ [normalName name extension] else moved e.location) ≠ e.location) =
        part.countP fun e => moved e.location ≠ e.location := fun part hpart =>
      List.countP_congr fun e he => by simp only [if_neg (hother e (hpart he))]
    simp only [countMoved, hsplit, List.countP_append, List.countP_cons,
      hsame front (List.subset_append_left _ _), hsame back (List.subset_append_right _ _)]
    rw [hlocation] at hmoved ⊢
    simp [hmoved, hnew, Nat.add_assoc]

/-- Renaming a file moves one more entry, if it is a rename. -/
theorem renameFile (hslash : '/' ∉ extension.toList) (hp : before.IsVisited p)
    (hgone : normalName p.fileName extension ≠ p.fileName →
      ∀ place, before.locate false p = .ok place → place.location ∈ gone)
    (hsees : SeesTarget extension fs p) :
    ∃ moved', IsRearranged extension gone before (renameFile extension fs p).1 moved' ∧
      before.countMoved moved' = before.countMoved moved +
        if (renameFile extension fs p).2.isRenamed then 1 else 0 := by
  have hrenamed := h.isRenamed.renameFile hslash hp
  have hafter := h.wellFormed.renameFile extension p
  obtain ⟨hfile, dir, name, rfl, hdir, hname⟩ := hp
  rcases renameFile_cases_of_seesTarget hsees with
    ⟨hsame, hstep⟩ | ⟨source, goal, node, hnew, hsource, hgoal, hmove, hstep⟩
  · refine ⟨moved, ?_, ?_⟩
    · rw [hsame]
      exact h
    · rw [hstep, if_neg Bool.false_ne_true, Nat.add_zero]
  · obtain ⟨around, hopens, rfl, -, -⟩ := h.isRenamed.source hfile hname hsource
    obtain ⟨around', found, hopens', hlisted⟩ := locate_of_isFile hname hfile
    obtain rfl := (h.isRenamed.opens hopens).unique hopens'
    have hnone : (none : Option Node) ≠ some .dir := nofun
    obtain rfl := h.isRenamed.goal_eq hslash hdir hname hopens' hnone hgoal
    have hgone := hgone hnew _ hlisted
    rw [Path.fileName_join dir hname] at hnew
    rw [hmove] at hrenamed hafter ⊢
    rw [hstep, if_pos rfl]
    have hnode : fs.nodeAt? (around ++ [name]) = some node := (node_eq_of_locate hsource).symm
    have hfree : fs.nodeAt? (around ++ [normalName name extension]) = none :=
      (node_eq_of_locate hgoal).symm
    have hthere : before.nodeAt? (around ++ [name]) ≠ none := by
      rw [← node_eq_of_locate hlisted]
      exact nofun
    exact h.relocate hgone hnew hthere hnode hfree hrenamed hafter

/-- Renaming files moves as many entries as there are renames. -/
theorem renameEach (hslash : '/' ∉ extension.toList) {files : List Path}
    (hfiles : ∀ p ∈ files, before.IsVisited p)
    (hgone : ∀ p ∈ files, normalName p.fileName extension ≠ p.fileName →
      ∀ place, before.locate false p = .ok place → place.location ∈ gone)
    (hsees : ∀ p ∈ files, ∀ fs moved, IsRearranged extension gone before fs moved →
      SeesTarget extension fs p) :
    ∃ moved', IsRearranged extension gone before (renameEach extension fs files).1 moved' ∧
      before.countMoved moved' = before.countMoved moved +
        (renameEach extension fs files).2.countP RenameStep.isRenamed := by
  induction files generalizing fs moved with
  | nil => exact ⟨moved, h, rfl⟩
  | cons p rest ih =>
      rw [List.forall_mem_cons] at hfiles hgone hsees
      obtain ⟨moved', h', hcount⟩ :=
        h.renameFile hslash hfiles.1 hgone.1 (hsees.1 fs moved h)
      obtain ⟨moved'', h'', hcount'⟩ := ih h' hfiles.2 hgone.2 hsees.2
      rw [RaceSkeletons.renameEach]
      refine ⟨moved'', h'', ?_⟩
      rw [hcount', hcount, List.countP_cons]
      omega

/-- Every directory has the nodes it had, in the same order. -/
theorem children_nodes (location : Location) :
    (fs.children location).map (·.2) = (before.children location).map (·.2) := by
  rw [children, children, h.entries, List.filterMap_map, List.map_filterMap, List.map_filterMap]
  refine List.filterMap_congr fun entry hentry => ?_
  rw [Function.comp_apply]
  rcases h.moves entry hentry with hstays | ⟨-, around, name, heq, hmoved⟩
  · rw [hstays]
  · obtain ⟨place, node⟩ := entry
    obtain rfl : place = around ++ [name] := heq
    rw [hmoved, childName?_concat, childName?_concat]
    split <;> rfl

/-- A link that stands where a file is to go stood there before, or in the same
directory under a name that it has lost. -/
theorem link_of_goal (hwf : before.WellFormed) (hslash : '/' ∉ extension.toList)
    (hp : before.IsVisited p) {target : Path}
    (hlocate : fs.locate false (normalPath extension p) = .ok ⟨goal, some (.link target)⟩) :
    ∃ around node other,
      before.locate false p = .ok ⟨around ++ [p.fileName], some node⟩ ∧
        goal = around ++ [normalName p.fileName extension] ∧
        before.nodeAt? (around ++ [other]) = some (.link target) ∧
        (other = normalName p.fileName extension ∨ around ++ [other] ∈ gone ∧
          normalName other extension = normalName p.fileName extension) := by
  obtain ⟨hfile, dir, name, rfl, hdir, hname⟩ := hp
  obtain ⟨around, node, hopens, hlisted⟩ := locate_of_isFile hname hfile
  have hnoDir : some (Node.link target) ≠ some .dir := nofun
  obtain rfl := h.isRenamed.goal_eq hslash hdir hname hopens hnoDir hlocate
  rw [Path.fileName_join dir hname]
  obtain ⟨entry, hentry, hlink, -, hsource⟩ := h.exists_entry (node_eq_of_locate hlocate).symm
  have hbefore : ∀ other, entry.location = around ++ [other] →
      before.nodeAt? (around ++ [other]) = some (.link target) := by
    intro other hlocation
    rw [← hlocation, ← hlink]
    exact hwf.nodeAt?_of_mem hentry (by simp [hlocation])
  rcases hsource with hstays | ⟨hgone, other, hlocation, hsame⟩
  · exact ⟨around, node, _, hlisted, rfl, hbefore _ hstays, .inl rfl⟩
  · exact ⟨around, node, other, hlisted, rfl, hbefore other hlocation,
      .inr ⟨hlocation ▸ hgone, hsame.symm⟩⟩

end IsRearranged

/-! ## All files below a root -/

/-- The entries of the files below a root whose names are not their normal ones. -/
def misnamed (fs : FileSystem) (root : Path) (extension : String) : List Location :=
  (((fs.walk byName root).filterMap Visit.file?).filter fun p =>
      normalName p.fileName extension ≠ p.fileName).filterMap fun p =>
    match fs.locate false p with
    | .error _ => none
    | .ok place => some place.location

theorem mem_misnamed_iff : location ∈ fs.misnamed root extension ↔
    ∃ p place, .file p ∈ fs.walk byName root ∧ normalName p.fileName extension ≠ p.fileName ∧
      fs.locate false p = .ok place ∧ place.location = location := by
  rw [misnamed, List.mem_filterMap]
  constructor
  · rintro ⟨p, hp, hlocation⟩
    obtain ⟨hfile, hname⟩ := List.mem_filter.mp hp
    split at hlocation
    · cases hlocation
    · next place hlocate =>
      exact ⟨p, place, mem_files_walk.mp hfile, of_decide_eq_true hname, hlocate,
        Option.some.inj hlocation⟩
  · rintro ⟨p, place, hfile, hname, hlocate, hlocation⟩
    refine ⟨p, List.mem_filter.mpr ⟨mem_files_walk.mpr hfile, decide_eq_true hname⟩, ?_⟩
    rw [hlocate]
    exact congrArg some hlocation

/-- The pass rearranges the entries, if it always sees what stands where a file is to
go. -/
theorem WellFormed.isRearranged_renameFiles (hwf : fs.WellFormed) (hclosed : fs.Closed)
    (hslash : '/' ∉ extension.toList) (hroot : fs.isDir root = true)
    (hsees : ∀ p fs' moved, .file p ∈ fs.walk byName root → fs.IsVisited p →
      IsRearranged extension (fs.misnamed root extension) fs fs' moved →
        SeesTarget extension fs' p) :
    ∃ moved, IsRearranged extension (fs.misnamed root extension) fs
        (renameFiles fs root extension).1 moved ∧
      (renameFiles fs root extension).2.count = fs.countMoved moved := by
  have hvisited : ∀ p ∈ fs.filesInReach root, fs.IsVisited p :=
    fun p hp => hwf.isVisited_of_mem hroot hp
  have hfirst : IsRearranged extension (fs.misnamed root extension) fs fs id :=
    .refl hwf hclosed
  obtain ⟨moved, h, hcount⟩ := hfirst.renameEach hslash hvisited
    (fun p hp hname place hlocate =>
      mem_misnamed_iff.mpr ⟨p, place, (mem_filesInReach.mp hp).1, hname, hlocate, rfl⟩)
    fun p hp fs' moved => hsees p fs' moved (mem_filesInReach.mp hp).1 (hvisited p hp)
  refine ⟨moved, (hwf.renameFiles_eq root extension).1 ▸ h, ?_⟩
  rw [hwf.count_renameFiles, hcount]
  simp [countMoved]

/-! ## Trees without links -/

/-- The entry of a file in a tree without links. -/
theorem IsTree.locate_of_walk (h : IsTree fs root top) (hp : .file p ∈ fs.walk order root)
    {place : Place} (hlocate : fs.locate false p = .ok place) :
    ∃ names name, p = (root.below names).join name ∧ HasFile fs root top names name ∧
      place.location = top ++ names ++ [name] := by
  have hisFile := (h.wellFormed.isFile_or hp).resolve_right fun hlong => by
    obtain ⟨e, herror⟩ := hlong.locate fs false
    rw [herror] at hlocate
    cases hlocate
  obtain ⟨names, name, rfl, hfile⟩ := h.mem_walk_iff.mp ⟨hp, hisFile⟩
  obtain ⟨-, around, hopens, -, left, -, hlast⟩ := opens_of_locate_join hfile.isName hlocate
  obtain rfl := hopens.unique (h.opens hfile.entered)
  exact ⟨names, name, rfl, hfile, (hlast.location_of_last hfile.isName).2⟩

end FileSystem

open FileSystem

/-- In a tree without links the rename pass loses nothing. Every entry is kept, with
what it holds, and no two come to the same location; the only ones that move are files,
each to the normal name in its directory, and the count is the number of them. Every
directory stays, and holds what it held. -/
theorem renameFiles_loses_nothing {top : Location} (h : IsTree fs root top)
    (hclosed : fs.Closed) (hext : Settings.isBareExtension extension = true) :
    ∃ moved : Location → Location,
      (renameFiles fs root extension).1.entries =
          fs.entries.map (fun e => { e with location := moved e.location }) ∧
        ((renameFiles fs root extension).1.entries.map (·.location)).Nodup ∧
        (∀ entry ∈ fs.entries, moved entry.location = entry.location ∨
          ∃ names name, HasFile fs root top names name ∧
            entry.location = top ++ names ++ [name] ∧
            moved entry.location = top ++ names ++ [normalName name extension]) ∧
        (∀ location, (renameFiles fs root extension).1.isDirAt location = fs.isDirAt location ∧
          ((renameFiles fs root extension).1.children location).map (·.2) =
            (fs.children location).map (·.2)) ∧
        (renameFiles fs root extension).2.count =
          fs.entries.countP fun e => moved e.location ≠ e.location := by
  have hslash := noSlash_of_isBareExtension hext
  have hroot := isDir_iff.mpr ⟨top, h.root⟩
  have hsees : ∀ p fs' moved, .file p ∈ fs.walk byName root → fs.IsVisited p →
      IsRearranged extension (fs.misnamed root extension) fs fs' moved →
        SeesTarget extension fs' p := by
    intro p fs' moved hp hvisited hmoved hname goal node hlocate
    refine pathExists_of_locate hlocate ?_
    rintro target rfl
    obtain ⟨around, found, other, hlisted, -, hlink, -⟩ :=
      hmoved.link_of_goal h.wellFormed hslash hvisited hlocate
    obtain ⟨names, name, -, -, hplace⟩ := h.locate_of_walk hp hlisted
    obtain ⟨rfl, -⟩ := List.append_inj' hplace rfl
    exact h.noLink_child names other target hlink
  obtain ⟨moved, hmoved, hcount⟩ :=
    h.wellFormed.isRearranged_renameFiles hclosed hslash hroot hsees
  refine ⟨moved, hmoved.entries, hmoved.wellFormed.distinct, fun entry hentry => ?_,
    fun location => ⟨hmoved.isRenamed.isDirAt location, hmoved.children_nodes location⟩, hcount⟩
  refine (hmoved.moves entry hentry).imp_right ?_
  rintro ⟨hgone, around, name, hlocation, hgoes⟩
  obtain ⟨p, place, hp, -, hlocate, hplace⟩ := mem_misnamed_iff.mp hgone
  obtain ⟨names, name', -, hfile, hentryPlace⟩ := h.locate_of_walk hp hlocate
  rw [← hplace, hentryPlace] at hlocation
  obtain ⟨rfl, hnames⟩ := List.append_inj' hlocation rfl
  obtain rfl := List.singleton_inj.mp hnames
  exact ⟨names, name', hfile, by rw [← hplace, hentryPlace], hgoes⟩

/-- A corpus below `r` with two pairs of files that have the same normal name; one of
them has it already. -/
def crowdedFiles : FileSystem where
  entries := [⟨["r"], .dir⟩, ⟨["r", "c"], .dir⟩, ⟨["r", "c", "A_.go"], .file [1] .plain⟩,
    ⟨["r", "c", "B.go"], .file [2] .plain⟩, ⟨["r", "c", "a.go"], .file [3] .plain⟩,
    ⟨["r", "c", "b_.go"], .file [4] .plain⟩]
  workingDir := []

theorem renameFiles_loses_nothing_crowded :
    IsTree crowdedFiles ⟨"r"⟩ ["r"] ∧ crowdedFiles.Closed ∧
      Settings.isBareExtension "go" = true ∧
      ((renameFiles crowdedFiles ⟨"r"⟩ "go").1.entries.map (·.location)).Nodup ∧
      ((renameFiles crowdedFiles ⟨"r"⟩ "go").1.children ["r", "c"]).map (·.2) =
        [.file [1] .plain, .file [2] .plain, .file [3] .plain, .file [4] .plain] := by
  have htree : IsTree crowdedFiles ⟨"r"⟩ ["r"] :=
    isTree_of_entries ⟨by decide, by decide, nofun⟩ (by cbv) (by decide)
  have hclosed : crowdedFiles.Closed := by decide
  have hext : Settings.isBareExtension "go" = true := by decide
  obtain ⟨moved, -, hnodup, -, hdirs, -⟩ := renameFiles_loses_nothing htree hclosed hext
  exact ⟨htree, hclosed, hext, hnodup, (hdirs ["r", "c"]).2.trans (by decide)⟩

end RaceSkeletons
