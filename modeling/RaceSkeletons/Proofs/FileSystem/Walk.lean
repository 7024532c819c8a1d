import Mathlib.Data.List.Perm.Subperm
import Mathlib.Data.List.ProdSigma
import RaceSkeletons.FileSystem.Walk
import RaceSkeletons.Proofs.FileSystem.Moves

/-!
# What a walk meets

An entry lies under a root if it can be come to from there: down through directories
that can be listed, links to directories among them, but not through a link back to a
directory it is in (`FileSystem.LiesUnder`). A walk meets exactly the regular files
that lie under its root, whatever the order (`FileSystem.WellFormed.mem_walk_iff`).
Most of their paths lead to them. A path that is too long leads to nothing, but the
walk goes by what a directory lists (`FileSystem.LiesUnder.isFile_or`).

The walk is limited in depth, but the limit is never reached. On the way down,
each directory is told by itself and the last directory before it that a link led
to, or the root: between two links the way only gets longer, and no link leads to
a directory twice (`FileSystem.LiesUnder.length_lt`).
-/

namespace RaceSkeletons

open RaceSkeletons.Path (IsEntryName)

def Node.isLink : Node → Bool
  | .link _ => true
  | _ => false

theorem Node.isLink_iff {node : Node} : node.isLink = true ↔ ∃ target, node = .link target := by
  cases node <;> simp [isLink]

namespace FileSystem

variable {fs : FileSystem} {root start p dir : Path} {place location : Location}
  {node found : Node} {name : String} {order : EntryOrder} {trail : List Location}
  {ways : List (Path × Location)} {depth : Nat}

/-! ## One entry -/

/-- Whether a walk that finds a node at a path meets a regular file there. Links are
followed; what else stands there is what it is. -/
def ShowsFile (fs : FileSystem) (p : Path) (node : Node) : Prop :=
  node.isRegular = true ∨ node.isLink = true ∧ fs.isFile p = true

theorem visitNode_of_not_isLink (h : node.isLink = false) (ways : List (Path × Location))
    (p : Path) : fs.visitNode ways p node = .ok node := by
  cases node with
  | link target => cases h
  | _ => rfl

theorem showsFile_iff_visitNode (ways : List (Path × Location)) :
    fs.ShowsFile p node ↔
      ∃ found, fs.visitNode ways p node = .ok found ∧ found.isRegular = true := by
  by_cases hlink : node.isLink = true
  · obtain ⟨target, rfl⟩ := Node.isLink_iff.mp hlink
    rw [ShowsFile, isFile_iff, visitNode]
    constructor
    · rintro (hregular | ⟨-, location, found, htarget, hregular⟩)
      · cases hregular
      · refine ⟨found, ?_, hregular⟩
        rw [htarget]
        cases found with
        | dir => cases hregular
        | _ => rfl
    · rintro ⟨found, hvisit, hregular⟩
      refine .inr ⟨rfl, ?_⟩
      split at hvisit
      · cases hvisit
      · split at hvisit
        · cases hvisit
        · split at hvisit <;> cases hvisit
          cases hregular
      · next location _ _ htarget =>
          cases hvisit
          exact ⟨location, found, htarget, hregular⟩
  · rw [visitNode_of_not_isLink (by simpa using hlink) ways p]
    simp [ShowsFile, hlink]

/-- A walk goes into a directory that it can list, unless a link leads back to it. -/
theorem visitNode_eq_dir_iff (hlocate : fs.locate false p = .ok ⟨place, some node⟩)
    (hlist : fs.listDir p = .ok location) :
    fs.visitNode ways p node = .ok .dir ↔
      (node.isLink = true → location ∉ ways.map (·.2)) := by
  obtain ⟨htarget, hlisted⟩ := listDir_eq_ok_iff.mp hlist
  by_cases hlink : node.isLink = true
  · obtain ⟨target, rfl⟩ := Node.isLink_iff.mp hlink
    have hlookup : fs.unlisted.lookup location = none := hlisted
    rw [visitNode, htarget]
    simp only [hlookup, hlink, true_implies, List.mem_map, not_exists, not_and]
    cases hfind : ways.find? fun way => way.2 = location with
    | none =>
        exact ⟨fun _ way hway heq => List.find?_eq_none.mp hfind way hway (decide_eq_true heq),
          fun _ => rfl⟩
    | some way =>
        have heq := List.find?_some hfind
        rw [decide_eq_true_iff] at heq
        exact ⟨nofun, fun hforward => absurd heq (hforward way (List.mem_of_find?_eq_some hfind))⟩
  · have hfalse : node.isLink = false := by simpa using hlink
    have hsame := target?_of_locate hlocate fun target heq => hlink (heq ▸ rfl)
    obtain ⟨-, rfl⟩ := Prod.mk.inj (Except.ok.inj (hsame.symm.trans htarget))
    exact ⟨fun _ hlink => absurd hlink Bool.false_ne_true,
      fun _ => visitNode_of_not_isLink hfalse ways p⟩

/-! ## Below an entry -/

theorem walkWithin_of_showsFile (h : fs.ShowsFile p node) (order : EntryOrder) (depth : Nat)
    (ways : List (Path × Location)) :
    fs.walkWithin order (depth + 1) ways p node = [.file p] := by
  obtain ⟨found, hvisit, hregular⟩ := (showsFile_iff_visitNode ways).mp h
  rw [walkWithin, hvisit]
  cases found with
  | dir => cases hregular
  | _ => simp_all

theorem walkWithin_of_listDir (hvisit : fs.visitNode ways p node = .ok .dir)
    (hlist : fs.listDir p = .ok location) (order : EntryOrder) (depth : Nat) :
    fs.walkWithin order (depth + 1) ways p node =
      .dir p :: ((fs.children location).mergeSort order).flatMap fun child =>
        fs.walkWithin order depth ((p, location) :: ways) (p.join child.1) child.2 := by
  rw [walkWithin, hvisit]
  simp only [hlist]

/-- A file of a walk is what the walk starts at, or is met below an entry of the directory
that the walk starts at. -/
theorem file_mem_walkWithin_succ :
    .file p ∈ fs.walkWithin order (depth + 1) ways start node ↔
      (p = start ∧ fs.ShowsFile start node) ∨
        ∃ location, fs.visitNode ways start node = .ok .dir ∧ fs.listDir start = .ok location ∧
          ∃ child ∈ fs.children location,
            .file p ∈ fs.walkWithin order depth ((start, location) :: ways)
              (start.join child.1) child.2 := by
  rw [walkWithin, showsFile_iff_visitNode ways]
  cases hvisit : fs.visitNode ways start node with
  | error e => simp
  | ok found =>
      by_cases hdir : found = .dir
      · subst hdir
        have hregular : Node.dir.isRegular = false := rfl
        cases hlist : fs.listDir start with
        | error e => simp [hregular]
        | ok location => simp [hregular]
      · have hvisits : .file p ∈ [if found.isRegular then Visit.file start else .special start] ↔
            p = start ∧ found.isRegular = true := by
          split <;> simp_all
        cases found with
        | dir => exact absurd rfl hdir
        | _ => simp_all

/-- What holds where a walk starts, and in every listed directory that the walk goes into
passes on to the entries, holds wherever the walk meets a file. -/
theorem WellFormed.walkWithin_induction (hwf : fs.WellFormed)
    {motive : List (Path × Location) → Path → Node → Prop}
    (hentry : ∀ ways dir outer location name node, motive ways dir outer →
      fs.visitNode ways dir outer = .ok .dir → fs.listDir dir = .ok location →
        fs.nodeAt? (location ++ [name]) = some node →
          motive ((dir, location) :: ways) (dir.join name) node)
    (hstart : motive ways start node)
    (hfile : .file p ∈ fs.walkWithin order depth ways start node) :
    ∃ ways node, motive ways p node ∧ fs.ShowsFile p node := by
  induction depth generalizing ways start node with
  | zero => cases hfile
  | succ depth ih =>
      rcases file_mem_walkWithin_succ.mp hfile with
        ⟨rfl, hshows⟩ | ⟨location, hvisit, hlist, child, hchild, hbelow⟩
      · exact ⟨ways, node, hstart, hshows⟩
      · exact ih (hentry _ _ _ _ _ _ hstart hvisit hlist (hwf.mem_children.mp hchild)) hbelow

theorem file_mem_walk_iff :
    .file p ∈ fs.walk order root ↔ ∃ place node,
      fs.locate false root = .ok ⟨place, some node⟩ ∧
        .file p ∈ fs.walkWithin order fs.walkDepth [] root node := by
  rw [walk]
  cases hlocate : fs.locate false root with
  | error e => simp
  | ok found =>
      obtain ⟨place, _ | node⟩ := found
      · simp
      · simp

theorem exists_locate_of_target? (h : fs.target? p = .ok (location, found)) :
    ∃ place node, fs.locate false p = .ok ⟨place, some node⟩ := by
  obtain ⟨hp, hleads⟩ := target?_eq_ok_iff.mp h
  obtain ⟨⟨place, node⟩, hfirst, hplace⟩ := hleads.notFollowing
  rcases hplace with heq | ⟨target, rfl⟩
  · obtain ⟨rfl, rfl⟩ := Place.mk.inj heq
    exact ⟨place, found, locate_eq_ok_iff.mpr ⟨hp, hfirst⟩⟩
  · exact ⟨place, .link target, locate_eq_ok_iff.mpr ⟨hp, hfirst⟩⟩

/-- A walk of a directory that can be listed goes over its entries. -/
theorem walk_of_listDir (h : fs.listDir root = .ok location) (order : EntryOrder) :
    fs.walk order root =
      .dir root :: ((fs.children location).mergeSort order).flatMap fun child =>
        fs.walkWithin order (fs.walkDepth - 1) [(root, location)] (root.join child.1) child.2 := by
  obtain ⟨place, node, hlocate⟩ := exists_locate_of_target? (listDir_eq_ok_iff.mp h).1
  obtain ⟨depth, hdepth⟩ : ∃ depth, fs.walkDepth = depth + 1 :=
    Nat.exists_eq_add_one_of_ne_zero (by simp [walkDepth])
  rw [walk, hlocate, hdepth]
  exact walkWithin_of_listDir ((visitNode_eq_dir_iff hlocate h).mpr fun _ => List.not_mem_nil) h
    order depth

/-! ## Entries under a root -/

/-- An entry that can be come to from a root: its path, what its directory lists it as,
and the directories it lies in, innermost first. -/
inductive LiesUnder (fs : FileSystem) (root : Path) : List Location → Path → Node → Prop where
  | root {place : Location} {node : Node} (here : fs.locate false root = .ok ⟨place, some node⟩) :
      LiesUnder fs root [] root node
  | entry {trail : List Location} {dir : Path} {outer node : Node} {location : Location}
      {name : String} (around : LiesUnder fs root trail dir outer)
      (listed : fs.listDir dir = .ok location)
      (forward : outer.isLink = true → location ∉ trail)
      (there : fs.nodeAt? (location ++ [name]) = some node) :
      LiesUnder fs root (location :: trail) (dir.join name) node

theorem WellFormed.isEntryName (hwf : fs.WellFormed)
    (h : fs.nodeAt? (location ++ [name]) = some node) : IsEntryName name :=
  hwf.isEntryName_of_children (hwf.mem_children.mpr h)

namespace LiesUnder

theorem isDirAt (h : LiesUnder fs root trail p node) :
    ∀ location ∈ trail, fs.isDirAt location = true := by
  induction h with
  | root => nofun
  | entry _ listed _ _ ih =>
      exact List.forall_mem_cons.mpr
        ⟨(opens_of_target? (listDir_eq_ok_iff.mp listed).1).isDirAt, ih⟩

theorem exists_root (h : LiesUnder fs root trail p node) :
    ∃ place top, fs.locate false root = .ok ⟨place, some top⟩ := by
  induction h with
  | root here => exact ⟨_, _, here⟩
  | entry _ _ _ _ ih => exact ih

/-- The path of an entry leads to it, or is too long. -/
theorem locate_or (h : LiesUnder fs root trail p node) (hwf : fs.WellFormed) :
    (∃ place, fs.locate false p = .ok ⟨place, some node⟩) ∨ IsOverlong p := by
  cases h with
  | root here => exact .inl ⟨_, here⟩
  | @entry _ dir _ _ location name _ listed _ there =>
      have hname := hwf.isEntryName there
      by_cases hfits : Fits (dir.join name)
      · have hopens := opens_of_target? (listDir_eq_ok_iff.mp listed).1
        exact .inl ⟨_, there ▸ hopens.locate_entry hname hfits⟩
      · exact .inr ⟨dir, name, rfl, hname, hfits⟩

theorem locate (h : LiesUnder fs root trail p node) (hwf : fs.WellFormed)
    (htarget : fs.target? p = .ok (location, found)) :
    ∃ place, fs.locate false p = .ok ⟨place, some node⟩ := by
  refine (h.locate_or hwf).resolve_right fun hlong => ?_
  obtain ⟨e, herror⟩ := hlong.target? fs
  rw [herror] at htarget
  cases htarget

/-- A file that a path leads to is what its directory shows. -/
theorem showsFile (h : LiesUnder fs root trail p node) (hwf : fs.WellFormed)
    (hfile : fs.isFile p = true) : fs.ShowsFile p node := by
  obtain ⟨location, found, htarget, hregular⟩ := isFile_iff.mp hfile
  obtain ⟨place, hlocate⟩ := h.locate hwf htarget
  by_cases hlink : node.isLink = true
  · exact .inr ⟨hlink, hfile⟩
  · have hsame := target?_of_locate hlocate fun target heq => hlink (heq ▸ rfl)
    obtain ⟨-, rfl⟩ := Prod.mk.inj (Except.ok.inj (hsame.symm.trans htarget))
    exact .inl hregular

/-- A file that a walk meets is one that its path leads to, unless the path is too
long. -/
theorem isFile_or (h : LiesUnder fs root trail p node) (hwf : fs.WellFormed)
    (hshows : fs.ShowsFile p node) : fs.isFile p = true ∨ IsOverlong p := by
  rcases hshows with hregular | ⟨-, hfile⟩
  · refine (h.locate_or hwf).imp_left fun ⟨place, hlocate⟩ => ?_
    refine isFile_iff.mpr ⟨place, node, target?_of_locate hlocate ?_, hregular⟩
    rintro target rfl
    cases hregular
  · exact .inl hfile

/-! ## The walk goes to what lies under its root -/

/-- A file that is met below an entry under the root is met from the root, if the walk
may go deep enough. -/
theorem mem_walkWithin (h : LiesUnder fs root trail p node) (hwf : fs.WellFormed)
    (order : EntryOrder) {top : Node} (hroot : fs.locate false root = .ok ⟨place, some top⟩) :
    ∃ ways, ways.map (·.2) = trail ∧ ∀ depth q,
      .file q ∈ fs.walkWithin order (depth + 1) ways p node →
        .file q ∈ fs.walkWithin order (depth + 1 + trail.length) [] root top := by
  induction h with
  | root here =>
      rw [hroot] at here
      cases here
      exact ⟨[], rfl, fun _ _ hfile => hfile⟩
  | @entry trail dir outer node location name around listed forward there ih =>
      obtain ⟨ways, rfl, hmem⟩ := ih
      refine ⟨(dir, location) :: ways, rfl, fun depth q hfile => ?_⟩
      obtain ⟨place, hlocate⟩ := around.locate hwf (listDir_eq_ok_iff.mp listed).1
      rw [List.length_cons, ← Nat.add_assoc, Nat.add_right_comm _ _ 1]
      refine hmem (depth + 1) q (file_mem_walkWithin_succ.mpr (.inr ⟨location, ?_, listed, ?_⟩))
      · exact (visitNode_eq_dir_iff hlocate listed).mpr forward
      · exact ⟨(name, node), hwf.mem_children.mpr there, hfile⟩

/-- The directories on the way down can be told apart: each by the last one up to it that
a link led to, or the root, and by itself. -/
theorem exists_marks (h : LiesUnder fs root trail p node) (hwf : fs.WellFormed) :
    ∃ marks : List (Location × Location), marks.Nodup ∧ marks.length = trail.length ∧
      (∀ mark ∈ marks, mark.1 ∈ trail ∧ mark.2 ∈ trail) ∧
      ∀ location ∈ trail.head?, ∃ start ∈ trail, ∀ mark ∈ marks, mark.1 = start →
        mark.2.length ≤ location.length := by
  induction h with
  | root => exact ⟨[], List.nodup_nil, rfl, nofun, nofun⟩
  | @entry trail dir outer node location name around listed forward there ih =>
      obtain ⟨marks, hnodup, hlength, htrail, hhead⟩ := ih
      -- a mark with a new start, or with the old one and a longer way
      suffices hstart : ∃ start ∈ location :: trail, (start, location) ∉ marks ∧
          ∀ mark ∈ marks, mark.1 = start → mark.2.length ≤ location.length by
        obtain ⟨start, hstart, hnew, hlonger⟩ := hstart
        refine ⟨(start, location) :: marks, List.nodup_cons.mpr ⟨hnew, hnodup⟩, ?_, ?_, ?_⟩
        · rw [List.length_cons, List.length_cons, hlength]
        · rw [List.forall_mem_cons]
          exact ⟨⟨hstart, List.mem_cons_self⟩, fun mark hmark =>
            (htrail mark hmark).imp (List.mem_cons_of_mem _) (List.mem_cons_of_mem _)⟩
        · rintro _ ⟨⟩
          refine ⟨start, hstart, List.forall_mem_cons.mpr ⟨fun _ => Nat.le_refl _, hlonger⟩⟩
      have hfresh : location ∉ trail → ∃ start ∈ location :: trail, (start, location) ∉ marks ∧
          ∀ mark ∈ marks, mark.1 = start → mark.2.length ≤ location.length := fun hout =>
        ⟨location, List.mem_cons_self, fun hmark => hout (htrail _ hmark).1,
          fun mark hmark heq => absurd (heq ▸ (htrail mark hmark).1) hout⟩
      cases around with
      | root => exact hfresh List.not_mem_nil
      | @entry trail dir _ _ above name _ listed' _ there' =>
          have hopens := opens_of_target? (listDir_eq_ok_iff.mp listed').1
          have hentry := location_of_entry hopens (hwf.isEntryName there')
            (listDir_eq_ok_iff.mp listed).1
          rcases hentry with rfl | ⟨target, hlocate⟩
          · obtain ⟨start, hstart, hlonger⟩ := hhead above rfl
            refine ⟨start, List.mem_cons_of_mem _ hstart, fun hmark => ?_, fun mark hmark heq => ?_⟩
            · have hle := hlonger _ hmark rfl
              simp at hle
            · exact (hlonger mark hmark heq).trans (by simp)
          · have hlink := (node_eq_of_locate hlocate).trans there'
            rw [← Option.some.inj hlink] at forward
            exact hfresh (forward rfl)

/-- The way down is shorter than a walk may go. -/
theorem length_lt (h : LiesUnder fs root trail p node) (hwf : fs.WellFormed) :
    trail.length < fs.walkDepth := by
  obtain ⟨marks, hnodup, hlength, htrail, -⟩ := h.exists_marks hwf
  have hdirs : ∀ location ∈ trail, location ∈ [] :: fs.entries.map (·.location) := by
    intro location hmem
    by_cases hne : location = []
    · exact hne ▸ List.mem_cons_self
    · obtain ⟨entry, hentry, hlocation, -⟩ :=
        exists_entry_of_nodeAt? hne (beq_iff_eq.mp (h.isDirAt location hmem))
      exact List.mem_cons_of_mem _ (List.mem_map.mpr ⟨entry, hentry, hlocation⟩)
  have hpairs : marks ⊆ ([] :: fs.entries.map (·.location)) ×ˢ
      ([] :: fs.entries.map (·.location)) := fun mark hmark =>
    List.pair_mem_product.mpr ((htrail mark hmark).imp (hdirs _) (hdirs _))
  have hle := (hnodup.subperm hpairs).length_le
  rw [List.length_product, List.length_cons, List.length_map, hlength] at hle
  calc trail.length ≤ (fs.entries.length + 1) * (fs.entries.length + 1) := hle
    _ < fs.walkDepth := Nat.mul_lt_mul'' (Nat.lt_succ_self _) (Nat.lt_succ_self _)

/-- What a walk meets from an entry under the root lies under the root. -/
theorem of_walkWithin (h : LiesUnder fs root (ways.map (·.2)) start node) (hwf : fs.WellFormed)
    (hfile : .file p ∈ fs.walkWithin order depth ways start node) :
    ∃ trail node, LiesUnder fs root trail p node ∧ fs.ShowsFile p node := by
  have hentry : ∀ ways dir outer location name node,
      LiesUnder fs root (ways.map (·.2)) dir outer → fs.visitNode ways dir outer = .ok .dir →
        fs.listDir dir = .ok location → fs.nodeAt? (location ++ [name]) = some node →
          LiesUnder fs root (((dir, location) :: ways).map (·.2)) (dir.join name) node := by
    intro ways dir outer location name node hdir hvisit hlist hnode
    obtain ⟨place, hlocate⟩ := hdir.locate hwf (listDir_eq_ok_iff.mp hlist).1
    exact .entry hdir hlist ((visitNode_eq_dir_iff hlocate hlist).mp hvisit) hnode
  obtain ⟨ways, node, hunder, hshows⟩ := hwf.walkWithin_induction hentry h hfile
  exact ⟨_, node, hunder, hshows⟩

end LiesUnder

/-- The files of a walk are the regular files that lie under its root. -/
theorem WellFormed.mem_walk_iff (hwf : fs.WellFormed) :
    .file p ∈ fs.walk order root ↔
      ∃ trail node, LiesUnder fs root trail p node ∧ fs.ShowsFile p node := by
  rw [file_mem_walk_iff]
  constructor
  · rintro ⟨place, node, hroot, hfile⟩
    have hunder : LiesUnder fs root (([] : List (Path × Location)).map (·.2)) root node :=
      .root hroot
    exact hunder.of_walkWithin hwf hfile
  · rintro ⟨trail, node, h, hshows⟩
    obtain ⟨place, top, hroot⟩ := h.exists_root
    obtain ⟨ways, -, hmem⟩ := h.mem_walkWithin hwf order hroot
    obtain ⟨depth, hdepth⟩ : ∃ depth, fs.walkDepth = depth + 1 + trail.length :=
      ⟨fs.walkDepth - trail.length - 1, by have := h.length_lt hwf; omega⟩
    refine ⟨place, top, hroot, ?_⟩
    rw [hdepth]
    exact hmem depth p (file_mem_walkWithin_succ.mpr (.inl ⟨rfl, hshows⟩))

/-- A path of a file that a walk meets leads to the file, unless it is too long. -/
theorem WellFormed.isFile_or (hwf : fs.WellFormed) (hfile : .file p ∈ fs.walk order root) :
    fs.isFile p = true ∨ IsOverlong p := by
  obtain ⟨trail, node, hunder, hshows⟩ := hwf.mem_walk_iff.mp hfile
  exact hunder.isFile_or hwf hshows

theorem WellFormed.isFile_of_target? (hwf : fs.WellFormed)
    (hfile : .file p ∈ fs.walk order root) (htarget : fs.target? p = .ok (location, node)) :
    fs.isFile p = true := by
  refine (hwf.isFile_or hfile).resolve_right fun hlong => ?_
  obtain ⟨e, herror⟩ := hlong.target? fs
  rw [herror] at htarget
  cases htarget

end FileSystem

end RaceSkeletons
