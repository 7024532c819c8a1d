import RaceSkeletons.Proofs.FileSystem.Tree

/-!
# Where a walk can lead

A walk goes down from its root and follows links, so what it meets need not lie
below the root. The locations that it can meet are the root's, whatever can be
an entry of a directory that is met, and the ends of the links that are met
(`FileSystem.Reaches`).

What a walk meets is proved for every set of locations that is closed under
these steps (`FileSystem.Encloses`): the files of a walk lie in it, and their
paths lead into it (`FileSystem.Encloses.of_walk`).
-/

namespace RaceSkeletons

open RaceSkeletons.Path (IsEntryName)

namespace FileSystem

variable {fs : FileSystem} {within : Location → Prop} {root p dir : Path}
  {around location : Location} {name : String} {node : Node} {order : EntryOrder}
  {trail : List Location}

/-! ## Locations within reach -/

/-- The locations that a walk of a root can meet, or that can come to be met when
the files in its directories get other names. -/
inductive Reaches (fs : FileSystem) (root : Path) : Location → Prop where
  | root {location : Location} {node : Node} (leads : fs.target? root = .ok (location, node)) :
      Reaches fs root location
  /-- Any name in a directory, also one that no entry bears. -/
  | entry {dir : Location} (around : Reaches fs root dir) (isDir : fs.isDirAt dir = true)
      (name : String) : Reaches fs root (dir ++ [name])
  | link {dir location : Location} {name : String} {target : Path} {links : Nat}
      {found : Option Node} (here : Reaches fs root (dir ++ [name]))
      (node : fs.nodeAt? (dir ++ [name]) = some (.link target))
      (leads : Leads fs true links (if target.isAbsolute then [] else dir) target.steps
        ⟨location, found⟩) : Reaches fs root location

/-- The links in a set of locations lead into it. -/
def HoldsLinks (fs : FileSystem) (within : Location → Prop) : Prop :=
  ∀ dir name target links location found, within (dir ++ [name]) →
    fs.nodeAt? (dir ++ [name]) = some (.link target) →
      Leads fs true links (if target.isAbsolute then [] else dir) target.steps ⟨location, found⟩ →
        within location

/-- A set of locations that no walk of a root leaves. -/
structure Encloses (fs : FileSystem) (root : Path) (within : Location → Prop) : Prop where
  root : ∀ location node, fs.target? root = .ok (location, node) → within location
  entry : ∀ dir name, within dir → fs.isDirAt dir = true → within (dir ++ [name])
  link : fs.HoldsLinks within

theorem encloses_reaches (fs : FileSystem) (root : Path) : Encloses fs root (Reaches fs root) where
  root _ _ hroot := .root hroot
  entry _ name hdir isDir := .entry hdir isDir name
  link _ _ _ _ _ _ hhere hnode hleads := .link hhere hnode hleads

theorem encloses_all (fs : FileSystem) (root : Path) : Encloses fs root fun _ => True :=
  ⟨fun _ _ _ => trivial, fun _ _ _ _ => trivial, fun _ _ _ _ _ _ _ _ _ => trivial⟩

/-- A path leads into a set of locations, if it leads to anything. -/
def LeadsInto (fs : FileSystem) (within : Location → Prop) (p : Path) : Prop :=
  ∀ location node, fs.target? p = .ok (location, node) → within location

/-- A path of an entry in a directory of a set of locations. -/
def LiesIn (fs : FileSystem) (within : Location → Prop) (p : Path) : Prop :=
  ∃ (dir : Path) (name : String) (around : Location), p = dir.join name ∧ dir.text ≠ "" ∧
    IsEntryName name ∧ fs.Opens dir around ∧ within around

/-- The entries of a directory lead no further than links do. -/
theorem Encloses.leadsInto_join (h : Encloses fs root within) (hopens : fs.Opens dir around)
    (haround : within around) (hname : IsEntryName name) :
    fs.LeadsInto within (dir.join name) := by
  intro location node htarget
  obtain ⟨hp, hleads⟩ := target?_eq_ok_iff.mp htarget
  obtain ⟨-, around', hopens', -, left, -, hlast⟩ :=
    opens_of_locate_join hname (locate_eq_ok_iff.mpr ⟨hp, hleads⟩)
  obtain rfl := hopens.unique hopens'
  have hhere : within (around ++ [name]) := h.entry around name haround hopens.isDirAt
  cases hlast with
  | stay _ _ => exact absurd rfl hname.notCurrent
  | up _ _ => exact absurd rfl hname.notParent
  | unfollowed _ _ keep => cases keep
  | follow _ hnode _ more =>
      rw [List.append_nil] at more
      exact h.link _ _ _ _ _ _ hhere hnode more
  | enter _ _ _ more =>
      have hend : location = around ++ [name] := more.of_dots (by simp)
      rw [hend]
      exact hhere

/-! ## The files of a walk -/

/-- What lies under the root is the root itself or lies in a directory that can be met, and
its path leads to where a walk can lead. -/
theorem Encloses.of_liesUnder (h : Encloses fs root within) (hwf : fs.WellFormed)
    (hunder : LiesUnder fs root trail p node) :
    p.text ≠ "" ∧ fs.LeadsInto within p ∧ (p = root ∨ fs.LiesIn within p) := by
  induction hunder with
  | root here => exact ⟨(locate_eq_ok_iff.mp here).1.2.1, h.root, .inl rfl⟩
  | @entry _ dir _ _ location name _ listed _ there ih =>
      obtain ⟨hdir, hinto, -⟩ := ih
      have hname := hwf.isEntryName there
      have htarget := (listDir_eq_ok_iff.mp listed).1
      have hopens := opens_of_target? htarget
      have hlocation := hinto location .dir htarget
      exact ⟨Path.join_ne_empty dir hname, h.leadsInto_join hopens hlocation hname,
        .inr ⟨dir, name, location, rfl, hdir, hname, hopens, hlocation⟩⟩

/-- The same for the files of a walk. -/
theorem Encloses.of_walk (h : Encloses fs root within) (hwf : fs.WellFormed)
    (hfile : .file p ∈ fs.walk order root) :
    fs.LeadsInto within p ∧ (p = root ∨ fs.LiesIn within p) := by
  obtain ⟨trail, node, hunder, -⟩ := hwf.mem_walk_iff.mp hfile
  exact (h.of_liesUnder hwf hunder).2

/-- A file is not the root if that is a directory. -/
theorem Encloses.liesIn_of_walk (h : Encloses fs root within) (hwf : fs.WellFormed)
    (hroot : fs.isDir root = true) (hfile : .file p ∈ fs.walk order root)
    (hisFile : fs.isFile p = true) : fs.LiesIn within p := by
  refine (h.of_walk hwf hfile).2.resolve_left ?_
  rintro rfl
  obtain ⟨location, htarget⟩ := isDir_iff.mp hroot
  rw [isFile, htarget] at hisFile
  cases hisFile

/-! ## Trees without links -/

/-- Where no link lies below the root, a walk stays below it. -/
theorem IsTree.prefix_of_reaches {top : Location} (h : IsTree fs root top)
    (hreaches : Reaches fs root location) : top <+: location := by
  induction hreaches with
  | root hroot =>
      rw [h.root] at hroot
      obtain ⟨rfl, -⟩ := Prod.mk.inj (Except.ok.inj hroot)
      exact List.prefix_rfl
  | entry _ _ name ih => exact ih.trans (List.prefix_append _ [name])
  | link _ hnode _ ih =>
      obtain ⟨names, hnames⟩ := ih
      rw [← hnames] at hnode
      exact absurd hnode (h.noLink names _)

end FileSystem

end RaceSkeletons
