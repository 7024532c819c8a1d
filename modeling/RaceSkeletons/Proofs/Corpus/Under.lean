import RaceSkeletons.Proofs.Corpus.Visits
import RaceSkeletons.Proofs.FileSystem.Overwrite

/-!
# What lies under a root

What lies under a root (`FileSystem.LiesUnder`) is met by a walk, and each file once
(`FileSystem.WellFormed.nodup_files_walk`). Where no link leads back, an entry lies
under a root if it can be come to from there at all
(`FileSystem.IsAcyclic.liesUnder_iff`). What lies under a root stays there when files
are written, and nothing comes to lie there but the file that was written
(`FileSystem.LiesUnder.grows`, `FileSystem.LiesUnder.before`).
-/

namespace RaceSkeletons

open RaceSkeletons.Path (IsEntryName)

namespace FileSystem

variable {fs fs' : FileSystem} {root p dir : Path} {location : Location} {node found : Node}
  {name : String} {order : EntryOrder} {trail : List Location}

/-! ## Every file once -/

/-- What a walk visits has the path of its start, with names behind it. -/
theorem WellFormed.prefix_of_walkWithin (hwf : fs.WellFormed) {depth : Nat}
    {ways : List (Path × Location)} (hfile : .file p ∈ fs.walkWithin order depth ways dir node) :
    dir.components <+: p.components := by
  have hentry : ∀ (ways : List (Path × Location)) (q : Path) (outer : Node) (location : Location)
      (name : String) (node : Node), dir.components <+: q.components →
        fs.visitNode ways q outer = .ok .dir → fs.listDir q = .ok location →
          fs.nodeAt? (location ++ [name]) = some node →
            dir.components <+: (q.join name).components := by
    intro ways q outer location name node hbegins _ _ hnode
    rw [Path.components_join q (hwf.isEntryName hnode)]
    exact hbegins.trans (List.prefix_append _ _)
  obtain ⟨-, -, hbegins, -⟩ := hwf.walkWithin_induction hentry List.prefix_rfl hfile
  exact hbegins

theorem WellFormed.distinct_walkWithin (hwf : fs.WellFormed) (order : EntryOrder) (depth : Nat)
    (ways : List (Path × Location)) (dir : Path) (node : Node) :
    PathMap.DistinctKeys ((fs.walkWithin order depth ways dir node).filterMap Visit.file?) := by
  induction depth generalizing ways dir node with
  | zero => exact List.nodup_nil
  | succ depth ih =>
      rw [walkWithin]
      split
      · exact List.nodup_nil
      · split
        · exact List.nodup_nil
        · next location hlist =>
            rw [PathMap.DistinctKeys, List.filterMap_cons_none rfl, List.filterMap_flatMap,
              List.map_flatMap, List.nodup_flatMap]
            refine ⟨fun child _ => ih _ _ _, ?_⟩
            have hnodup : (((fs.children location).mergeSort order).map (·.1)).Nodup :=
              ((List.mergeSort_perm _ _).map _).nodup_iff.mpr (hwf.nodup_children location)
            have hnames := List.pairwise_map.mp hnodup
            refine hnames.imp_of_mem fun {a b} ha hb hne =>
              List.disjoint_left.mpr fun steps ha' hb' => ?_
            have hbegins : ∀ child ∈ (fs.children location).mergeSort order,
                steps ∈ ((fs.walkWithin order depth ((dir, location) :: ways)
                  (dir.join child.1) child.2).filterMap Visit.file?).map Path.components →
                  dir.components ++ [.normal child.1] <+: steps := fun child hchild hsteps => by
              obtain ⟨q, hq, rfl⟩ := List.mem_map.mp hsteps
              rw [← Path.components_join dir
                (hwf.isEntryName_of_children (List.mem_mergeSort.mp hchild))]
              exact hwf.prefix_of_walkWithin (mem_files_iff.mp hq)
            have hsame := (List.prefix_of_prefix_length_le (hbegins a ha ha') (hbegins b hb hb')
              (by simp)).eq_of_length (by simp)
            simp only [List.append_cancel_left_eq, List.cons.injEq, Path.Component.normal.injEq,
              and_true] at hsame
            exact hne hsame
      · split
        · exact List.nodup_singleton _
        · exact List.nodup_nil

/-- No two files of a walk have the same path, however it is spelled. -/
theorem WellFormed.distinct_files_walk (hwf : fs.WellFormed) (order : EntryOrder) (root : Path) :
    PathMap.DistinctKeys ((fs.walk order root).filterMap Visit.file?) := by
  rw [walk]
  split
  · exact List.nodup_nil
  · exact List.nodup_nil
  · exact hwf.distinct_walkWithin order _ [] root _

/-- A walk meets no file twice. -/
theorem WellFormed.nodup_files_walk (hwf : fs.WellFormed) (order : EntryOrder) (root : Path) :
    ((fs.walk order root).filterMap Visit.file?).Nodup :=
  (hwf.distinct_files_walk order root).of_map _

/-! ## Trees that grow -/

theorem isLink_of_isRewriteOf {node' : Node} (h : node'.IsRewriteOf node) :
    node'.isLink = node.isLink := by
  rcases h with rfl | ⟨_, _, _, rfl, rfl⟩ <;> rfl

theorem LiesUnder.grows (h : LiesUnder fs root trail p node) (hgrows : Grows fs fs') :
    ∃ node', node'.IsRewriteOf node ∧ LiesUnder fs' root trail p node' := by
  induction h with
  | root here =>
      obtain ⟨node', hnode, here'⟩ := hgrows.locate here
      exact ⟨node', hnode, .root here'⟩
  | entry _ listed forward there ih =>
      obtain ⟨outer', houter, hunder⟩ := ih
      obtain ⟨node', there', hnode⟩ := hgrows.keeps _ _ there
      exact ⟨node', hnode, .entry hunder (hgrows.listDir listed)
        (fun hlink => forward (isLink_of_isRewriteOf houter ▸ hlink)) there'⟩

theorem ShowsFile.grows (h : fs.ShowsFile p node) (hgrows : Grows fs fs')
    (hnode : found.IsRewriteOf node) : fs'.ShowsFile p found := by
  rcases h with hregular | ⟨hlink, hfile⟩
  · exact .inl (hnode.isRegular.trans hregular)
  · exact .inr ⟨(isLink_of_isRewriteOf hnode).trans hlink, hgrows.isFile hfile⟩

/-- What lies under the root after a file was written is what lay there before, but for
the file, under whatever path. -/
theorem LiesUnder.before {data : Bytes} {mode : FileMode} {place : Location}
    (h : LiesUnder fs' root trail p node) (hwf : fs'.WellFormed)
    (hwrite : IsWrite fs fs' place (.file data mode))
    (htarget : fs'.target? p = .ok (location, found)) (hne : location ≠ place) :
    LiesUnder fs root trail p node := by
  induction h generalizing location found with
  | @root here top located =>
      refine .root (hwrite.locate_before located ?_)
      -- a written file would be what the root leads to
      rintro rfl
      obtain rfl := Option.some.inj ((node_eq_of_locate located).trans hwrite.nodeAt?_self)
      have hsame := target?_of_locate located nofun
      exact hne (Prod.mk.inj (Except.ok.inj (htarget.symm.trans hsame))).1
  | @entry trail dir outer node around name _ listed forward there ih =>
      obtain ⟨hdir, hlisted⟩ := listDir_eq_ok_iff.mp listed
      have hopens := opens_of_target? hdir
      have haround := hwrite.ne_of_isDirAt hopens.isDirAt
      have listed' := listDir_eq_ok_iff.mpr
        ⟨hwrite.target?_before hdir haround, (isListed_congr hwrite.terms).mp hlisted⟩
      refine .entry (ih hdir haround) listed' forward ?_
      rwa [← hwrite.nodeAt?_of_ne]
      -- the only new entry is the file itself, and its path leads to it
      rintro rfl
      rcases location_of_entry hopens (hwf.isEntryName there) htarget with rfl | ⟨target, hlink⟩
      · exact hne rfl
      · cases (node_eq_of_locate hlink).trans hwrite.nodeAt?_self

/-! ## Trees without cycles -/

/-- An entry that can be come to from a root, down through directories and links to
directories: its path, and what its directory lists it as. -/
inductive Descends (fs : FileSystem) (root : Path) : Path → Node → Prop where
  | root {place : Location} {node : Node} (here : fs.locate false root = .ok ⟨place, some node⟩) :
      Descends fs root root node
  | entry {dir : Path} {outer node : Node} {location : Location} {name : String}
      (around : Descends fs root dir outer) (listed : fs.listDir dir = .ok location)
      (there : fs.nodeAt? (location ++ [name]) = some node) :
      Descends fs root (dir.join name) node

/-- Whether no path under a root leads to a directory that it lies in. -/
def IsAcyclic (fs : FileSystem) (root : Path) : Prop :=
  ∀ trail p node location, LiesUnder fs root trail p node →
    fs.target? p = .ok (location, .dir) → location ∉ trail

theorem IsAcyclic.entry (hacyclic : fs.IsAcyclic root) (h : LiesUnder fs root trail dir found)
    (hlist : fs.listDir dir = .ok location)
    (hentry : fs.nodeAt? (location ++ [name]) = some node) :
    LiesUnder fs root (location :: trail) (dir.join name) node :=
  .entry h hlist (fun _ => hacyclic _ _ _ _ h (listDir_eq_ok_iff.mp hlist).1) hentry

/-- Where there are no cycles, all that goes down from a root lies under it. -/
theorem IsAcyclic.liesUnder_iff (hacyclic : fs.IsAcyclic root) :
    (∃ trail, LiesUnder fs root trail p node) ↔ Descends fs root p node := by
  constructor
  · rintro ⟨trail, h⟩
    induction h with
    | root here => exact .root here
    | entry _ listed _ there ih => exact .entry ih listed there
  · intro h
    induction h with
    | root here => exact ⟨[], .root here⟩
    | entry _ listed there ih =>
        obtain ⟨trail, h⟩ := ih
        exact ⟨_, hacyclic.entry h listed there⟩

/-- On the way down a tree without links the locations only get longer. -/
theorem IsTree.prefix_of_liesUnder {top : Location} (h : IsTree fs root top)
    (hunder : LiesUnder fs root trail p node) (hdir : fs.target? p = .ok (location, .dir)) :
    top <+: location ∧ ∀ outer ∈ trail, outer.length < location.length := by
  induction hunder generalizing location with
  | root =>
      rw [h.root] at hdir
      cases hdir
      exact ⟨List.prefix_rfl, nofun⟩
  | @entry trail dir _ _ around name _ listed _ there ih =>
      have houter := (listDir_eq_ok_iff.mp listed).1
      obtain ⟨⟨names, rfl⟩, hlonger⟩ := ih houter
      have hentry := location_of_entry (opens_of_target? houter)
        (h.wellFormed.isEntryName there) hdir
      rcases hentry with rfl | ⟨target, hlocate⟩
      · have hlast : (top ++ names).length < (top ++ names ++ [name]).length := by simp
        refine ⟨(List.prefix_append top names).trans (List.prefix_append _ _), ?_⟩
        exact List.forall_mem_cons.mpr ⟨hlast, fun outer hmem => (hlonger outer hmem).trans hlast⟩
      · refine absurd (node_eq_of_locate hlocate).symm ?_
        rw [List.append_assoc]
        exact h.noLink _ target

/-- Without links there are no cycles. -/
theorem IsTree.isAcyclic {top : Location} (h : IsTree fs root top) : fs.IsAcyclic root :=
  fun _ _ _ _ hunder hdir hmem => Nat.lt_irrefl _ ((h.prefix_of_liesUnder hunder hdir).2 _ hmem)

end FileSystem

end RaceSkeletons
