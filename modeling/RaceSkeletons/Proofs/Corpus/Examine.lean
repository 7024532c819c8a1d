import RaceSkeletons.Proofs.Corpus.Discover
import RaceSkeletons.Proofs.FileSystem.Tree

/-!
# What discovery finds in a tree without links

In a tree without links the findings can be read off the entries. The
directories that discovery examines are the ones right below the root, if that can be
listed (`IsTree.discover_eq_ok`, `IsTree.exists_discover_iff`). Such a directory is a
case when two of its entries are regular files with the extension
(`IsTree.examine_of_two`), and excluded with their number otherwise
(`IsTree.examine_of_ne_two`); one that cannot be listed is excluded too
(`IsTree.examine_of_unlisted`).
-/

namespace RaceSkeletons

open RaceSkeletons.Path (IsEntryName)

/-! ## The fragments among the entries of a directory -/

/-- What discovery tells of a node that it takes for a fragment. -/
def Node.contents : Node → String × FragmentStats
  | .file bytes _ =>
    (Utf8.decodeLossy bytes, .ofContent bytes.length (Utf8.decodeLossy bytes))
  | _ => ("", {})

/-- What discovery tells of a fragment besides its name. -/
def Fragment.contents (f : Fragment) : String × FragmentStats :=
  (f.content, f.stats)

/-- Whether discovery takes an entry of the directory `dir` for a fragment. -/
def isFragmentOf (extension : String) (dir : Path) (child : String × Node) : Bool :=
  child.2.isRegular && decide (FileSystem.Fits (dir.join child.1)) &&
    Path.extensionOfName? child.1.toList == some extension.toList

namespace FileSystem

variable {fs : FileSystem} {root p : Path} {top location : Location} {names : List String}
  {entry extension : String} {node : Node}

/-- The fragments of the directory at a location, which `dir` leads to. -/
def fragmentsAt (extension : String) (fs : FileSystem) (dir : Path) (location : Location) :
    List (String × Node) :=
  (fs.children location).filter (isFragmentOf extension dir)

theorem load_contents (h : fs.target? p = .ok (location, node)) :
    (Fragment.load fs p).contents = node.contents := by
  rw [Fragment.load, readBytes, h]
  cases node <;> rfl

theorem load_name (fs : FileSystem) (p : Path) : (Fragment.load fs p).name = p.fileName := by
  rw [Fragment.load]
  split <;> rfl

theorem entered_singleton_iff :
    Entered fs root top [entry] ↔ fs.IsListed top ∧ IsEntryName entry ∧ Fits (root.join entry) ∧
      fs.isDirAt (top ++ [entry]) = true := by
  constructor
  · intro hentered
    generalize hnames : [entry] = names at hentered
    cases hentered with
    | root => cases hnames
    | @child names name around listed isName fits isDir =>
        obtain ⟨rfl, hlast⟩ := List.append_inj' ((List.nil_append _).trans hnames) rfl
        obtain rfl := List.singleton_inj.mp hlast
        rw [List.append_nil] at listed isDir
        exact ⟨listed, isName, fits, isDir⟩
  · rintro ⟨listed, isName, fits, isDir⟩
    rw [← List.append_nil top] at listed isDir
    exact Entered.child .root listed isName fits isDir

namespace IsTree

variable (h : IsTree fs root top)

include h

theorem entryPaths_entered (hnames : Entered fs root top names)
    (hlisted : fs.IsListed (top ++ names)) :
    fs.entryPaths (root.below names) =
      .ok ((fs.children (top ++ names)).map fun child => (root.below names).join child.1) :=
  entryPaths_eq_ok_iff.mpr ⟨_, h.listDir_entered hnames hlisted, rfl⟩

theorem isFragmentOf_iff (hnames : Entered fs root top names) {child : String × Node}
    (hchild : child ∈ fs.children (top ++ names)) (extension : String) :
    isFragmentOf extension (root.below names) child = true ↔
      fs.isFile ((root.below names).join child.1) = true ∧
        ((root.below names).join child.1).hasExtension extension = true := by
  have hname := h.wellFormed.isEntryName_of_children hchild
  have hnode := h.wellFormed.mem_children.mp hchild
  rw [isFragmentOf, Bool.and_eq_true, Bool.and_eq_true, decide_eq_true_eq,
    h.isFile_join_iff hnames hname, Path.hasExtension_join _ hname, hnode]
  simp only [Option.some.injEq, exists_eq_left', and_comm]

/-- Discovery lists the fragments of a directory by name. -/
theorem fragmentPaths_entered (hnames : Entered fs root top names)
    (hlisted : fs.IsListed (top ++ names)) (extension : String) :
    fragmentPaths fs (root.below names) extension =
      .ok (((fragmentsAt extension fs (root.below names) (top ++ names)).map fun child =>
        (root.below names).join child.1).mergeSort nameOrder) := by
  rw [fragmentPaths_def, h.entryPaths_entered hnames hlisted, Except.map, List.filter_map,
    fragmentsAt]
  congr 3
  refine List.filter_congr fun child hchild => ?_
  rw [Bool.eq_iff_iff, h.isFragmentOf_iff hnames hchild extension, Function.comp_apply,
    Bool.and_eq_true]

theorem load_fragment (hnames : Entered fs root top names) {child : String × Node}
    (hchild : child ∈ fragmentsAt extension fs (root.below names) (top ++ names)) :
    (Fragment.load fs ((root.below names).join child.1)).name = child.1 ∧
      (Fragment.load fs ((root.below names).join child.1)).contents = child.2.contents := by
  obtain ⟨hmem, hfragment⟩ := List.mem_filter.mp hchild
  have hname := h.wellFormed.isEntryName_of_children hmem
  have hnode := h.wellFormed.mem_children.mp hmem
  obtain ⟨hfile, -⟩ := (h.isFragmentOf_iff hnames hmem extension).mp hfragment
  have hfits := ((h.isFile_join_iff hnames hname).mp hfile).1
  have htarget := h.target?_join hnames hname hfits
  rw [hnode] at htarget
  exact ⟨(load_name fs _).trans (Path.fileName_join _ hname), load_contents htarget⟩

/-- A directory with two fragments is a case. -/
theorem examine_of_two (hnames : Entered fs root top names)
    (hlisted : fs.IsListed (top ++ names))
    (htwo : (fragmentsAt extension fs (root.below names) (top ++ names)).length = 2) :
    ∃ c notices, examine fs extension (root.below names) = .case_ c notices ∧
      c.id = (root.below names).fileName ∧ c.dir = root.below names ∧
        (c.fragments.map fun f => (f.name, f.contents)).Perm
          ((fragmentsAt extension fs (root.below names) (top ++ names)).map fun child =>
            (child.1, child.2.contents)) := by
  have hperm := List.mergeSort_perm
    ((fragmentsAt extension fs (root.below names) (top ++ names)).map fun child =>
      (root.below names).join child.1) nameOrder
  have hlength := hperm.length_eq
  rw [List.length_map, htwo] at hlength
  obtain ⟨first, second, hpaths⟩ := List.length_eq_two.mp hlength
  rw [hpaths] at hperm
  have hfragments := h.fragmentPaths_entered hnames hlisted extension
  rw [hpaths] at hfragments
  refine ⟨_, _, by rw [examine_def, hfragments], rfl, rfl, ?_⟩
  have hloaded := hperm.map fun q => ((Fragment.load fs q).name, (Fragment.load fs q).contents)
  refine hloaded.trans (.of_eq ?_)
  rw [List.map_map]
  refine List.map_congr_left fun child hchild => ?_
  obtain ⟨hname, hcontents⟩ := h.load_fragment hnames hchild
  rw [Function.comp_apply, hname, hcontents]

/-- Any other directory is excluded, with the number of its fragments. -/
theorem examine_of_ne_two (hnames : Entered fs root top names)
    (hlisted : fs.IsListed (top ++ names))
    (hmany : (fragmentsAt extension fs (root.below names) (top ++ names)).length ≠ 2) :
    examine fs extension (root.below names) =
      .malformed ⟨(root.below names).fileName, root.below names,
        (fragmentsAt extension fs (root.below names) (top ++ names)).length, extension⟩ := by
  have hlength := (List.mergeSort_perm
    ((fragmentsAt extension fs (root.below names) (top ++ names)).map fun child =>
      (root.below names).join child.1) nameOrder).length_eq
  rw [List.length_map] at hlength
  rw [examine_def, h.fragmentPaths_entered hnames hlisted]
  split
  · next herror => cases herror
  · next hpaths =>
      rw [Except.ok.inj hpaths] at hlength
      exact absurd hlength.symm hmany
  · next hpaths =>
      rw [← Except.ok.inj hpaths, hlength]

/-- A directory that cannot be listed is excluded, with no fragments. -/
theorem examine_of_unlisted (hnames : Entered fs root top names) {e : FileError}
    (hrefused : fs.unlisted.lookup (top ++ names) = some e) (extension : String) :
    examine fs extension (root.below names) =
      .unlistable ⟨(root.below names).fileName, root.below names, 0, extension⟩ e := by
  have hlist : fs.listDir (root.below names) = .error e := by
    rw [listDir, h.target?_entered hnames]
    simp only [hrefused]
  rw [examine_def, fragmentPaths_def, entryPaths, readDir, hlist]
  rfl

/-! ## Directories below the root -/

theorem checkRoot_eq_ok : checkRoot fs root = .ok () := by
  rw [checkRoot, pathExists, isDir, h.root]
  rfl

theorem subdirectories_eq (hlisted : fs.IsListed top) :
    ∃ dirs, subdirectories fs root = .ok dirs ∧
      ∀ p, p ∈ dirs ↔ ∃ entry, p = root.join entry ∧ Entered fs root top [entry] := by
  have hentries := h.entryPaths_entered .root (by rwa [List.append_nil])
  rw [List.append_nil, Path.below_nil] at hentries
  refine ⟨_, by rw [subdirectories_def, hentries]; rfl, fun p => ?_⟩
  have hdir : ∀ entry, IsEntryName entry → (fs.isDir (root.join entry) = true ↔
      Fits (root.join entry) ∧ fs.isDirAt (top ++ [entry]) = true) := by
    intro entry hentry
    have hiff := h.isDir_join_iff .root hentry
    rwa [List.append_nil, Path.below_nil] at hiff
  rw [List.mem_mergeSort, List.mem_filter, List.mem_map]
  constructor
  · rintro ⟨⟨child, hchild, rfl⟩, hisDir⟩
    have hname := h.wellFormed.isEntryName_of_children hchild
    exact ⟨child.1, rfl, entered_singleton_iff.mpr ⟨hlisted, hname, (hdir _ hname).mp hisDir⟩⟩
  · rintro ⟨entry, rfl, hentered⟩
    obtain ⟨-, hname, hfits, hdirAt⟩ := entered_singleton_iff.mp hentered
    refine ⟨⟨(entry, .dir), ?_, rfl⟩, (hdir _ hname).mpr ⟨hfits, hdirAt⟩⟩
    rw [h.wellFormed.mem_children]
    exact beq_iff_eq.mp hdirAt

/-- The cases and the excluded directories are found right below the root. -/
theorem discover_eq_ok (hlisted : fs.IsListed top) (extension : String) :
    ∃ found, discover fs root extension = .ok found ∧
      (∀ c, c ∈ found.cases ↔ ∃ entry notices, Entered fs root top [entry] ∧
        examine fs extension (root.join entry) = .case_ c notices) ∧
      ∀ excluded, excluded ∈ found.excluded ↔ ∃ entry, Entered fs root top [entry] ∧
        (examine fs extension (root.join entry)).excluded? = some excluded := by
  obtain ⟨dirs, hdirs, hmem⟩ := h.subdirectories_eq hlisted
  have hcase : ∀ (finding : Finding) (c : Case),
      finding.case? = some c ↔ ∃ notices, finding = .case_ c notices := by
    intro finding c
    cases finding <;> simp [Finding.case?]
  refine ⟨.ofFindings (dirs.map (examine fs extension)), ?_, fun c => ?_, fun excluded => ?_⟩
  · rw [discover, survey_def, h.checkRoot_eq_ok, hdirs]
    rfl
  · simp only [Discovery.ofFindings, List.filterMap_map, List.mem_filterMap, Function.comp_apply,
      hmem, hcase]
    constructor
    · rintro ⟨dir, ⟨entry, rfl, hentry⟩, notices, hexamine⟩
      exact ⟨entry, notices, hentry, hexamine⟩
    · rintro ⟨entry, notices, hentry, hexamine⟩
      exact ⟨_, ⟨entry, rfl, hentry⟩, notices, hexamine⟩
  · simp only [Discovery.ofFindings, List.filterMap_map, List.mem_filterMap, Function.comp_apply,
      hmem]
    constructor
    · rintro ⟨dir, ⟨entry, rfl, hentry⟩, hexamine⟩
      exact ⟨entry, hentry, hexamine⟩
    · rintro ⟨entry, hentry, hexamine⟩
      exact ⟨_, ⟨entry, rfl, hentry⟩, hexamine⟩

/-- Discovery finds something below the root only if it can list the root. -/
theorem isListed_of_survey {findings : List Finding}
    (hsurvey : survey fs root extension = .ok findings) : fs.IsListed top := by
  obtain ⟨dirs, hdirs, -⟩ := survey_eq_ok hsurvey
  rw [subdirectories_def] at hdirs
  cases hentries : fs.entryPaths root with
  | error e =>
      rw [hentries] at hdirs
      cases hdirs
  | ok paths =>
      obtain ⟨location, hlist, -⟩ := entryPaths_eq_ok_iff.mp hentries
      obtain ⟨htarget, hlisted⟩ := listDir_eq_ok_iff.mp hlist
      rw [h.root] at htarget
      cases htarget
      exact hlisted

/-- Discovery succeeds exactly where the root can be listed. -/
theorem exists_discover_iff (extension : String) :
    (∃ found, discover fs root extension = .ok found) ↔ fs.IsListed top := by
  constructor
  · rintro ⟨found, hfound⟩
    cases hsurvey : survey fs root extension with
    | error e =>
        rw [discover, hsurvey] at hfound
        cases hfound
    | ok findings => exact h.isListed_of_survey hsurvey
  · intro hlisted
    obtain ⟨found, hfound, -⟩ := h.discover_eq_ok hlisted extension
    exact ⟨found, hfound⟩

end IsTree

end FileSystem

end RaceSkeletons
