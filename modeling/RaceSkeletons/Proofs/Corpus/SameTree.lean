import RaceSkeletons.Proofs.Corpus.Partition

/-!
# Trees that look the same

What stands below a root is seen through the paths that go down from it
(`Path.GoesDown`). Two file systems show the same tree there if these paths lead
to the same kind of thing, with the same entries and contents
(`FileSystem.SameTree`). Where the things are, which links lead to them, in which
order they are listed and what else there is does not show.

Discovery looks at nothing else, so it finds the same in both
(`FileSystem.SameTree.discover`).
-/

namespace RaceSkeletons

open RaceSkeletons.Path (IsEntryName)

variable {fs fs' : FileSystem} {root dir p : Path} {extension : String} {paths : List Path}

/-- A path that goes down from a root, name by name. -/
inductive Path.GoesDown (root : Path) : Path → Prop where
  | here : GoesDown root root
  | entry {dir : Path} {name : String} (around : GoesDown root dir) (isName : IsEntryName name) :
      GoesDown root (dir.join name)

namespace FileSystem

/-- The same tree below a root: a path that goes down from it leads to a
directory, to a regular file or to neither in both; the directory can be listed in
both or in neither and has the same entries, in whatever order, and the file the same
contents. -/
structure SameTree (fs fs' : FileSystem) (root : Path) : Prop where
  isDir : ∀ p, root.GoesDown p → fs'.isDir p = fs.isDir p
  isFile : ∀ p, root.GoesDown p → fs'.isFile p = fs.isFile p
  readBytes : ∀ p, root.GoesDown p → fs'.readBytes p = fs.readBytes p
  isListed : ∀ dir, root.GoesDown dir → (fs'.entryPaths dir).isOk = (fs.entryPaths dir).isOk
  entries : ∀ dir paths paths', root.GoesDown dir → fs.entryPaths dir = .ok paths →
    fs'.entryPaths dir = .ok paths' → paths'.Perm paths

theorem SameTree.refl (fs : FileSystem) (root : Path) : SameTree fs fs root where
  isDir _ _ := rfl
  isFile _ _ := rfl
  readBytes _ _ := rfl
  isListed _ _ := rfl
  entries _ _ _ _ h h' := Except.ok.inj (h'.symm.trans h) ▸ .refl _

/-- Files that only are in another order show the same tree below every root. -/
theorem SameFiles.sameTree (h : SameFiles fs fs') (hwf : fs.WellFormed) (root : Path) :
    SameTree fs fs' root where
  isDir p _ := by rw [h.isDir hwf]
  isFile p _ := by rw [h.isFile hwf]
  readBytes p _ := by rw [FileSystem.readBytes, FileSystem.readBytes, h.target? hwf]
  isListed dir _ := h.isOk_entryPaths hwf dir
  entries dir paths paths' _ hpaths hpaths' := by
    obtain ⟨other, hother, hperm⟩ := h.entryPaths hwf hpaths
    obtain rfl := Except.ok.inj (hother.symm.trans hpaths')
    exact hperm

/-! ## What is listed -/

theorem WellFormed.goesDown_of_entryPaths (hwf : fs.WellFormed) (hdown : root.GoesDown dir)
    (h : fs.entryPaths dir = .ok paths) (hp : p ∈ paths) : root.GoesDown p := by
  obtain ⟨location, -, rfl⟩ := entryPaths_eq_ok_iff.mp h
  obtain ⟨child, hchild, rfl⟩ := List.mem_map.mp hp
  exact .entry hdown (hwf.isEntryName_of_children hchild)

/-- What is kept of the entries of a directory goes down from the root and
passes the test. -/
theorem WellFormed.of_mem_entriesWith (hwf : fs.WellFormed) (hdown : root.GoesDown dir)
    {keep : Path → Bool} (hp : p ∈ fs.entriesWith keep dir) :
    root.GoesDown p ∧ keep p = true := by
  rw [FileSystem.entriesWith] at hp
  split at hp
  · next paths hpaths =>
      obtain ⟨hmem, hkeep⟩ := List.mem_filter.mp hp
      exact ⟨hwf.goesDown_of_entryPaths hdown hpaths hmem, hkeep⟩
  · exact absurd hp List.not_mem_nil

namespace SameTree

variable (h : SameTree fs fs' root) (hwf : fs.WellFormed) (hwf' : fs'.WellFormed)
include h

/-- Both list a directory, or neither does. -/
theorem entryPaths_cases (hdown : root.GoesDown dir) :
    (∃ e e', fs.entryPaths dir = .error e ∧ fs'.entryPaths dir = .error e') ∨
      ∃ paths paths', fs.entryPaths dir = .ok paths ∧ fs'.entryPaths dir = .ok paths' ∧
        paths'.Perm paths := by
  have hsame := h.isListed dir hdown
  cases hpaths : fs.entryPaths dir with
  | error e =>
      cases hpaths' : fs'.entryPaths dir with
      | error e' => exact .inl ⟨e, e', rfl, rfl⟩
      | ok _ => rw [hpaths, hpaths'] at hsame; cases hsame
  | ok paths =>
      cases hpaths' : fs'.entryPaths dir with
      | error _ => rw [hpaths, hpaths'] at hsame; cases hsame
      | ok paths' => exact .inr ⟨paths, paths', rfl, rfl, h.entries dir _ _ hdown hpaths hpaths'⟩

include hwf

/-- Of a directory the same entries are kept. -/
theorem entriesWith (hdown : root.GoesDown dir) {keep keep' : Path → Bool}
    (hkeep : ∀ p, root.GoesDown p → keep' p = keep p) :
    (fs'.entriesWith keep' dir).Perm (fs.entriesWith keep dir) := by
  rw [FileSystem.entriesWith, FileSystem.entriesWith]
  rcases h.entryPaths_cases hdown with
    ⟨e, e', hpaths, hpaths'⟩ | ⟨paths, paths', hpaths, hpaths', hperm⟩
  · rw [hpaths, hpaths']
  · have hsame : paths'.filter keep' = paths'.filter keep := List.filter_congr fun p hp =>
      hkeep p (hwf.goesDown_of_entryPaths hdown hpaths (hperm.mem_iff.mp hp))
    simp only [hpaths, hpaths', hsame]
    exact hperm.filter keep

include hwf'

theorem subdirectories {dirs : List Path} (hdirs : subdirectories fs root = .ok dirs) :
    RaceSkeletons.subdirectories fs' root = .ok dirs := by
  obtain ⟨hperm, hascending⟩ := fs.lists_entryPaths.subdirectories hwf hdirs
  rcases h.entryPaths_cases .here with ⟨e, e', hpaths, -⟩ | ⟨paths, paths', -, hpaths', -⟩
  · rw [subdirectories_def, hpaths] at hdirs
    cases hdirs
  · obtain ⟨dirs', hdirs'⟩ : ∃ dirs', RaceSkeletons.subdirectories fs' root = .ok dirs' :=
      ⟨_, by rw [subdirectories_def, hpaths']; rfl⟩
    obtain ⟨hperm', hascending'⟩ := fs'.lists_entryPaths.subdirectories hwf' hdirs'
    have hsame := h.entriesWith hwf .here h.isDir
    rw [hdirs', eq_of_ascending Path.order hascending' hascending fun p =>
      ((hperm'.trans hsame).trans hperm.symm).mem_iff]

/-- The fragments of a directory are the same, or cannot be listed. -/
theorem fragmentPaths_cases (hdown : root.GoesDown dir) (extension : String) :
    (∃ e e', fragmentPaths fs dir extension = .error e ∧
      fragmentPaths fs' dir extension = .error e') ∨
      ∃ paths, fragmentPaths fs dir extension = .ok paths ∧
        fragmentPaths fs' dir extension = .ok paths ∧ ∀ p ∈ paths, root.GoesDown p := by
  rcases h.entryPaths_cases hdown with ⟨e, e', hlisted, hlisted'⟩ | ⟨_, _, hlisted, hlisted', -⟩
  · refine .inl ⟨e, e', ?_, ?_⟩
    · rw [fragmentPaths_def, hlisted]
      rfl
    · rw [fragmentPaths_def, hlisted']
      rfl
  · obtain ⟨paths, hpaths⟩ : ∃ paths, fragmentPaths fs dir extension = .ok paths :=
      ⟨_, by rw [fragmentPaths_def, hlisted]; rfl⟩
    obtain ⟨paths', hpaths'⟩ : ∃ paths', fragmentPaths fs' dir extension = .ok paths' :=
      ⟨_, by rw [fragmentPaths_def, hlisted']; rfl⟩
    obtain ⟨hperm, hascending⟩ := fs.lists_entryPaths.fragmentPaths hwf hpaths
    obtain ⟨hperm', hascending'⟩ := fs'.lists_entryPaths.fragmentPaths hwf' hpaths'
    have hsame := h.entriesWith hwf hdown fun p hp =>
      congrArg (· && p.hasExtension extension) (h.isFile p hp)
    obtain rfl : paths' = paths := eq_of_ascending _ hascending' hascending fun p =>
      ((hperm'.trans hsame).trans hperm.symm).mem_iff
    exact .inr ⟨paths', hpaths, hpaths', fun p hp =>
      (hwf.of_mem_entriesWith hdown (hperm.mem_iff.mp hp)).1⟩

/-- A directory is the same case, with the same contents, or excluded alike. -/
theorem examine (hdown : root.GoesDown dir) (extension : String) :
    (examine fs' extension dir).case? = (examine fs extension dir).case? ∧
      (examine fs' extension dir).excluded? = (examine fs extension dir).excluded? := by
  rw [examine_def, examine_def]
  rcases h.fragmentPaths_cases hwf hwf' hdown extension with
    ⟨e, e', hpaths, hpaths'⟩ | ⟨paths, hpaths, hpaths', hfragments⟩
  · rw [hpaths, hpaths']
    exact ⟨rfl, rfl⟩
  · have hload : ∀ p ∈ paths, Fragment.load fs' p = Fragment.load fs p := by
      intro p hp
      rw [Fragment.load, Fragment.load, h.readBytes p (hfragments p hp)]
    rw [hpaths, hpaths']
    split
    · next heq => cases heq
    · next first second heq =>
        obtain rfl := Except.ok.inj heq
        rw [Finding.case?, hload first (by simp), hload second (by simp)]
        exact ⟨rfl, rfl⟩
    · exact ⟨rfl, rfl⟩

/-- Discovery sees no difference. -/
theorem discover {d : Discovery} (hfound : discover fs root extension = .ok d) :
    RaceSkeletons.discover fs' root extension = .ok d := by
  obtain ⟨hroot, dirs, hdirs, rfl⟩ := Lister.discover_eq_ok hfound
  have hroot' : checkRoot fs' root = .ok () :=
    checkRoot_eq_ok_iff.mpr ((h.isDir root .here).trans (checkRoot_eq_ok_iff.mp hroot))
  obtain ⟨hperm, -⟩ := fs.lists_entryPaths.subdirectories hwf hdirs
  have hexamined : ∀ dir ∈ dirs, _ := fun dir hdir =>
    h.examine hwf hwf' (hwf.of_mem_entriesWith .here (hperm.mem_iff.mp hdir)).1 extension
  refine (Lister.discover_of_parts hroot' (h.subdirectories hwf hwf' hdirs)).trans ?_
  simp only [Discovery.ofFindings, List.filterMap_map, List.length_map, Function.comp_def]
  congr 2
  · exact List.filterMap_congr fun dir hdir => (hexamined dir hdir).1
  · exact List.filterMap_congr fun dir hdir => (hexamined dir hdir).2

end SameTree

end FileSystem

end RaceSkeletons
