import Mathlib.Data.List.Nodup
import RaceSkeletons.Corpus.Discover
import RaceSkeletons.Proofs.FileSystem.Locate
import RaceSkeletons.Proofs.Path.Map

/-!
# What discovery finds

Every directory below the root gives exactly one finding, so the cases and
the excluded directories add up to the directories
(`Discovery.ofFindings_total`). The fragments of all cases have distinct
paths (`distinct_fragments`): two fragments of one case differ in their
names, and fragments of two cases in their directories. Results that are
stored under these paths cannot overwrite each other.
-/

namespace RaceSkeletons

open RaceSkeletons.Path (IsEntryName)
open PathMap (DistinctKeys)

variable {fs : FileSystem} {root dir : Path} {extension : String} {paths : List Path}
  {findings : List Finding}

/-! ## The stages of discovery -/

theorem subdirectories_def : subdirectories fs root =
    (fs.entryPaths root).map fun paths =>
      (paths.filter fs.isDir).mergeSort fun p q => (p.order q).isLE :=
  rfl

theorem fragmentPaths_def : fragmentPaths fs dir extension =
    (fs.entryPaths dir).map fun paths =>
      (paths.filter fun p => fs.isFile p && p.hasExtension extension).mergeSort nameOrder :=
  rfl

theorem examine_def : examine fs extension dir =
    match fragmentPaths fs dir extension with
    | .error e => .unlistable ⟨dir.fileName, dir, 0, extension⟩ e
    | .ok [first, second] =>
      .case_ ⟨dir.fileName, dir, Fragment.load fs first, Fragment.load fs second⟩
        (Fragment.loadNotices fs second ++ Fragment.loadNotices fs first)
    | .ok paths => .malformed ⟨dir.fileName, dir, paths.length, extension⟩ :=
  rfl

theorem survey_def : survey fs root extension =
    match checkRoot fs root with
    | .error e => .error e
    | .ok () =>
      match subdirectories fs root with
      | .error e => .error (.unreadable root e)
      | .ok dirs => .ok (dirs.map (examine fs extension)) :=
  rfl

/-! ## Entries of a directory -/

/-- A path with one name more than its directory. -/
def Path.IsEntryOf (dir p : Path) : Prop :=
  ∃ name, p.components = dir.components ++ [.normal name]

/-- Nothing is an entry of two directories. -/
theorem Path.IsEntryOf.components_eq {dir dir' p q : Path} (hp : dir.IsEntryOf p)
    (hq : dir'.IsEntryOf q) (h : p.components = q.components) :
    dir.components = dir'.components := by
  obtain ⟨name, hname⟩ := hp
  obtain ⟨name', hname'⟩ := hq
  rw [hname, hname'] at h
  exact (List.append_inj' h rfl).1

namespace FileSystem

theorem entryPaths_eq_ok_iff : fs.entryPaths dir = .ok paths ↔
    ∃ location, fs.listDir dir = .ok location ∧
      paths = (fs.children location).map fun child => dir.join child.1 := by
  rw [entryPaths, readDir]
  cases fs.listDir dir with
  | error e => exact ⟨nofun, fun ⟨_, h, _⟩ => nomatch h⟩
  | ok location =>
      refine ⟨fun h => ⟨location, rfl, (Except.ok.inj h).symm⟩, ?_⟩
      rintro ⟨_, heq, rfl⟩
      cases heq
      rfl

theorem entryPaths_eq_error_iff {e : FileError} :
    fs.entryPaths dir = .error e ↔ fs.listDir dir = .error e := by
  rw [entryPaths, readDir]
  cases fs.listDir dir with
  | error e' => exact ⟨fun h => congrArg _ (Except.error.inj h),
      fun h => congrArg _ (Except.error.inj h)⟩
  | ok location => exact ⟨nofun, nofun⟩

/-- The entries of a directory have distinct paths, each with a name more
than the directory. -/
theorem WellFormed.entryPaths (hwf : fs.WellFormed) (h : fs.entryPaths dir = .ok paths) :
    (∀ p ∈ paths, dir.IsEntryOf p) ∧ DistinctKeys paths := by
  obtain ⟨location, -, rfl⟩ := entryPaths_eq_ok_iff.mp h
  have hjoin : ∀ child ∈ fs.children location,
      (dir.join child.1).components = dir.components ++ [.normal child.1] :=
    fun child hmem => Path.components_join dir (hwf.isEntryName_of_children hmem)
  refine ⟨fun p hp => ?_, ?_⟩
  · obtain ⟨child, hchild, rfl⟩ := List.mem_map.mp hp
    exact ⟨child.1, hjoin child hchild⟩
  · rw [DistinctKeys, List.map_map, List.Nodup, List.pairwise_map]
    refine (List.pairwise_map.mp (hwf.nodup_children location)).imp_of_mem
      fun {a b} ha hb hne => ?_
    rw [Function.comp_apply, Function.comp_apply, hjoin a ha, hjoin b hb]
    intro heq
    exact hne (Path.Component.normal.inj (List.cons.inj (List.append_cancel_left heq)).1)

end FileSystem

/-! ## Directories and their fragments -/

theorem distinctKeys_filter_mergeSort (h : DistinctKeys paths) (keep : Path → Bool)
    (le : Path → Path → Bool) : DistinctKeys ((paths.filter keep).mergeSort le) := by
  have hkept : DistinctKeys (paths.filter keep) :=
    h.sublist (List.filter_sublist.map Path.components)
  exact hkept.perm (List.mergeSort_perm _ le).symm

theorem FileSystem.WellFormed.subdirectories (hwf : fs.WellFormed)
    (h : subdirectories fs root = .ok paths) : DistinctKeys paths := by
  rw [subdirectories_def] at h
  cases hentries : fs.entryPaths root with
  | error e =>
      rw [hentries] at h
      cases h
  | ok entries =>
      rw [hentries] at h
      cases h
      exact distinctKeys_filter_mergeSort (hwf.entryPaths hentries).2 _ _

theorem FileSystem.WellFormed.fragmentPaths (hwf : fs.WellFormed)
    (h : fragmentPaths fs dir extension = .ok paths) :
    (∀ p ∈ paths, dir.IsEntryOf p) ∧ DistinctKeys paths := by
  rw [fragmentPaths_def] at h
  cases hentries : fs.entryPaths dir with
  | error e =>
      rw [hentries] at h
      cases h
  | ok entries =>
      rw [hentries] at h
      cases h
      obtain ⟨hentry, hdistinct⟩ := hwf.entryPaths hentries
      refine ⟨fun p hp => hentry p ?_, distinctKeys_filter_mergeSort hdistinct _ _⟩
      exact List.mem_of_mem_filter (List.mem_mergeSort.mp hp)

@[simp] theorem Fragment.load_path (fs : FileSystem) (p : Path) : (load fs p).path = p := by
  rw [load]
  split <;> rfl

/-- The paths of the fragments of a finding; there are two if it is a case,
else none. -/
def Finding.fragmentPaths (f : Finding) : List Path :=
  match f with
  | .case_ c _ => [c.first.path, c.second.path]
  | _ => []

/-- The fragments that are found in a directory are entries of it, and
differ. -/
theorem FileSystem.WellFormed.examine (hwf : fs.WellFormed) (extension : String) (dir : Path) :
    (∀ p ∈ (examine fs extension dir).fragmentPaths, dir.IsEntryOf p) ∧
      DistinctKeys (examine fs extension dir).fragmentPaths := by
  rw [examine_def]
  split
  · exact ⟨fun p hp => absurd hp List.not_mem_nil, List.nodup_nil⟩
  · next first second hpaths =>
      simp only [Finding.fragmentPaths, Fragment.load_path]
      exact hwf.fragmentPaths hpaths
  · exact ⟨fun p hp => absurd hp List.not_mem_nil, List.nodup_nil⟩

/-! ## The corpus -/

theorem fragments_ofFindings (findings : List Finding) :
    (Discovery.ofFindings findings).fragments.map (·.path) =
      findings.flatMap Finding.fragmentPaths := by
  induction findings with
  | nil => rfl
  | cons f rest ih =>
      rw [List.flatMap_cons, ← ih]
      cases f <;> rfl

/-- Each directory is a case or excluded. -/
theorem Discovery.ofFindings_total (findings : List Finding) :
    (ofFindings findings).totalSubdirs =
      (ofFindings findings).cases.length + (ofFindings findings).excluded.length := by
  induction findings with
  | nil => rfl
  | cons f rest ih =>
      simp only [ofFindings] at ih ⊢
      cases f <;>
        simp only [List.filterMap_cons, Finding.case?, Finding.excluded?, List.length_cons, ih] <;>
        omega

theorem Discovery.length_fragments (d : Discovery) : d.fragments.length = 2 * d.cases.length := by
  rw [fragments, List.length_flatMap]
  induction d.cases with
  | nil => rfl
  | cons c rest ih =>
      rw [List.map_cons, List.sum_cons, ih, List.length_cons, Case.fragments]
      simp only [List.length_cons, List.length_nil]
      omega

theorem survey_eq_ok (h : survey fs root extension = .ok findings) :
    ∃ dirs, subdirectories fs root = .ok dirs ∧ findings = dirs.map (examine fs extension) := by
  rw [survey_def] at h
  split at h
  · cases h
  · split at h
    · cases h
    · next dirs hdirs =>
        cases h
        exact ⟨dirs, hdirs, rfl⟩

theorem distinct_fragments (hwf : fs.WellFormed) (h : survey fs root extension = .ok findings) :
    DistinctKeys ((Discovery.ofFindings findings).fragments.map (·.path)) := by
  obtain ⟨dirs, hdirs, rfl⟩ := survey_eq_ok h
  have hdistinct := hwf.subdirectories hdirs
  rw [fragments_ofFindings, DistinctKeys, List.map_flatMap, List.flatMap_map, List.nodup_flatMap]
  refine ⟨fun dir _ => (hwf.examine extension dir).2, ?_⟩
  refine (List.pairwise_map.mp hdistinct).imp fun {dir dir'} hne components hmem hmem' => ?_
  obtain ⟨p, hp, rfl⟩ := List.mem_map.mp hmem
  obtain ⟨q, hq, heq⟩ := List.mem_map.mp hmem'
  have hentry := (hwf.examine extension dir).1 p hp
  exact hne (hentry.components_eq ((hwf.examine extension dir').1 q hq) heq.symm)

end RaceSkeletons
