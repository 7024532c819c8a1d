import RaceSkeletons.Proofs.Corpus.Survey
import RaceSkeletons.Proofs.Run.Completion

/-!
# Discovery in every order of listing

The system lists a directory in whatever order it likes, and may refuse to
list one at all (`FileSystem.Lists`). Discovery sorts what it is given, so the
order makes no difference (`Lister.discover_eq`): what it finds is a partition
of the directories below the root, told by the files that are there
(`Discovery.IsPartition`).
-/

namespace RaceSkeletons

open PathMap (DistinctKeys)

variable {fs fs' : FileSystem} {list list' : Lister} {root dir p q : Path} {extension : String}
  {dirs paths paths' : List Path}

/-! ## Files that only list otherwise -/

namespace FileSystem

/-- The same files on the same terms; the directories may be listed in
another order. -/
structure SameFiles (fs fs' : FileSystem) : Prop where
  entries : fs'.entries.Perm fs.entries
  terms : fs'.toTerms = fs.toTerms

theorem walkNames_congr (h : ∀ location, fs'.nodeAt? location = fs.nodeAt? location)
    (followLast : Bool) (links : Nat) (current : Location) (names : List String) :
    fs'.walkNames followLast links current names = fs.walkNames followLast links current names := by
  have hdir : ∀ location, fs'.isDirAt location = fs.isDirAt location := fun location => by
    rw [isDirAt, isDirAt, h]
  fun_induction FileSystem.walkNames fs followLast links current names <;>
    rw [walkNames] <;> simp_all +zetaDelta [-Nat.not_lt, -not_lt]

namespace SameFiles

variable (h : SameFiles fs fs')
include h

theorem workingDir : fs'.workingDir = fs.workingDir :=
  congrArg Terms.workingDir h.terms

theorem wellFormed (hwf : fs.WellFormed) : fs'.WellFormed where
  distinct := ((h.entries.map (·.location)).nodup_iff).mpr hwf.distinct
  entryNames entry hentry := hwf.entryNames entry (h.entries.mem_iff.mp hentry)
  workingDirNames := h.workingDir ▸ hwf.workingDirNames

theorem nodeAt? (hwf : fs.WellFormed) (location : Location) :
    fs'.nodeAt? location = fs.nodeAt? location := by
  refine Option.ext fun node => ?_
  by_cases hroot : location = []
  · rw [hroot, nodeAt?_nil, nodeAt?_nil]
  · constructor
    · intro hnode
      obtain ⟨entry, hmem, rfl, rfl⟩ := exists_entry_of_nodeAt? hroot hnode
      exact hwf.nodeAt?_of_mem (h.entries.mem_iff.mp hmem) hroot
    · intro hnode
      obtain ⟨entry, hmem, rfl, rfl⟩ := exists_entry_of_nodeAt? hroot hnode
      exact (h.wellFormed hwf).nodeAt?_of_mem (h.entries.mem_iff.mpr hmem) hroot

theorem target? (hwf : fs.WellFormed) : fs'.target? = fs.target? := by
  funext p
  rw [FileSystem.target?, FileSystem.target?, locate, locate, h.workingDir]
  simp only [walkNames_congr (h.nodeAt? hwf)]

theorem isDir (hwf : fs.WellFormed) : fs'.isDir = fs.isDir := by
  funext p
  rw [FileSystem.isDir, FileSystem.isDir, h.target? hwf]

theorem isFile (hwf : fs.WellFormed) : fs'.isFile = fs.isFile := by
  funext p
  rw [FileSystem.isFile, FileSystem.isFile, h.target? hwf]

theorem listDir (hwf : fs.WellFormed) : fs'.listDir = fs.listDir := by
  funext p
  rw [FileSystem.listDir, FileSystem.listDir, h.target? hwf, h.terms]

theorem load (hwf : fs.WellFormed) : Fragment.load fs' = Fragment.load fs := by
  funext p
  rw [Fragment.load, Fragment.load, readBytes, readBytes, h.target? hwf]

theorem entryPaths (hwf : fs.WellFormed) (h' : fs.entryPaths dir = .ok paths) :
    ∃ paths', fs'.entryPaths dir = .ok paths' ∧ paths'.Perm paths := by
  obtain ⟨location, hlist, rfl⟩ := entryPaths_eq_ok_iff.mp h'
  exact ⟨_, entryPaths_eq_ok_iff.mpr ⟨location, (h.listDir hwf).symm ▸ hlist, rfl⟩,
    (h.entries.filterMap _).map _⟩

omit h in
theorem symm (h : SameFiles fs fs') : SameFiles fs' fs :=
  ⟨h.entries.symm, h.terms.symm⟩

end SameFiles

/-! ## What the system lists -/

/-- The system lists these files: of a directory it lists the entries, in some
order, unless it refuses to list it. -/
def Lists (fs : FileSystem) (list : Lister) : Prop :=
  ∀ dir paths, list dir = .ok paths →
    ∃ entries, fs.entryPaths dir = .ok entries ∧ paths.Perm entries

theorem lists_entryPaths (fs : FileSystem) : fs.Lists fs.entryPaths :=
  fun _ paths h => ⟨paths, h, .refl paths⟩

theorem SameFiles.lists (h : SameFiles fs fs') (hwf : fs.WellFormed) (hlist : fs'.Lists list) :
    fs.Lists list := by
  intro dir paths hpaths
  obtain ⟨entries, hentries, hperm⟩ := hlist dir paths hpaths
  obtain ⟨own, hown, hown'⟩ := h.symm.entryPaths (h.wellFormed hwf) hentries
  exact ⟨own, hown, hperm.trans hown'.symm⟩

/-- The entries of a directory that a list is filtered for, in the order of
the file system. -/
def entriesWith (fs : FileSystem) (keep : Path → Bool) (dir : Path) : List Path :=
  match fs.entryPaths dir with
  | .ok entries => entries.filter keep
  | .error _ => []

/-- The directories right below a root; links to directories count. -/
def directoriesIn (fs : FileSystem) (root : Path) : List Path :=
  fs.entriesWith fs.isDir root

/-- The regular files right in a directory that have the extension; links to
files count. -/
def fragmentsIn (fs : FileSystem) (extension : String) (dir : Path) : List Path :=
  fs.entriesWith (fun p => fs.isFile p && p.hasExtension extension) dir

theorem Lists.filter (hlist : fs.Lists list) (keep : Path → Bool) (h : list dir = .ok paths) :
    (paths.filter keep).Perm (fs.entriesWith keep dir) := by
  obtain ⟨entries, hentries, hperm⟩ := hlist dir paths h
  rw [entriesWith, hentries]
  exact hperm.filter keep

theorem WellFormed.entriesWith (hwf : fs.WellFormed) (keep : Path → Bool) (dir : Path) :
    (∀ p ∈ fs.entriesWith keep dir, dir.IsEntryOf p) ∧ DistinctKeys (fs.entriesWith keep dir) := by
  rw [FileSystem.entriesWith]
  split
  · next entries hentries =>
      obtain ⟨hentry, hdistinct⟩ := hwf.entryPaths hentries
      exact ⟨fun p hp => hentry p (List.mem_of_mem_filter hp),
        hdistinct.sublist (List.filter_sublist.map Path.components)⟩
  · exact ⟨fun p hp => absurd hp List.not_mem_nil, List.nodup_nil⟩

end FileSystem

/-! ## Names in a directory -/

theorem Path.fileName_of_components {name : String} (h : p.components = dir.components ++
    [.normal name]) : p.fileName = name := by
  rw [fileName, fileName?, h, List.getLast?_concat]
  rfl

/-- Entries of a directory that have the same name are the same. -/
theorem Path.IsEntryOf.components_of_fileName (hp : dir.IsEntryOf p) (hq : dir.IsEntryOf q)
    (h : p.fileName = q.fileName) : p.components = q.components := by
  obtain ⟨name, hname⟩ := hp
  obtain ⟨name', hname'⟩ := hq
  rw [fileName_of_components hname, fileName_of_components hname'] at h
  rw [hname, hname', h]

theorem Path.orderComponents_concat (before : List Component) (name name' : String) :
    orderComponents (before ++ [.normal name]) (before ++ [.normal name']) =
      compare name name' := by
  induction before with
  | nil =>
      rw [List.nil_append, List.nil_append, orderComponents, orderComponents, Component.order]
      cases compare name name' <;> rfl
  | cons first rest ih =>
      have hrefl : first.order first = .eq := Std.ReflCmp.compare_self
      rw [List.cons_append, List.cons_append, orderComponents, hrefl, ih]
      rfl

/-- The order of paths is the order of names within a directory. -/
theorem Path.IsEntryOf.lt_of_order (hp : dir.IsEntryOf p) (hq : dir.IsEntryOf q)
    (h : p.order q = .lt) : p.fileName < q.fileName := by
  obtain ⟨name, hname⟩ := hp
  obtain ⟨name', hname'⟩ := hq
  rw [order, hname, hname', orderComponents_concat] at h
  rw [fileName_of_components hname, fileName_of_components hname']
  exact compareOfLessAndEq_eq_lt.mp h

/-! ## One directory -/

namespace FileSystem.Lists

variable (hlist : fs.Lists list) (hwf : fs.WellFormed)
include hlist hwf

/-- The directories that are examined, in ascending order. -/
theorem subdirectories (h : list.subdirectories fs root = .ok dirs) :
    dirs.Perm (fs.directoriesIn root) ∧ dirs.Pairwise fun p q => p.order q = .lt := by
  rw [Lister.subdirectories] at h
  cases hlisted : list root with
  | error e =>
      rw [hlisted] at h
      cases h
  | ok listed =>
      rw [hlisted] at h
      obtain rfl := Except.ok.inj h
      have hperm : (listed.filter fs.isDir).Perm (fs.directoriesIn root) :=
        hlist.filter fs.isDir hlisted
      refine ⟨(List.mergeSort_perm _ _).trans hperm, ascending_mergeSort Path.order ?_⟩
      have hdistinct := (hwf.entriesWith fs.isDir root).2.perm hperm.symm
      refine (List.pairwise_map.mp hdistinct).imp fun hne heq => hne ?_
      exact Path.order_eq_iff.mp heq

/-- The fragments of a directory, in ascending order of their names. -/
theorem fragmentPaths (h : list.fragmentPaths fs dir extension = .ok paths) :
    paths.Perm (fs.fragmentsIn extension dir) ∧
      paths.Pairwise fun p q => compareOn Path.fileName p q = .lt := by
  rw [Lister.fragmentPaths] at h
  cases hlisted : list dir with
  | error e =>
      rw [hlisted] at h
      cases h
  | ok listed =>
      rw [hlisted] at h
      obtain rfl := Except.ok.inj h
      have hperm := hlist.filter (fun p => fs.isFile p && p.hasExtension extension) hlisted
      refine ⟨(List.mergeSort_perm _ _).trans hperm, ascending_mergeSort _ ?_⟩
      obtain ⟨hentry, hdistinct⟩ := hwf.entriesWith
        (fun p => fs.isFile p && p.hasExtension extension) dir
      refine (List.pairwise_map.mp (hdistinct.perm hperm.symm)).imp_of_mem
        fun {p q} hp hq hne heq => hne ?_
      exact (hentry p (hperm.mem_iff.mp hp)).components_of_fileName
        (hentry q (hperm.mem_iff.mp hq)) (Std.LawfulEqOrd.eq_of_compare heq)

end FileSystem.Lists

theorem Lister.isOk_fragmentPaths (list : Lister) (fs : FileSystem) (dir : Path)
    (extension : String) : (list.fragmentPaths fs dir extension).isOk = (list dir).isOk := by
  rw [fragmentPaths]
  cases list dir <;> rfl

/-- The number of fragments that are seen in a directory. -/
def FileSystem.fragmentsSeen (fs : FileSystem) (list : Lister) (extension : String)
    (dir : Path) : Nat :=
  if (list dir).isOk then (fs.fragmentsIn extension dir).length else 0

/-- A case of two fragments, all that its directory holds, in ascending order
of their names. -/
structure FileSystem.IsCase (fs : FileSystem) (extension : String) (c : Case) : Prop where
  id : c.id = c.dir.fileName
  fragments : [c.first.path, c.second.path].Perm (fs.fragmentsIn extension c.dir)
  names : c.first.name = c.first.path.fileName ∧ c.second.name = c.second.path.fileName
  ascending : c.first.name < c.second.name

/-- A directory is a case if it can be listed and holds two fragments, else it
is excluded with the number of fragments that are seen. -/
theorem FileSystem.Lists.examine_cases (hlist : fs.Lists list) (hwf : fs.WellFormed)
    (extension : String) (dir : Path) :
    (∃ c notices, list.examine fs extension dir = .case_ c notices ∧ c.dir = dir ∧
      fs.IsCase extension c ∧ (list dir).isOk = true ∧
        (fs.fragmentsIn extension dir).length = 2) ∨
    ((list.examine fs extension dir).case? = none ∧
      (list.examine fs extension dir).excluded? =
        some ⟨dir.fileName, dir, fs.fragmentsSeen list extension dir, extension⟩ ∧
      ¬ ((list dir).isOk = true ∧ (fs.fragmentsIn extension dir).length = 2)) := by
  have hok := list.isOk_fragmentPaths fs dir extension
  rw [Lister.examine, fragmentsSeen]
  cases hpaths : list.fragmentPaths fs dir extension with
  | error e =>
      rw [hpaths] at hok
      have hrefused : (list dir).isOk = false := hok.symm
      exact .inr ⟨rfl, by simp [Finding.excluded?, hrefused], by simp [hrefused]⟩
  | ok paths =>
      rw [hpaths] at hok
      have hlisted : (list dir).isOk = true := hok.symm
      obtain ⟨hperm, hascending⟩ := hlist.fragmentPaths hwf hpaths
      rw [if_pos hlisted, ← hperm.length_eq]
      by_cases htwo : paths.length = 2
      · obtain ⟨first, second, rfl⟩ := List.length_eq_two.mp htwo
        refine .inl ⟨_, _, rfl, rfl, ⟨rfl, ?_, ?_, ?_⟩, hlisted, rfl⟩
        · simpa only [Fragment.load_path] using hperm
        · simp only [Fragment.load_path, FileSystem.load_name, and_self]
        · have hlt : compareOn Path.fileName first second = .lt := by simpa using hascending
          simpa only [FileSystem.load_name] using compareOfLessAndEq_eq_lt.mp hlt
      · have hexamined : ∀ p q, paths ≠ [p, q] := by
          rintro p q rfl
          exact htwo rfl
        refine .inr ⟨?_, ?_, fun h => htwo h.2⟩
        · split
          · rfl
          · next heq => exact absurd (Except.ok.inj heq) (hexamined _ _)
          · rfl
        · split
          · next heq => cases heq
          · next heq => exact absurd (Except.ok.inj heq) (hexamined _ _)
          · next heq => rw [← Except.ok.inj heq]; rfl

section

variable (hlist : fs.Lists list) (hwf : fs.WellFormed)
include hlist hwf

theorem FileSystem.Lists.case?_examine {c : Case}
    (h : (list.examine fs extension dir).case? = some c) :
    c.dir = dir ∧ fs.IsCase extension c ∧ (list dir).isOk = true ∧
      (fs.fragmentsIn extension dir).length = 2 := by
  rcases hlist.examine_cases hwf extension dir with ⟨c', notices, hcase, hrest⟩ | ⟨hnone, -⟩
  · rw [hcase] at h
    obtain rfl := Option.some.inj h
    exact hrest
  · cases hnone.symm.trans h

theorem FileSystem.Lists.excluded?_examine {e : ExcludedCase}
    (h : (list.examine fs extension dir).excluded? = some e) :
    e = ⟨dir.fileName, dir, fs.fragmentsSeen list extension dir, extension⟩ ∧
      ¬ ((list dir).isOk = true ∧ (fs.fragmentsIn extension dir).length = 2) := by
  rcases hlist.examine_cases hwf extension dir with ⟨c, notices, hcase, -⟩ | ⟨-, hsome, hnot⟩
  · rw [hcase] at h
    cases h
  · exact ⟨(Option.some.inj (hsome.symm.trans h)).symm, hnot⟩

end

/-! ## The partition -/

/-- Cases in different directories have different fragments. -/
theorem distinct_fragmentPaths {cases : List Case} (hwf : fs.WellFormed)
    (hcase : ∀ c ∈ cases, fs.IsCase extension c) (hdirs : DistinctKeys (cases.map (·.dir))) :
    DistinctKeys ((cases.flatMap Case.fragments).map (·.path)) := by
  have hentry : ∀ c ∈ cases, ∀ p ∈ c.fragments.map (·.path), c.dir.IsEntryOf p := by
    intro c hc p hp
    refine (hwf.entriesWith _ c.dir).1 p ((hcase c hc).fragments.mem_iff.mp ?_)
    exact hp
  rw [DistinctKeys, List.map_flatMap, List.map_flatMap, List.nodup_flatMap]
  constructor
  · intro c hc
    exact (hwf.entriesWith _ c.dir).2.perm (hcase c hc).fragments.symm
  · rw [DistinctKeys, List.map_map, List.Nodup, List.pairwise_map] at hdirs
    refine hdirs.imp_of_mem fun {c c'} hc hc' hne components hmem hmem' => ?_
    obtain ⟨p, hp, rfl⟩ := List.mem_map.mp hmem
    obtain ⟨q, hq, heq⟩ := List.mem_map.mp hmem'
    exact hne ((hentry c hc p hp).components_eq (hentry c' hc' q hq) heq.symm)

/-- What discovery finds below a root: each directory is a case, or excluded
with the number of fragments seen in it, in ascending order of the names. -/
structure Discovery.IsPartition (d : Discovery) (fs : FileSystem) (list : Lister) (root : Path)
    (extension : String) : Prop where
  total : d.totalSubdirs = d.cases.length + d.excluded.length
  directories : (d.cases.map (·.dir) ++ d.excluded.map (·.dir)).Perm (fs.directoriesIn root)
  /-- No directory is in both lists, nor twice in one. -/
  distinct : DistinctKeys (d.cases.map (·.dir) ++ d.excluded.map (·.dir))
  isCase : ∀ c ∈ d.cases, fs.IsCase extension c
  case_iff : ∀ dir ∈ fs.directoriesIn root, dir ∈ d.cases.map (·.dir) ↔
    (list dir).isOk = true ∧ (fs.fragmentsIn extension dir).length = 2
  excluded : ∀ e ∈ d.excluded, e.caseId = e.dir.fileName ∧ e.extension = extension ∧
    e.found = fs.fragmentsSeen list extension e.dir
  casesAscending : d.cases.Pairwise fun c c' => c.id < c'.id
  excludedAscending : d.excluded.Pairwise fun e e' => e.caseId < e'.caseId
  fragmentPaths : DistinctKeys (d.fragments.map (·.path))

/-- The fragments of a case are in its directory, and that is below the root. -/
theorem Discovery.IsPartition.mem_of_case {d : Discovery}
    (h : d.IsPartition fs list root extension) {c : Case} (hc : c ∈ d.cases) :
    c.dir ∈ fs.directoriesIn root ∧
      ∀ f ∈ c.fragments, f.path ∈ fs.fragmentsIn extension c.dir :=
  ⟨h.directories.mem_iff.mp (List.mem_append_left _ (List.mem_map_of_mem hc)),
    fun _ hf => (h.isCase c hc).fragments.mem_iff.mp (List.mem_map_of_mem (f := Fragment.path) hf)⟩

/-- One directory that can be listed and has two fragments is one case. -/
theorem Discovery.IsPartition.cases_of_one {d : Discovery}
    (h : d.IsPartition fs list root extension) (hone : (fs.directoriesIn root).Perm [dir])
    (hlisted : (list dir).isOk = true) (htwo : (fs.fragmentsIn extension dir).length = 2) :
    ∃ c, d.cases = [c] ∧ c.dir = dir := by
  have hcase := (h.case_iff dir (hone.mem_iff.mpr (.head _))).mpr ⟨hlisted, htwo⟩
  have hall := (h.directories.trans hone).length_eq
  have hpos := List.length_pos_of_mem hcase
  have hlength : d.cases.length = 1 := by
    simp only [List.length_append, List.length_map, List.length_singleton] at hall hpos
    omega
  obtain ⟨c, hc⟩ := List.length_eq_one_iff.mp hlength
  rw [hc] at hcase
  exact ⟨c, hc, (List.mem_singleton.mp hcase).symm⟩

theorem Lister.discover_eq_ok {d : Discovery} (h : list.discover fs root extension = .ok d) :
    checkRoot fs root = .ok () ∧ ∃ dirs, list.subdirectories fs root = .ok dirs ∧
      d = .ofFindings (dirs.map (list.examine fs extension)) := by
  rw [discover, survey] at h
  cases hroot : checkRoot fs root with
  | error e =>
      rw [hroot] at h
      cases h
  | ok _ =>
      rw [hroot] at h
      cases hdirs : list.subdirectories fs root with
      | error e =>
          simp only [hdirs] at h
          cases h
      | ok dirs =>
          simp only [hdirs] at h
          exact ⟨rfl, dirs, rfl, (Except.ok.inj h).symm⟩

theorem Lister.discover_of_parts (hroot : checkRoot fs root = .ok ())
    (hdirs : list.subdirectories fs root = .ok dirs) : list.discover fs root extension =
      .ok (.ofFindings (dirs.map (list.examine fs extension))) := by
  rw [discover, survey, hroot]
  simp only [hdirs]
  rfl

/-- Every directory goes into one of the two lists. -/
theorem FileSystem.Lists.perm_ofFindings (hlist : fs.Lists list) (hwf : fs.WellFormed)
    (extension : String) (dirs : List Path) :
    let d := Discovery.ofFindings (dirs.map (list.examine fs extension))
    (d.cases.map (·.dir) ++ d.excluded.map (·.dir)).Perm dirs := by
  induction dirs with
  | nil => exact .nil
  | cons dir rest ih =>
      simp only [Discovery.ofFindings, List.map_cons] at ih ⊢
      rcases hlist.examine_cases hwf extension dir with
        ⟨c, notices, hcase, rfl, -⟩ | ⟨hnone, hsome, -⟩
      · rw [hcase]
        exact ih.cons c.dir
      · rw [List.filterMap_cons_none hnone, List.filterMap_cons_some hsome, List.map_cons]
        exact List.perm_middle.trans (ih.cons dir)

theorem FileSystem.Lists.isPartition {d : Discovery} (hlist : fs.Lists list) (hwf : fs.WellFormed)
    (h : list.discover fs root extension = .ok d) : d.IsPartition fs list root extension := by
  obtain ⟨-, dirs, hdirs, rfl⟩ := Lister.discover_eq_ok h
  obtain ⟨hperm, hascending⟩ := hlist.subdirectories hwf hdirs
  obtain ⟨hentry, hdistinct⟩ := hwf.entriesWith fs.isDir root
  have hdirectories := (hlist.perm_ofFindings hwf extension dirs).trans hperm
  have hnames : dirs.Pairwise fun p q => p.fileName < q.fileName :=
    hascending.imp_of_mem fun {p q} hp hq hlt => (hentry p (hperm.mem_iff.mp hp)).lt_of_order
      (hentry q (hperm.mem_iff.mp hq)) hlt
  have hfindings : ∀ finding ∈ dirs.map (list.examine fs extension),
      ∃ dir ∈ dirs, list.examine fs extension dir = finding := fun _ => List.mem_map.mp
  have hcase : ∀ c ∈ (Discovery.ofFindings (dirs.map (list.examine fs extension))).cases,
      fs.IsCase extension c ∧ (list c.dir).isOk = true ∧
        (fs.fragmentsIn extension c.dir).length = 2 := by
    intro c hc
    obtain ⟨finding, hfinding, hsome⟩ := List.mem_filterMap.mp hc
    obtain ⟨dir, -, rfl⟩ := hfindings finding hfinding
    obtain ⟨rfl, hrest⟩ := hlist.case?_examine hwf hsome
    exact hrest
  have hexcluded : ∀ e ∈ (Discovery.ofFindings (dirs.map (list.examine fs extension))).excluded,
      e = ⟨e.dir.fileName, e.dir, fs.fragmentsSeen list extension e.dir, extension⟩ ∧
        ¬ ((list e.dir).isOk = true ∧ (fs.fragmentsIn extension e.dir).length = 2) := by
    intro e he
    obtain ⟨finding, hfinding, hsome⟩ := List.mem_filterMap.mp he
    obtain ⟨dir, -, rfl⟩ := hfindings finding hfinding
    obtain ⟨rfl, hnot⟩ := hlist.excluded?_examine hwf hsome
    exact ⟨rfl, hnot⟩
  have hkeys := hdistinct.perm hdirectories.symm
  exact {
    total := Discovery.ofFindings_total _
    directories := hdirectories
    distinct := hkeys
    isCase := fun c hc => (hcase c hc).1
    case_iff := by
      intro dir hdir
      constructor
      · intro hmem
        obtain ⟨c, hc, rfl⟩ := List.mem_map.mp hmem
        exact (hcase c hc).2
      · intro htwo
        refine (List.mem_append.mp (hdirectories.mem_iff.mpr hdir)).resolve_right fun hmem => ?_
        obtain ⟨e, he, rfl⟩ := List.mem_map.mp hmem
        exact (hexcluded e he).2 htwo
    excluded := by
      intro e he
      obtain ⟨heq, -⟩ := hexcluded e he
      exact ⟨congrArg ExcludedCase.caseId heq, congrArg ExcludedCase.extension heq,
        congrArg ExcludedCase.found heq⟩
    casesAscending := by
      show ((dirs.map (list.examine fs extension)).filterMap Finding.case?).Pairwise _
      rw [List.filterMap_map, List.pairwise_filterMap]
      refine hnames.imp fun {p q} hlt c hc c' hc' => ?_
      obtain ⟨rfl, hp, -⟩ := hlist.case?_examine hwf hc
      obtain ⟨rfl, hq, -⟩ := hlist.case?_examine hwf hc'
      rw [hp.id, hq.id]
      exact hlt
    excludedAscending := by
      show ((dirs.map (list.examine fs extension)).filterMap Finding.excluded?).Pairwise _
      rw [List.filterMap_map, List.pairwise_filterMap]
      refine hnames.imp fun {p q} hlt e he e' he' => ?_
      obtain ⟨rfl, -⟩ := hlist.excluded?_examine hwf he
      obtain ⟨rfl, -⟩ := hlist.excluded?_examine hwf he'
      exact hlt
    fragmentPaths := by
      refine distinct_fragmentPaths hwf (fun c hc => (hcase c hc).1) ?_
      exact hkeys.sublist ((List.sublist_append_left _ _).map Path.components) }

/-! ## Two listings -/

/-- Two systems that refuse the same directories examine a directory alike. -/
theorem FileSystem.Lists.examine_eq (hlist : fs.Lists list) (hlist' : fs.Lists list')
    (hwf : fs.WellFormed) (hsame : (list' dir).isOk = (list dir).isOk) (extension : String) :
    (list'.examine fs extension dir).case? = (list.examine fs extension dir).case? ∧
      (list'.examine fs extension dir).excluded? =
        (list.examine fs extension dir).excluded? := by
  have hok := list.isOk_fragmentPaths fs dir extension
  have hok' := list'.isOk_fragmentPaths fs dir extension
  rw [hsame, ← hok] at hok'
  rw [Lister.examine, Lister.examine]
  cases hpaths : list.fragmentPaths fs dir extension with
  | error e =>
      cases hpaths' : list'.fragmentPaths fs dir extension with
      | error e' => exact ⟨rfl, rfl⟩
      | ok paths' =>
          rw [hpaths, hpaths'] at hok'
          cases hok'
  | ok paths =>
      cases hpaths' : list'.fragmentPaths fs dir extension with
      | error e' =>
          rw [hpaths, hpaths'] at hok'
          cases hok'
      | ok paths' =>
          obtain ⟨hperm, hascending⟩ := hlist.fragmentPaths hwf hpaths
          obtain ⟨hperm', hascending'⟩ := hlist'.fragmentPaths hwf hpaths'
          have hmem : ∀ p, p ∈ paths' ↔ p ∈ paths := fun p =>
            (hperm'.trans hperm.symm).mem_iff
          rw [eq_of_ascending _ hascending' hascending hmem]
          exact ⟨rfl, rfl⟩

/-- What discovery finds does not depend on the order in which the system
lists directories. -/
theorem FileSystem.Lists.discover_eq {d : Discovery} (hlist : fs.Lists list)
    (hlist' : fs.Lists list') (hwf : fs.WellFormed)
    (hsame : ∀ dir, (list' dir).isOk = (list dir).isOk)
    (h : list.discover fs root extension = .ok d) :
    list'.discover fs root extension = .ok d := by
  obtain ⟨hroot, dirs, hdirs, rfl⟩ := Lister.discover_eq_ok h
  have hdirs' : list'.subdirectories fs root = .ok dirs := by
    cases hother : list'.subdirectories fs root with
    | error e =>
        rw [Lister.subdirectories] at hdirs hother
        have hrefused := hsame root
        cases hlisted : list root with
        | error _ => rw [hlisted] at hdirs; cases hdirs
        | ok _ =>
            cases hlisted' : list' root with
            | error _ => rw [hlisted, hlisted'] at hrefused; cases hrefused
            | ok _ => rw [hlisted'] at hother; cases hother
    | ok dirs' =>
        obtain ⟨hperm, hascending⟩ := hlist.subdirectories hwf hdirs
        obtain ⟨hperm', hascending'⟩ := hlist'.subdirectories hwf hother
        have hmem : ∀ p, p ∈ dirs' ↔ p ∈ dirs := fun p => (hperm'.trans hperm.symm).mem_iff
        rw [eq_of_ascending Path.order hascending' hascending hmem]
  rw [Lister.discover_of_parts hroot hdirs']
  simp only [Discovery.ofFindings, List.filterMap_map, List.length_map, Function.comp_def,
    (hlist.examine_eq hlist' hwf (hsame _) extension).1,
    (hlist.examine_eq hlist' hwf (hsame _) extension).2]

namespace FileSystem.SameFiles

variable (h : SameFiles fs fs') (hwf : fs.WellFormed)
include h hwf

/-- The order of the entries shows in what is listed, and nowhere else. -/
theorem discover_listed (list : Lister) (root : Path) (extension : String) :
    list.discover fs' root extension = list.discover fs root extension := by
  have hroot : checkRoot fs' root = checkRoot fs root := by
    rw [checkRoot, checkRoot, pathExists, pathExists, h.target? hwf, h.isDir hwf]
  have hdirs : list.subdirectories fs' root = list.subdirectories fs root := by
    rw [Lister.subdirectories, Lister.subdirectories, h.isDir hwf]
  have hfindings : ∀ dir, (list.examine fs' extension dir).case? =
        (list.examine fs extension dir).case? ∧
      (list.examine fs' extension dir).excluded? = (list.examine fs extension dir).excluded? := by
    intro dir
    have hpaths : list.fragmentPaths fs' dir extension = list.fragmentPaths fs dir extension := by
      rw [Lister.fragmentPaths, Lister.fragmentPaths, h.isFile hwf]
    rw [Lister.examine, Lister.examine, hpaths, h.load hwf]
    split <;> exact ⟨rfl, rfl⟩
  rw [Lister.discover, Lister.discover, Lister.survey, Lister.survey, hroot, hdirs]
  cases checkRoot fs root with
  | error e => rfl
  | ok _ =>
      cases list.subdirectories fs root with
      | error e => rfl
      | ok dirs =>
          simp only [Except.map, Discovery.ofFindings, List.filterMap_map, List.length_map,
            Function.comp_def, (hfindings _).1, (hfindings _).2]

theorem isOk_entryPaths (dir : Path) : (fs'.entryPaths dir).isOk = (fs.entryPaths dir).isOk := by
  rw [FileSystem.entryPaths, FileSystem.entryPaths, readDir, readDir, h.listDir hwf]
  cases fs.listDir dir <;> rfl

theorem discover (root : Path) (extension : String) :
    discover fs' root extension = discover fs root extension := by
  have hlist : fs.Lists fs'.entryPaths := h.lists hwf fs'.lists_entryPaths
  show Lister.discover fs'.entryPaths fs' root extension =
    Lister.discover fs.entryPaths fs root extension
  rw [h.discover_listed hwf]
  cases hroot : fs.listDir root with
  | error e =>
      have hrefused : fs.entryPaths root = .error e := entryPaths_eq_error_iff.mpr hroot
      have hrefused' : fs'.entryPaths root = .error e := by
        rw [entryPaths_eq_error_iff, h.listDir hwf]
        exact hroot
      simp only [Lister.discover, Lister.survey, Lister.subdirectories, hrefused, hrefused']
      cases checkRoot fs root <;> rfl
  | ok location =>
      obtain ⟨findings, hsurvey⟩ := survey_eq_ok_iff.mpr ⟨location, hroot⟩
      have hfound : Lister.discover fs.entryPaths fs root extension =
          .ok (.ofFindings findings) := congrArg (Except.map Discovery.ofFindings) hsurvey
      rw [hfound]
      exact fs.lists_entryPaths.discover_eq hlist hwf (h.isOk_entryPaths hwf) hfound

end FileSystem.SameFiles

/-! ## Every order of listing -/

/-- Discovery finds the same in whatever order the system lists directories,
and whichever directories it refuses to list: the directories below the root,
partitioned into cases and excluded directories by what the files are. -/
theorem discover_every_order (fs : FileSystem) (root : Path) (extension : String)
    (hwf : fs.WellFormed) :
    (∀ fs', fs.SameFiles fs' → discover fs' root extension = discover fs root extension) ∧
    (∀ d, discover fs root extension = .ok d → d.IsPartition fs fs.entryPaths root extension) ∧
    ∀ list d, fs.Lists list → list.discover fs root extension = .ok d →
      d.IsPartition fs list root extension ∧
        ∀ fs' list', fs.SameFiles fs' → fs'.Lists list' →
          (∀ dir, (list' dir).isOk = (list dir).isOk) →
            list'.discover fs' root extension = .ok d := by
  refine ⟨fun fs' h => h.discover hwf root extension, fun d hfound => ?_,
    fun list d hlist hfound => ⟨hlist.isPartition hwf hfound, ?_⟩⟩
  · exact fs.lists_entryPaths.isPartition hwf hfound
  · intro fs' list' h hlist' hsame
    rw [h.discover_listed hwf]
    exact hlist.discover_eq (h.lists hwf hlist') hwf hsame hfound

/-- The sample with its entries the other way round has the same case. Where
the system refuses to list the directory of that case, it is excluded with no
fragment. -/
theorem discover_every_order_sample :
    let reversed : FileSystem := { sampleFiles with entries := sampleFiles.entries.reverse }
    let refusing : Lister := fun dir =>
      if dir = ⟨"/r/a"⟩ then .error .accessDenied else sampleFiles.entryPaths dir
    sampleFiles.WellFormed ∧ sampleFiles.SameFiles reversed ∧ sampleFiles.Lists refusing ∧
      (∃ d, discover reversed ⟨"/r"⟩ "go" = .ok d ∧ d.cases = [sampleCase] ∧
        d.IsPartition sampleFiles sampleFiles.entryPaths ⟨"/r"⟩ "go") ∧
      ∃ d, refusing.discover sampleFiles ⟨"/r"⟩ "go" = .ok d ∧
        d.IsPartition sampleFiles refusing ⟨"/r"⟩ "go" ∧ d.cases = [] ∧
        d.excluded = [⟨"a", ⟨"/r/a"⟩, 0, "go"⟩] ∧
        refusing.discover reversed ⟨"/r"⟩ "go" = .ok d := by
  intro reversed refusing
  have hwf : sampleFiles.WellFormed := ⟨by decide, by decide, nofun⟩
  have hsame : sampleFiles.SameFiles reversed := ⟨List.reverse_perm _, rfl⟩
  obtain ⟨hevery, hown, hlisted⟩ := discover_every_order sampleFiles ⟨"/r"⟩ "go" hwf
  obtain ⟨findings, hsurvey, hcases⟩ := survey_sample
  have hfound : discover sampleFiles ⟨"/r"⟩ "go" = .ok (.ofFindings findings) := by
    rw [discover, hsurvey]
    rfl
  have hrefusing : sampleFiles.Lists refusing := by
    intro dir paths hpaths
    by_cases hdir : dir = ⟨"/r/a"⟩
    · simp [refusing, hdir] at hpaths
    · exact ⟨paths, by simpa [refusing, hdir] using hpaths, .refl paths⟩
  obtain ⟨hroot, hdir, hentries⟩ := root_sample
  have hdirs : refusing.subdirectories sampleFiles ⟨"/r"⟩ = .ok [⟨"/r/a"⟩] := by
    simp [Lister.subdirectories, refusing, hentries, Except.map, FileSystem.isDir, hdir]
  have hname : (Path.mk "/r/a").fileName = "a" := by
    decide
  have hexamined : refusing.examine sampleFiles "go" ⟨"/r/a"⟩ =
      .unlistable ⟨"a", ⟨"/r/a"⟩, 0, "go"⟩ .accessDenied := by
    simp [Lister.examine, Lister.fragmentPaths, refusing, Except.map, hname]
  have hcheck : checkRoot sampleFiles ⟨"/r"⟩ = .ok () :=
    checkRoot_eq_ok_iff.mpr (FileSystem.isDir_iff.mpr ⟨["r"], hroot⟩)
  have hrefused : refusing.discover sampleFiles ⟨"/r"⟩ "go" =
      .ok (.ofFindings [refusing.examine sampleFiles "go" ⟨"/r/a"⟩]) :=
    Lister.discover_of_parts hcheck hdirs
  obtain ⟨hpartition, hagain⟩ := hlisted refusing _ hrefusing hrefused
  refine ⟨hwf, hsame, hrefusing, ⟨_, (hevery reversed hsame).trans hfound, hcases,
    hown _ hfound⟩, _, hrefused, hpartition, ?_, ?_, ?_⟩
  · simp [Discovery.ofFindings, hexamined, Finding.case?]
  · simp [Discovery.ofFindings, hexamined, Finding.excluded?]
  · refine hagain reversed refusing hsame ?_ fun dir => rfl
    exact hsame.symm.lists (hsame.wellFormed hwf) hrefusing

end RaceSkeletons
