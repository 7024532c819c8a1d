import RaceSkeletons.Proofs.Corpus.Blocks
import RaceSkeletons.Proofs.Corpus.Headers
import RaceSkeletons.Proofs.Corpus.Links
import RaceSkeletons.Proofs.Run.Headers

/-!
# The statistics of a normalization

Normalization visits the fragments one after the other, and each visit starts from the files
that the last one left (`NormalizesInTurn`). What a visit adds to the statistics depends on
how the checker's run ended and on whether a header was added, and on nothing else: the
statistics balance with any visits of different paths (`NormalizeReport.balances`).

No path is visited twice, since a walk tells paths apart by their components. The visited paths
are the fragments under the root as the renames left it, and a root without cycles gets none
from renames (`FileSystem.IsAcyclic.of_isRenamed`).
-/

namespace RaceSkeletons

open FileSystem PathMap

variable {fs after before final : FileSystem} {root p : Path} {location : Location}
  {node : Node} {trail : List Location} {extension text : String} {host : Host}
  {checker : SyntaxChecker}

/-! ## Fragments after the renames -/

namespace FileSystem

theorem IsRenamed.target? (h : IsRenamed before fs) (hdir : fs.target? p = .ok (location, .dir)) :
    before.target? p = .ok (location, .dir) := by
  obtain ⟨hp, hleads⟩ := target?_eq_ok_iff.mp hdir
  exact target?_eq_ok_iff.mpr ⟨hp, h.startOf_eq p ▸ h.leads hleads⟩

/-- A directory under the root was there before the renames. -/
theorem IsRenamed.liesUnder (h : IsRenamed before fs) (hwf : fs.WellFormed)
    (hacyclic : before.IsAcyclic root) (hunder : LiesUnder fs root trail p node)
    (hdir : fs.target? p = .ok (location, .dir)) :
    ∃ node', LiesUnder before root trail p node' := by
  induction hunder generalizing location with
  | root =>
      obtain ⟨place, node', hlocate⟩ := exists_locate_of_target? (h.target? hdir)
      exact ⟨node', .root hlocate⟩
  | @entry trail dir _ _ around name _ listed _ there ih =>
      obtain ⟨houter, hlisted⟩ := listDir_eq_ok_iff.mp listed
      obtain ⟨outer', hunder⟩ := ih houter
      have haround := h.target? houter
      have hlist := listDir_eq_ok_iff.mpr ⟨haround, (isListed_congr h.terms).mp hlisted⟩
      have htarget := h.target? hdir
      rcases location_of_entry (opens_of_target? haround) (hwf.isEntryName there) htarget with
        rfl | ⟨target, hlocate⟩
      · exact ⟨_, hacyclic.entry hunder hlist (nodeAt?_of_target? htarget)⟩
      · exact ⟨_, hacyclic.entry hunder hlist (node_eq_of_locate hlocate).symm⟩

/-- Renames make no cycles. -/
theorem IsAcyclic.of_isRenamed (hacyclic : before.IsAcyclic root) (h : IsRenamed before fs)
    (hwf : fs.WellFormed) : fs.IsAcyclic root := by
  intro trail p node location hunder hdir
  obtain ⟨node', hbefore⟩ := h.liesUnder hwf hacyclic hunder hdir
  exact hacyclic _ _ _ _ hbefore (h.target? hdir)

end FileSystem

namespace Path

variable {name : String}

theorem no_slash_of_fileName? (h : p.fileName? = some name) : '/' ∉ name.toList := by
  have hlast : p.components.getLast? = some (.normal name) := by
    rw [fileName?] at h
    split at h
    · next hlast => rw [hlast, Option.some.inj h]
    · cases h
  have hbody : .normal name ∈ p.segments.filterMap componentOf? := by
    have hmem := List.mem_of_getLast? hlast
    rw [components] at hmem
    split at hmem
    · exact List.mem_of_ne_of_mem Component.noConfusion hmem
    · split at hmem
      · exact List.mem_of_ne_of_mem Component.noConfusion hmem
      · exact hmem
  obtain ⟨segment, hmem, hcomponent⟩ := List.mem_filterMap.mp hbody
  rw [componentOf?] at hcomponent
  split at hcomponent
  · cases hcomponent
  · split at hcomponent
    · cases hcomponent
    · obtain rfl := Component.normal.inj (Option.some.inj hcomponent)
      exact no_slash_of_mem_segments hmem

/-- The extension of a name is a part of it. -/
theorem subset_of_extensionOfName? {name extension : List Char}
    (h : extensionOfName? name = some extension) : extension ⊆ name := by
  intro c hc
  rw [extensionOfName?] at h
  split at h
  · cases h
  · cases h
  · rw [← Option.some.inj h, List.mem_reverse] at hc
    exact List.mem_reverse.mp (List.takeWhile_subset _ hc)

theorem no_slash_of_hasExtension (h : p.hasExtension extension = true) :
    '/' ∉ extension.toList := by
  rw [hasExtension] at h
  split at h
  · cases h
  · next name hname =>
      exact fun hslash => no_slash_of_fileName? hname
        (subset_of_extensionOfName? (beq_iff_eq.mp h) hslash)

end Path

/-- The fragments that normalization visits are those under the root, each path once. -/
theorem FileSystem.WellFormed.fragmentsBelow (hwf : fs.WellFormed) (root : Path)
    (extension : String) : DistinctKeys (fragmentsBelow fs root extension) ∧
      ∀ p, p ∈ fragmentsBelow fs root extension ↔ fs.IsFragmentUnder root extension p := by
  constructor
  · exact (hwf.distinct_files_walk byName root).sublist (List.filter_sublist.map _)
  · intro p
    rw [RaceSkeletons.fragmentsBelow, List.mem_filter, mem_files_walk, hwf.mem_walk_iff]
    exact ⟨fun h => ⟨h.1, h.2⟩, fun h => ⟨h.under, h.hasExtension⟩⟩

/-- In a tree without cycles, they are all that go down from the root after the renames. -/
theorem FileSystem.IsAcyclic.isFragmentUnder_renamed (hacyclic : fs.IsAcyclic root)
    (hwf : fs.WellFormed) (hclosed : fs.Closed) (hroot : fs.isDir root = true) :
    let renamed := (renameFiles fs root extension).1
    renamed.IsFragmentUnder root extension p ↔
      (∃ node, Descends renamed root p node ∧ renamed.ShowsFile p node) ∧
        p.hasExtension extension = true := by
  intro renamed
  by_cases hextension : p.hasExtension extension = true
  · have hslash := Path.no_slash_of_hasExtension hextension
    exact (hacyclic.of_isRenamed (hwf.isRenamed_renameFiles hclosed hslash hroot)
      (hwf.renameEach extension _)).isFragmentUnder_iff
  · exact iff_of_false (fun h => hextension h.hasExtension) fun h => hextension h.2

/-! ## Verdicts -/

/-- Whether the checker has something to say against a fragment, or is there but could not be
asked. -/
def ToolRun.rejects : ToolRun → Bool
  | .notStarted error => error ≠ .notFound
  | .timedOut => true
  | .ended status _ _ => status ≠ some 0

theorem SyntaxChecker.verdictOf_ended (c : SyntaxChecker) (status : Option Int)
    (stdout stderr : Bytes) : c.verdictOf (.ended status stdout stderr) =
      .ok (if status = some 0 then .valid else .invalid (diagnosticText stderr)) := by
  by_cases hzero : status = some 0
  · subst hzero
    rfl
  · rw [if_neg hzero]
    unfold verdictOf
    split <;> simp_all

namespace FragmentReport

variable {r : FragmentReport} {run : ToolRun}

theorem isSome_rejection? (h : r.check = checker.verdictOf run) :
    r.rejection?.isSome = run.rejects := by
  rw [rejection?, h]
  cases run with
  | notStarted error =>
      by_cases hmissing : error = .notFound
      · subst hmissing
        rfl
      · simp [SyntaxChecker.verdictOf, ToolRun.rejects, hmissing]
  | timedOut => rfl
  | ended status stdout stderr =>
      rw [SyntaxChecker.verdictOf_ended]
      by_cases hzero : status = some 0
      · simp [ToolRun.rejects, hzero]
      · simp [ToolRun.rejects, hzero]

theorem isUnchecked_iff (h : r.check = checker.verdictOf run) :
    r.isUnchecked = true ↔ run = .notStarted .notFound := by
  rw [isUnchecked, h]
  cases run with
  | notStarted error =>
      by_cases hmissing : error = .notFound
      · simp [SyntaxChecker.verdictOf, hmissing]
      · simp [SyntaxChecker.verdictOf, hmissing]
  | timedOut => simp [SyntaxChecker.verdictOf]
  | ended status stdout stderr =>
      rw [SyntaxChecker.verdictOf_ended]
      by_cases hzero : status = some 0
      · simp [hzero]
      · simp [hzero]

end FragmentReport

/-! ## Statistics -/

/-- A visit of a fragment: what was done, and how the checker's run ended. -/
structure FragmentVisit where
  report : FragmentReport
  run : ToolRun

/-- Statistics that can be recounted in the visits of the fragments. -/
structure NormalizeStats.Balances (s : NormalizeStats) (visits : List FragmentVisit) : Prop where
  totalFiles : s.totalFiles = visits.length
  checked : s.totalFiles = s.parsedSuccess + s.parseErrors
  parseErrors : s.parseErrors = visits.countP (·.run.rejects)
  detailCount : s.parseErrorDetails.size = s.parseErrors
  /-- The keys are the paths whose check failed. -/
  detailKeys : s.parseErrorDetails.keys.Perm
    ((visits.filter (·.run.rejects)).map (·.report.path))
  details : ∀ v ∈ visits, v.run.rejects = true →
    s.parseErrorDetails.get? v.report.path = v.report.rejection?
  packageUpdates : s.packageUpdates = visits.countP (·.report.hasNewHeader)
  packageUpdates_le : s.packageUpdates ≤ s.totalFiles
  checkerAvailable : s.checkerAvailable = false ↔ ∃ v ∈ visits, v.run = .notStarted .notFound

namespace NormalizeReport

variable {report : NormalizeReport} {visits : List FragmentVisit}

theorem keys_rejections (r : NormalizeReport) : r.rejections.map (·.1) =
    (r.fragments.filter (·.rejection?.isSome)).map (·.path) := by
  rw [rejections]
  induction r.fragments with
  | nil => rfl
  | cons f rest ih =>
      cases hrejection : f.rejection? with
      | none =>
          rw [List.filterMap_cons_none (by rw [hrejection]; rfl),
            List.filter_cons_of_neg (by simp [hrejection]), ih]
      | some message =>
          rw [List.filterMap_cons_some (b := (f.path, message)) (by rw [hrejection]; rfl),
            List.filter_cons_of_pos (by simp [hrejection]), List.map_cons, List.map_cons, ih]

/-- Whatever was done to the fragments, the statistics balance if their paths are different. -/
theorem balances (hfragments : report.fragments = visits.map (·.report))
    (hcheck : ∀ v ∈ visits, v.report.check = checker.verdictOf v.run)
    (hdistinct : DistinctKeys (visits.map (·.report.path))) : report.stats.Balances visits := by
  have hrejects : ∀ v ∈ visits, v.report.rejection?.isSome = v.run.rejects := fun v hv =>
    FragmentReport.isSome_rejection? (hcheck v hv)
  have hkeys : report.rejections.map (·.1) =
      (visits.filter (·.run.rejects)).map (·.report.path) := by
    rw [keys_rejections, hfragments, List.filter_map, List.map_map]
    exact congrArg _ (List.filter_congr hrejects)
  have hdistinctKeys : DistinctKeys (report.rejections.map (·.1)) := by
    rw [hkeys]
    exact hdistinct.sublist ((List.filter_sublist.map _).map _)
  have hcount : report.rejections.length = visits.countP (·.run.rejects) := by
    rw [← List.length_map (·.1), hkeys, List.length_map, List.countP_eq_length_filter]
  have hlength : report.fragments.length = visits.length := by
    rw [hfragments, List.length_map]
  exact {
    totalFiles := hlength
    checked := by
      have hall := List.length_eq_countP_add_countP (fun f => f.rejection?.isNone)
        (l := report.fragments)
      have hsome : report.fragments.countP (fun f => ¬ f.rejection?.isNone) =
          visits.countP (·.run.rejects) := by
        rw [hfragments, List.countP_map]
        refine List.countP_congr fun v hv => ?_
        rw [← hrejects v hv]
        cases hrejection : v.report.rejection? <;> simp [hrejection]
      rw [hsome, ← hcount] at hall
      exact hall
    parseErrors := hcount
    detailCount := size_ofList hdistinctKeys
    detailKeys := by
      rw [← hkeys]
      exact (ofList_perm hdistinctKeys).map (·.1)
    details := by
      intro v hv hrejected
      obtain ⟨message, hmessage⟩ := Option.isSome_iff_exists.mp ((hrejects v hv).trans hrejected)
      have hmem : (v.report.path, message) ∈ report.rejections := by
        rw [rejections, hfragments]
        exact List.mem_filterMap.mpr ⟨v.report, List.mem_map_of_mem hv, by rw [hmessage]; rfl⟩
      have hget := get?_ofList_of_mem hdistinctKeys hmem
      rw [hmessage]
      exact hget
    packageUpdates := by
      rw [stats, hfragments, List.countP_map]
      rfl
    packageUpdates_le := List.countP_le_length
    checkerAvailable := by
      rw [stats, Bool.not_eq_false', hfragments, List.any_map, List.any_eq_true]
      exact exists_congr fun v => and_congr_right fun hv =>
        FragmentReport.isUnchecked_iff (hcheck v hv) }

/-- What became of headers and comments has a part in no counter but that of the headers. -/
theorem stats_of_checks {other : NormalizeReport}
    (h : other.fragments.map (fun r => (r.path, r.check)) =
      report.fragments.map fun r => (r.path, r.check)) :
    other.stats = { report.stats with
      filesRenamed := other.renames.count
      packageUpdates := other.fragments.countP FragmentReport.hasNewHeader } := by
  -- a report of the path and the check alone
  let bare (key : Path × Except ToolFailure SyntaxVerdict) : FragmentReport :=
    ⟨key.1, .ok false, .ok false, key.2⟩
  have hbare : (other.fragments.map fun r => bare (r.path, r.check)) =
      report.fragments.map fun r => bare (r.path, r.check) := by
    have hmap := congrArg (List.map bare) h
    rwa [List.map_map, List.map_map] at hmap
  have hlength := congrArg List.length h
  have hparsed := congrArg (List.countP fun r => r.rejection?.isNone) hbare
  have hrejections := congrArg
    (List.filterMap fun r => r.rejection?.map fun message => (r.path, message)) hbare
  have hunchecked := congrArg (List.any · FragmentReport.isUnchecked) hbare
  rw [List.length_map, List.length_map] at hlength
  rw [List.countP_map, List.countP_map] at hparsed
  rw [List.filterMap_map, List.filterMap_map] at hrejections
  simp only [List.any_map] at hunchecked
  have hrejections' : other.rejections = report.rejections := hrejections
  rw [stats, stats, hrejections', hlength]
  congr 1
  · exact congrArg not hunchecked

end NormalizeReport

/-! ## One visit after the other -/

/-- One visit, from the files before it to those after it. The header and the comments are seen
to, one after the other, and either may fail: because the file cannot be read, because it
cannot be opened for writing, or halfway. The check is made afterwards in any case. -/
structure IsVisit (host : Host) (checker : SyntaxChecker) (fs : FileSystem) (v : FragmentVisit)
    (after : FileSystem) : Prop where
  rewrites : ∃ headed, Rewrites insertHeader v.report.path fs headed v.report.header ∧
    Rewrites stripComments v.report.path headed after v.report.strip
  isRun : v.run = host after (checker.command v.report.path)
  isVerdict : v.report.check = checker.verdictOf v.run

/-- Visits of fragments one after the other. -/
inductive NormalizesInTurn (host : Host) (checker : SyntaxChecker) :
    FileSystem → List FragmentVisit → FileSystem → Prop where
  | done {fs : FileSystem} : NormalizesInTurn host checker fs [] fs
  | visit {fs after final : FileSystem} {v : FragmentVisit} {visits : List FragmentVisit}
      (first : IsVisit host checker fs v after)
      (rest : NormalizesInTurn host checker after visits final) :
      NormalizesInTurn host checker fs (v :: visits) final

theorem isVisit_normalizeFragment (host : Host) (checker : SyntaxChecker) (fs : FileSystem)
    (p : Path) :
    IsVisit host checker fs
      ⟨(normalizeFragment host checker fs p).2,
        host (normalizeFragment host checker fs p).1 (checker.command p)⟩
      (normalizeFragment host checker fs p).1 where
  rewrites := rewrites_normalizeFragment host checker fs p
  isRun := rfl
  isVerdict := rfl

theorem normalizesInTurn_normalizeEach (host : Host) (checker : SyntaxChecker) (files : List Path) :
    ∀ fs : FileSystem, ∃ visits : List FragmentVisit,
      (normalizeEach host checker fs files).2 = visits.map (·.report) ∧
      visits.map (·.report.path) = files ∧
      NormalizesInTurn host checker fs visits (normalizeEach host checker fs files).1 := by
  induction files with
  | nil => exact fun fs => ⟨[], rfl, rfl, .done⟩
  | cons p files ih =>
      intro fs
      obtain ⟨visits, hreports, hpaths, hturn⟩ := ih (normalizeFragment host checker fs p).1
      refine ⟨⟨(normalizeFragment host checker fs p).2, _⟩ :: visits, ?_, ?_,
        .visit (isVisit_normalizeFragment host checker fs p) hturn⟩
      · rw [normalizeEach, List.map_cons, ← hreports]
      · rw [List.map_cons, hpaths]
        rfl

/-- Each of the visits is made from some files to some others. -/
theorem NormalizesInTurn.isVisit {visits : List FragmentVisit}
    (h : NormalizesInTurn host checker fs visits final) :
    ∀ v ∈ visits, ∃ earlier later, IsVisit host checker earlier v later := by
  induction h with
  | done => exact List.forall_mem_nil _
  | visit first _ ih => exact List.forall_mem_cons.mpr ⟨⟨_, _, first⟩, ih⟩

theorem NormalizesInTurn.isVerdict {visits : List FragmentVisit}
    (h : NormalizesInTurn host checker fs visits final) {v : FragmentVisit} (hv : v ∈ visits) :
    v.report.check = checker.verdictOf v.run := by
  obtain ⟨_, _, hvisit⟩ := h.isVisit v hv
  exact hvisit.isVerdict

/-- **The statistics of a normalization balance.** Whatever the checker does on each file, the
fragments under the root, as the renames left it, are visited one after the other, and no path
twice; in a tree without cycles these are all files with the extension that go down from the
root. The number of fragments is that of the visits, and that of the accepted ones and the
rejected ones together. There is one detail for each path whose check failed, with its message.
The new headers are counted, and the checker is unavailable exactly if a check found none.

Files that cannot be read or written make no difference: visits with the same paths and checks
give the same statistics, but for the number of new headers. -/
theorem normalizeCorpus_balances (hwf : fs.WellFormed) (root : Path) (extension : String)
    (host : Host) (checker : SyntaxChecker) :
    let renamed := (renameFiles fs root extension).1
    let final := (normalizeCorpus host checker fs root extension).1
    let report := (normalizeCorpus host checker fs root extension).2
    ∃ visits : List FragmentVisit, report.fragments = visits.map (·.report) ∧
      NormalizesInTurn host checker renamed visits final ∧
      DistinctKeys (visits.map (·.report.path)) ∧
      (∀ p, p ∈ visits.map (·.report.path) ↔ renamed.IsFragmentUnder root extension p) ∧
      (fs.Closed → fs.isDir root = true → fs.IsAcyclic root → ∀ p,
        p ∈ visits.map (·.report.path) ↔
          (∃ node, Descends renamed root p node ∧ renamed.ShowsFile p node) ∧
            p.hasExtension extension = true) ∧
      report.stats.Balances visits ∧
      ∀ other : NormalizeReport,
        (other.fragments.map fun r => (r.path, r.check)) =
          (report.fragments.map fun r => (r.path, r.check)) →
        other.stats = { report.stats with
          filesRenamed := other.renames.count
          packageUpdates := other.fragments.countP FragmentReport.hasNewHeader } := by
  intro renamed final report
  obtain ⟨visits, hreports, hpaths, hturn⟩ := normalizesInTurn_normalizeEach host checker
    (fragmentsBelow renamed root extension) renamed
  have hrenamed : renamed.WellFormed := hwf.renameEach extension _
  obtain ⟨hdistinct, hmem⟩ := hrenamed.fragmentsBelow root extension
  rw [← hpaths] at hdistinct hmem
  refine ⟨visits, hreports, hturn, hdistinct, hmem, fun hclosed hroot hacyclic p => ?_,
    NormalizeReport.balances hreports (fun _ => hturn.isVerdict) hdistinct,
    fun other => NormalizeReport.stats_of_checks⟩
  rw [hmem]
  exact hacyclic.isFragmentUnder_renamed hwf hclosed hroot

/-- The header of the one fragment is cut when it has been written in part. What is left has no
comment, and the checker runs out of time for it. -/
theorem normalizeCorpus_failing :
    let run := normalizeCorpus (fun _ _ => .timedOut) { program := ⟨"gofmt"⟩ } failingFiles
      ⟨"/r"⟩ "go"
    run.2.fragments =
        [⟨⟨"/r/x.go"⟩, .error .noSpace, .ok false, .error (.timeout ⟨30, 0⟩)⟩] ∧
      run.1.readText ⟨"/r/x.go"⟩ = .ok "pac" := by
  intro run
  have htarget : failingFiles.target? ⟨"/r/x.go"⟩ =
      .ok (["r", "x.go"], .file (Utf8.encode "x\n") .plain) :=
    target?_of_goesDown (by decide)
  have hfiles : (failingFiles.walk byName ⟨"/r"⟩).filterMap Visit.file? = [⟨"/r/x.go"⟩] := by
    have hjoin : (Path.mk "/r").join "x.go" = ⟨"/r/x.go"⟩ := by decide
    have hchildren : failingFiles.children ["r"] =
        [("x.go", .file (Utf8.encode "x\n") .plain)] := by decide
    have hroot : failingFiles.target? ⟨"/r"⟩ = .ok (["r"], .dir) :=
      target?_of_goesDown (by decide)
    rw [← hjoin]
    exact files_walk_of_one (listDir_eq_ok_iff.mpr ⟨hroot, rfl⟩) hchildren (.inl rfl)
  have hnames : normalName (Path.mk "/r/x.go").fileName "go" = (Path.mk "/r/x.go").fileName ∧
      (Path.mk "/r/x.go").hasExtension "go" = true := by
    decide
  have hrenamed : (renameFiles failingFiles ⟨"/r"⟩ "go").1 = failingFiles := by
    simp only [renameFiles, hfiles, renameEach, renameFile, hnames, if_true]
  have hfragments : fragmentsBelow failingFiles ⟨"/r"⟩ "go" = [⟨"/r/x.go"⟩] := by
    simp [fragmentsBelow, hfiles, hnames]
  obtain ⟨cut, hwritten, hwrite⟩ := writeFile_of_fault htarget rfl rfl
    (by decide : Utf8.encode (defaultHeader ++ "x\n") ≠ [])
  have hheader : ensureHeader failingFiles ⟨"/r/x.go"⟩ = (cut, .error .noSpace) := by
    have hnone : hasHeader "x\n" = false := by decide
    have hread := readText_eq_ok_iff.mpr ⟨_, _, _, htarget, Utf8.decode?_encode _⟩
    simp only [ensureHeader, hread, hnone, Bool.false_eq_true, if_false, hwritten]
  have hread : cut.readText ⟨"/r/x.go"⟩ = .ok "pac" :=
    readText_eq_ok_iff.mpr ⟨_, _, _, target?_of_write htarget hwrite (by simp), by decide⟩
  have hstrip : stripFile cut ⟨"/r/x.go"⟩ = (cut, .ok false) := by
    have hsame : stripComments "pac" = "pac" := by decide
    simp only [stripFile, hread, hsame, if_true]
  simp only [run, normalizeCorpus, hrenamed, hfragments, normalizeEach, normalizeFragment, hheader,
    hstrip]
  exact ⟨rfl, hread⟩

/-- Of the two fragments of the sample, the checker is not found for one, and runs out of time
for the other. In a corpus where the header cannot be written, it is not counted, and all else
is. -/
theorem normalizeCorpus_balances_sample :
    let host : Host := fun _ command =>
      if command.arguments = ["-e", "/r/a/w.go"] then .notStarted .notFound else .timedOut
    let checker : SyntaxChecker := { program := ⟨"gofmt"⟩ }
    let report := (normalizeCorpus host checker sampleFiles ⟨"/r"⟩ "go").2
    let failed := (normalizeCorpus (fun _ _ => .timedOut) checker failingFiles ⟨"/r"⟩ "go").2
    sampleFiles.WellFormed ∧ sampleFiles.Closed ∧ sampleFiles.isDir ⟨"/r"⟩ = true ∧
      sampleFiles.IsAcyclic ⟨"/r"⟩ ∧ report.stats.totalFiles = report.fragments.length ∧
      report.stats.checkerAvailable = false ∧
      report.stats.parseErrorDetails.get? ⟨"/r/a/x.go"⟩ =
        some "Analyzer timed out after 30000ms" ∧
      failingFiles.WellFormed ∧
      failed.fragments.map (·.header) = [.error .noSpace] ∧ failed.stats.packageUpdates = 0 ∧
      failed.stats.totalFiles = 1 ∧ failed.stats.parseErrors = 1 ∧
      failed.stats.parseErrorDetails.get? ⟨"/r/x.go"⟩ =
        some "Analyzer timed out after 30000ms" := by
  intro host checker report failed
  have hwf : sampleFiles.WellFormed := isTree_sample.wellFormed
  have hclosed : sampleFiles.Closed := by decide
  have hroot : sampleFiles.isDir ⟨"/r"⟩ = true := isDir_iff.mpr ⟨_, root_sample.1⟩
  have hacyclic : sampleFiles.IsAcyclic ⟨"/r"⟩ := isTree_sample.isAcyclic
  obtain ⟨visits, hreports, hturn, -, -, hall, hbalances, -⟩ :=
    normalizeCorpus_balances hwf ⟨"/r"⟩ "go" host checker
  have hmem := hall hclosed hroot hacyclic
  rw [renameFiles_sample] at hmem
  obtain ⟨findings, hsurvey, hcases⟩ := survey_sample
  have hfound : discover sampleFiles ⟨"/r"⟩ "go" = .ok (.ofFindings findings) :=
    congrArg (Except.map Discovery.ofFindings) hsurvey
  have hvisited : ∀ f ∈ sampleCase.fragments, ∃ v ∈ visits, v.report.path = f.path := by
    intro f hf
    have hfragment : f ∈ (Discovery.ofFindings findings).fragments := by
      rwa [Discovery.fragments, hcases, List.flatMap_singleton]
    exact List.mem_map.mp ((hmem f.path).mpr (hacyclic.isFragmentUnder_iff.mp
      (hacyclic.isFragmentUnder_of_discover hwf hfound hfragment)))
  obtain ⟨w, hw, hwpath⟩ := hvisited _ List.mem_cons_self
  obtain ⟨x, hx, hxpath⟩ := hvisited _ (List.mem_cons_of_mem _ List.mem_cons_self)
  obtain ⟨_, _, hwvisit⟩ := hturn.isVisit w hw
  obtain ⟨_, _, hxvisit⟩ := hturn.isVisit x hx
  have hwrun := hwvisit.isRun
  have hxrun := hxvisit.isRun
  rw [hwpath] at hwrun
  rw [hxpath] at hxrun
  have hxrejected : x.run.rejects = true := by
    rw [hxrun]
    decide
  have hxcheck : x.report.check = .error (.timeout checker.limit) := by
    rw [hxvisit.isVerdict, hxrun]
    rfl
  have hdetail := hbalances.details x hx hxrejected
  rw [hxpath, FragmentReport.rejection?, hxcheck] at hdetail
  have hwfFailing : failingFiles.WellFormed := ⟨by decide, by decide, by decide⟩
  have hfragments : failed.fragments = _ := normalizeCorpus_failing.1
  refine ⟨hwf, hclosed, hroot, hacyclic, rfl, ?_, hdetail.trans ?_, hwfFailing, ?_, ?_, ?_, ?_, ?_⟩
  · exact hbalances.checkerAvailable.mpr ⟨w, hw, hwrun⟩
  · decide
  · rw [hfragments]
    rfl
  · show failed.fragments.countP FragmentReport.hasNewHeader = 0
    rw [hfragments]
    rfl
  · show failed.fragments.length = 1
    rw [hfragments]
    rfl
  · show failed.rejections.length = 1
    rw [NormalizeReport.rejections, hfragments]
    rfl
  · show (PathMap.ofList failed.rejections).get? ⟨"/r/x.go"⟩ = _
    rw [NormalizeReport.rejections, hfragments]
    decide

end RaceSkeletons
