import RaceSkeletons.Proofs.Analyzer.Schedule
import RaceSkeletons.Proofs.Corpus.Spared
import RaceSkeletons.Proofs.Run.Completion

/-!
# Running twice

What a run leaves is normal if it normalized, and whatever it writes outside of
the corpus can be written again. So a second run finds the same cases, hands the
same contents to the analyzer, and writes the same report
(`rerun_identical`).
-/

namespace RaceSkeletons

open FileSystem

variable {fs : FileSystem} {root : Path} {top : Location} {extension : String}

/-- An analyzer whose outcome for a fragment depends on nothing but the path and
the contents of the fragment. -/
def Analyzer.IsFunctionOfContents (a : Analyzer) : Prop :=
  ∀ fs fs' p, fs.readBytes p = fs'.readBytes p →
    (a.analyze fs p).outcome = (a.analyze fs' p).outcome

namespace RunContext

variable {ctx ctx' : RunContext} {req req' : RunRequest} {startedAt startedAt' : Timestamp}
  {elapsed elapsed' : Duration} {outcome : RunOutcome} {later : FileSystem}

/-- A run that repeats another one, with the same settings, analyzer and paths,
on whatever host and in whatever order of the calls. It normalizes the corpus
only if the first one did. -/
structure IsRerun (ctx ctx' : RunContext) (req req' : RunRequest) : Prop where
  settings : ctx'.settings = ctx.settings
  analyzer : ctx'.analyzer = ctx.analyzer
  root : req'.root = req.root
  combinedFile : req'.combinedFile = req.combinedFile
  reportFile : req'.reportFile = req.reportFile
  normalize : req'.normalize = true → req.normalize = true

/-! ## What a complete run went through -/

theorem outputStages_eq_ok {d : Discovery} {s : RunSummary}
    (h : (ctx.outputStages req d fs s).result = .ok outcome) :
    let written := (writeCombined fs req.root req.combinedFile ctx.settings.extension).1
    (∃ combined, (writeCombined fs req.root req.combinedFile
        ctx.settings.extension).2.result = .ok combined) ∧
      outcome.rows = aggregate ctx.pattern d.cases
        (analyzeAll ctx.settings.workers (ctx.analyzer.analyze written) ctx.schedule
          (d.fragments.map (·.path))).1 ∧
      ∃ n, writeReport written req.reportFile outcome.rows =
        ((ctx.outputStages req d fs s).fs, .ok n) := by
  rw [outputStages] at h ⊢
  obtain ⟨s₁, hcombine, hanalyze, hfs₁⟩ := Run.andThen_eq_ok h
  obtain ⟨⟨results, s₂⟩, hresults, hreport, hfs₂⟩ := Run.andThen_eq_ok hanalyze
  obtain ⟨n, hrows, -, hwritten⟩ := reportStage_eq_ok hreport
  obtain rfl := congrArg Prod.fst (Except.ok.inj hresults)
  rw [hfs₁, hfs₂]
  refine ⟨?_, hrows, n, hwritten⟩
  cases hcombined : (writeCombined fs req.root req.combinedFile
      ctx.settings.extension).2.result with
  | error e =>
      simp only [combineStage, hcombined] at hcombine
      cases hcombine
  | ok combined => exact ⟨combined, rfl⟩

/-- What a complete run went through, told by the files it was given. -/
theorem execute_eq_ok (h : (ctx.execute req fs startedAt elapsed).result = .ok outcome) :
    fs.isDir req.root = true ∧
      (∃ findings, survey (ctx.prepared req fs) req.root ctx.settings.extension = .ok findings) ∧
      (∃ combined, (writeCombined (ctx.prepared req fs) req.root req.combinedFile
        ctx.settings.extension).2.result = .ok combined) ∧
      outcome.rows = ctx.reportRows req fs ∧
      ∃ n, writeReport (ctx.combinedFiles req fs) req.reportFile outcome.rows =
        ((ctx.execute req fs startedAt elapsed).fs, .ok n) := by
  have hfs : (ctx.execute req fs startedAt elapsed).fs =
      (ctx.runStages req fs (RunSummary.start req.root startedAt)).fs := rfl
  rw [result_execute] at h
  rw [hfs]
  cases hstages : (ctx.runStages req fs (RunSummary.start req.root startedAt)).result with
  | error e =>
      rw [hstages] at h
      cases h
  | ok before =>
      rw [hstages] at h
      obtain rfl := Except.ok.inj h
      cases hroot : checkRoot fs req.root with
      | error e =>
          rw [runStages, hroot] at hstages
          cases hstages
      | ok _ =>
          rw [runStages_of_root hroot] at hstages ⊢
          obtain ⟨s₁, -, hcorpus, hfs₁⟩ := Run.andThen_eq_ok hstages
          rw [fs_normalizeStage] at hcorpus hfs₁
          obtain ⟨⟨d, s₂⟩, hdiscover, hvalidate, hfs₂⟩ := Run.andThen_eq_ok hcorpus
          obtain ⟨hsame, findings, hsurvey, rfl, -⟩ := discoverStage_eq_ok hdiscover
          rw [hsame] at hvalidate hfs₂
          obtain ⟨s₃, -, houtput, hfs₃⟩ := Run.andThen_eq_ok hvalidate
          obtain ⟨hcombined, hrows, n, hwritten⟩ := outputStages_eq_ok houtput
          rw [fs_validateStage] at hcombined hrows hwritten hfs₃
          rw [← found_eq hsurvey] at hrows
          refine ⟨checkRoot_eq_ok_iff.mp hroot, ⟨findings, hsurvey⟩, hcombined, hrows, n, ?_⟩
          rw [hfs₁, corpusStages, hfs₂]
          rw [hfs₃]
          exact hwritten

/-- A complete run has put its two files. -/
theorem put_of_execute (h : (ctx.execute req fs startedAt elapsed).result = .ok outcome) :
    (∃ opened location, IsPut (ctx.prepared req fs) opened (ctx.combinedFiles req fs)
      req.combinedFile location
        (combinedData opened req.root location ctx.settings.extension)) ∧
      ∃ opened location, IsPut (ctx.combinedFiles req fs) opened
        (ctx.execute req fs startedAt elapsed).fs req.reportFile location
          (csvBytes (ctx.reportRows req fs)) := by
  obtain ⟨-, -, ⟨combined, hcombined⟩, hrows, n, hwritten⟩ := execute_eq_ok h
  rw [hrows] at hwritten
  exact ⟨writeCombined_eq_ok hcombined, writeReport_eq_ok hwritten⟩

/-! ## The corpus of a run -/

theorem isTree_prepared (h : IsTree fs req.root top)
    (hext : IsPlainExtension ctx.settings.extension) :
    IsTree (ctx.prepared req fs) req.root top := by
  rw [prepared]
  split
  · exact h.normalizeCorpus hext ctx.host ctx.checker
  · exact h

theorem faults_prepared (ctx : RunContext) (req : RunRequest) (fs : FileSystem) :
    (ctx.prepared req fs).faults <:+ fs.faults := by
  rw [prepared]
  split
  · exact faults_normalizeCorpus ctx.host ctx.checker fs req.root ctx.settings.extension
  · exact List.suffix_refl _

theorem closed_prepared (h : IsTree fs req.root top)
    (hext : IsPlainExtension ctx.settings.extension) (hclosed : fs.Closed) :
    (ctx.prepared req fs).Closed := by
  rw [prepared]
  split
  · exact h.wellFormed.closed_normalizeCorpus hclosed hext.noSlash (isDir_iff.mpr ⟨top, h.root⟩)
      ctx.host ctx.checker
  · exact hclosed

/-- A second run does not change the corpus. -/
theorem prepared_again (hagain : IsRerun ctx ctx' req req') (h : IsTree fs req.root top)
    (hfaults : fs.faults = []) (hext : IsPlainExtension ctx.settings.extension)
    (hclosed : fs.Closed) (hgrows : GrowsOutside top (ctx.prepared req fs) later) :
    ctx'.prepared req' later = later := by
  rw [prepared]
  split
  · next hnormalize =>
      have hnormal : IsNormal ctx.settings.extension (ctx.prepared req fs) req.root top := by
        rw [prepared, if_pos (hagain.normalize hnormalize)]
        exact h.isNormal_normalizeCorpus hfaults hext ctx.host ctx.checker
      rw [hagain.root, hagain.settings]
      exact ((hnormal.of_growsOutside (closed_prepared h hext hclosed) hgrows).normalizeCorpus
        hext ctx'.host ctx'.checker).1
  · rfl

/-- Two runs have the same rows if the second sees the corpus that the first
saw, perhaps with more directories. -/
theorem reportRows_again (hagain : IsRerun ctx ctx' req req')
    (hcontents : ctx.analyzer.IsFunctionOfContents)
    (htree : IsTree (ctx.prepared req fs) req.root top)
    (hlisted : (ctx.prepared req fs).IsListed top) (hclosed : (ctx.prepared req fs).Closed)
    (hprepared : GrowsOutside top (ctx.prepared req fs) (ctx'.prepared req' later))
    (hcombined : GrowsOutside top (ctx.prepared req fs) (ctx.combinedFiles req fs))
    (hcombined' : GrowsOutside top (ctx.prepared req fs) (ctx'.combinedFiles req' later)) :
    ctx'.reportRows req' later = ctx.reportRows req fs := by
  have htree' := hprepared.isTree htree
  obtain ⟨findings, findings', hsurvey, hsurvey', hcases⟩ :=
    (hprepared.keepsFiles hclosed).cases_survey htree htree' hlisted ctx.settings.extension
  have hfound := found_eq hsurvey
  have hfound' : ctx'.found req' later = .ofFindings findings' := by
    rw [← hagain.root, ← hagain.settings] at hsurvey'
    exact found_eq hsurvey'
  have hfragments : (Discovery.ofFindings findings').fragments =
      (Discovery.ofFindings findings).fragments := by
    rw [Discovery.fragments, Discovery.fragments, hcases]
  have hdistinct := distinct_fragments htree.wellFormed hsurvey
  have hpattern : ctx'.pattern = ctx.pattern := by
    rw [pattern, pattern, hagain.settings]
  -- the contents of the fragments are those that the corpus had before any output
  have hread : ∀ {files : FileSystem}, GrowsOutside top (ctx.prepared req fs) files →
      ∀ p ∈ (Discovery.ofFindings findings).fragments.map (·.path),
        files.readBytes p = (ctx.prepared req fs).readBytes p := by
    intro files hgrows p hp
    obtain ⟨names, name, rfl, hfile⟩ := htree.hasFile_of_survey hsurvey hp
    exact (hgrows.keepsFiles hclosed).readBytes htree (hgrows.isTree htree) hfile
  rw [reportRows, reportRows, hfound, hfound', hfragments, hcases, hpattern, hagain.analyzer,
    analyzeAll_results hdistinct, analyzeAll_results hdistinct]
  congr 2
  refine List.map_congr_left fun p hp => ?_
  rw [hcontents _ _ p ((hread hcombined' p hp).trans (hread hcombined p hp).symm)]

/-- The combined file can be written again. It may be one that takes no data:
then there was nothing to combine, and there is nothing now. -/
theorem combined_again {opened : FileSystem} {location : Location}
    (hagain : IsRerun ctx ctx' req req') (htree : IsTree (ctx.prepared req fs) req.root top)
    (hclosed : (ctx.prepared req fs).Closed) (hprepared : ctx'.prepared req' later = later)
    (hput : IsPut (ctx.prepared req fs) opened (ctx.combinedFiles req fs) req.combinedFile location
      (combinedData opened req.root location ctx.settings.extension))
    (hout : ¬ top <+: location) (hgrows : GrowsOutside top (ctx.combinedFiles req fs) later)
    (hfault : later.fault? = none) :
    (∃ combined, (writeCombined (ctx'.prepared req' later) req'.root req'.combinedFile
      ctx'.settings.extension).2.result = .ok combined) ∧
        GrowsOutside top later (ctx'.combinedFiles req' later) := by
  obtain ⟨opened', hopens', hfills'⟩ := hput.again hgrows.grows hfault
  have hempty : combinedData opened req.root location ctx.settings.extension = [] →
      combinedData opened' req.root location ctx.settings.extension = [] := by
    have hopened := hput.opens.growsOutside hout
    have hopened' := ((hput.growsOutside hout).trans hgrows).trans (hopens'.growsOutside hout)
    rw [(hopened.keepsFiles hclosed).combinedData_eq_nil_iff htree (hopened.isTree htree) hout,
      (hopened'.keepsFiles hclosed).combinedData_eq_nil_iff htree (hopened'.isTree htree) hout]
    exact id
  obtain ⟨written', hput'⟩ := hfills' _ hempty
  have hwritten := hput'.growsOutside hout
  obtain ⟨hfiles, hcombined⟩ := writeCombined_of_put hput'
  rw [combinedFiles, hprepared, hagain.root, hagain.combinedFile, hagain.settings, hfiles]
  exact ⟨hcombined, hwritten⟩

/-- What a complete run did can be done again, with the same rows and the same
report, if its two files lie outside of the corpus. -/
theorem execute_again (hagain : IsRerun ctx ctx' req req') (h : IsTree fs req.root top)
    (hfaults : fs.faults = []) (hext : IsPlainExtension ctx.settings.extension)
    (hclosed : fs.Closed) (hcontents : ctx.analyzer.IsFunctionOfContents)
    (hfirst : (ctx.execute req fs startedAt elapsed).result = .ok outcome)
    (hlater : (ctx.execute req fs startedAt elapsed).fs = later)
    (hout : ∀ p ∈ [req.combinedFile, req.reportFile], ∀ location,
      later.canonical p = .ok location → ¬ top <+: location) :
    ∃ outcome', (ctx'.execute req' later startedAt' elapsed').result = .ok outcome' ∧
      outcome'.rows = outcome.rows ∧
      ∃ bytes, later.readBytes req.reportFile = .ok bytes ∧
        (ctx'.execute req' later startedAt' elapsed').fs.readBytes req.reportFile = .ok bytes := by
  have htree := isTree_prepared h hext
  have hclosedCorpus := closed_prepared h hext hclosed
  obtain ⟨⟨opened, location, hput⟩, openedReport, reportLocation, hputReport⟩ :=
    put_of_execute hfirst
  obtain ⟨-, ⟨findings, hsurvey⟩, -, hrows, n, hwritten⟩ := execute_eq_ok hfirst
  have hlisted := htree.isListed_of_survey hsurvey
  rw [hlater] at hputReport hwritten
  -- the first run left the corpus alone once it was normalized
  have hreported := hputReport.growsOutside
    (hout _ (.tail _ (.head _)) _ (hputReport.canonical (.refl later)))
  have houtCombined : ¬ top <+: location := hout _ (.head _) _ (hput.canonical hreported.grows)
  have hcombined := hput.growsOutside houtCombined
  have hall := hcombined.trans hreported
  -- the second one finds it as it was
  have hprepared := prepared_again hagain h hfaults hext hclosed hall
  have hlaterFaults : later.faults = [] := by
    refine List.suffix_nil.mp (hfaults ▸ ?_)
    exact hputReport.faults.trans (hput.faults.trans (faults_prepared ctx req fs))
  obtain ⟨⟨combined', hcombined'⟩, hwritten'⟩ := combined_again hagain htree hclosedCorpus
    hprepared hput houtCombined hreported (fault?_of_nil hlaterFaults)
  have hrows' : ctx'.reportRows req' later = ctx.reportRows req fs :=
    reportRows_again hagain hcontents htree hlisted hclosedCorpus (hprepared.symm ▸ hall) hcombined
      (hall.trans hwritten')
  have hlastFault : (ctx'.combinedFiles req' later).fault? = none := by
    obtain ⟨_, _, hput'⟩ := writeCombined_eq_ok hcombined'
    refine fault?_of_nil (List.suffix_nil.mp (hlaterFaults ▸ ?_))
    exact hput'.faults.trans (hprepared.symm ▸ List.suffix_refl _)
  obtain ⟨openedReport', -, hfills'⟩ := hputReport.again hwritten'.grows hlastFault
  obtain ⟨final', hputReport'⟩ := hfills' (csvBytes (ctx'.reportRows req' later))
    fun hnil => absurd hnil (csvBytes_ne_nil _)
  have hreport' := writeReport_of_put hputReport'
  rw [← hagain.reportFile] at hreport'
  have hroot' : later.Listable req'.root := by
    rw [hagain.root]
    exact ⟨top, listDir_eq_ok_iff.mpr
      ⟨(hall.isTree htree).root, (isListed_congr hall.grows.terms).mpr hlisted⟩⟩
  obtain ⟨outcome', hresult', hrows''⟩ := execute_of_written startedAt' elapsed' hroot'.isDir
    (hprepared.symm ▸ hroot') hcombined' (congrArg Prod.snd hreport')
  have hsame : outcome'.rows = outcome.rows := by rw [hrows'', hrows', hrows]
  obtain ⟨-, -, -, -, n', hsecond⟩ := execute_eq_ok hresult'
  rw [hsame, hagain.reportFile] at hsecond
  exact ⟨outcome', hresult', hsame, csvBytes outcome.rows, (readBytes_of_writeReport hwritten).2,
    (readBytes_of_writeReport hsecond).2⟩

end RunContext

/-! ## Running again -/

/-- In a tree without links normalization comes to rest at once: what it leaves
is normal. A second one, with whatever checker, leaves every name and all
contents as the first did, and counts no rename and no header; nothing is
assumed about names that collide, files that are no text or cannot be written, or
what else the first could not do, but that no write fails halfway. So a run can be
repeated on what it left behind, normalizing or not: it has the same rows, and the
report is the same to the byte. -/
theorem rerun_identical {fs : FileSystem} {root : Path} {top : Location} {extension : String}
    (h : IsTree fs root top) (hfaults : fs.faults = []) (hext : IsPlainExtension extension) :
    (∀ (host host' : Host) (checker checker' : SyntaxChecker),
      let first := normalizeCorpus host checker fs root extension
      let second := normalizeCorpus host' checker' first.1 root extension
      IsNormal extension first.1 root top ∧ second.1 = first.1 ∧
        second.2.stats.filesRenamed = 0 ∧ second.2.stats.packageUpdates = 0) ∧
    ∀ (ctx ctx' : RunContext) (req req' : RunRequest) (startedAt startedAt' : Timestamp)
      (elapsed elapsed' : Duration) (outcome : RunOutcome),
      let first := ctx.execute req fs startedAt elapsed
      let second := ctx'.execute req' first.fs startedAt' elapsed'
      fs.Closed → req.root = root → ctx.settings.extension = extension →
        ctx.analyzer.IsFunctionOfContents → ctx.IsRerun ctx' req req' →
        first.result = .ok outcome →
        (∀ p ∈ [req.combinedFile, req.reportFile], ∀ location,
          first.fs.canonical p = .ok location → ¬ top <+: location) →
        ∃ outcome' bytes, second.result = .ok outcome' ∧ outcome'.rows = outcome.rows ∧
          first.fs.readBytes req.reportFile = .ok bytes ∧
          second.fs.readBytes req.reportFile = .ok bytes := by
  refine ⟨fun host host' checker checker' => ?_, ?_⟩
  · have hnormal := h.isNormal_normalizeCorpus hfaults hext host checker
    exact ⟨hnormal, hnormal.normalizeCorpus hext host' checker'⟩
  · intro ctx ctx' req req' startedAt startedAt' elapsed elapsed' outcome first second hclosed
      hroot hextension hcontents hagain hfirst hout
    subst hroot hextension
    obtain ⟨outcome', hresult, hrows, bytes, hread, hread'⟩ :=
      RunContext.execute_again hagain h hfaults hext hclosed hcontents hfirst rfl hout
    exact ⟨outcome', bytes, hresult, hrows, hread, hread'⟩

theorem isTree_sample : IsTree sampleFiles ⟨"/r"⟩ ["r"] :=
  isTree_of_entries ⟨by decide, by decide, nofun⟩
    (target?_sample (by decide)) (by decide)

/-- Normalizing the sample adds nothing that has another name than a normal
one. -/
theorem prepared_sample :
    (sampleRun.prepared normalizingRequest sampleFiles).toTerms = sampleFiles.toTerms ∧
      (sampleRun.prepared normalizingRequest sampleFiles).faults = [] ∧
      ∀ name, normalName name "go" ≠ name → sampleFiles.nodeAt? [name] = none →
        (sampleRun.prepared normalizingRequest sampleFiles).nodeAt? [name] = none := by
  have hext : IsPlainExtension "go" := by decide
  have hnormalize : normalizingRequest.normalize = true := rfl
  have hterms := isTree_sample.wellFormed.terms_normalizeCorpus (by decide) hext.noSlash
    (isDir_iff.mpr ⟨_, isTree_sample.root⟩) sampleRun.host sampleRun.checker
  obtain ⟨-, htidied⟩ := isTree_sample.of_renameFiles hext
  rw [RunContext.prepared, if_pos hnormalize]
  refine ⟨hterms,
    List.suffix_nil.mp (RunContext.faults_prepared sampleRun normalizingRequest sampleFiles),
    fun name hname hnone => ?_⟩
  rw [normalizeCorpus]
  have hrewrite := isRewrite_normalizeEach sampleRun.host sampleRun.checker
    (renameFiles sampleFiles ⟨"/r"⟩ "go").1
    (fragmentsBelow (renameFiles sampleFiles ⟨"/r"⟩ "go").1 ⟨"/r"⟩ "go")
  exact hrewrite.nodeAt?_eq_none_iff.mpr (htidied.missing hname (List.nil_append [name] ▸ hnone))

/-- Each of the two files can be put where it is missing. -/
theorem missing_output_sample {files : FileSystem} {name : String} (hname : name ∈ ["c", "s.csv"])
    (hterms : files.toTerms = sampleFiles.toTerms) (hnone : files.nodeAt? [name] = none) :
    files.makeParents ⟨name⟩ = (files, .ok ()) ∧
      files.locate true ⟨name⟩ = .ok ⟨[name], none⟩ := by
  have hpath : ∀ name ∈ ["c", "s.csv"], (Path.mk name).parent? = some ⟨""⟩ ∧
      IsPassable ⟨name⟩ ∧ (Path.mk name).steps = [name] ∧ Path.IsEntryName name ∧
        ¬ maxNameBytes < byteLength name ∧ (Path.mk name).isAbsolute = false := by
    decide
  obtain ⟨hparent, hpassable, hsteps, hentry, hshort, hrelative⟩ := hpath name hname
  refine ⟨files.makeParents_of_name hparent, ?_⟩
  refine locate_missing [] name hpassable hsteps hentry hshort ?_ rfl hnone
  rw [startOf, hrelative, congrArg Terms.workingDir hterms]
  rfl

/-- The run completes, and puts its two files beside the corpus. -/
theorem execute_normalizing_sample :
    ∃ outcome, (sampleRun.execute normalizingRequest sampleFiles default default).result =
        .ok outcome ∧
      ∀ p ∈ [Path.mk "c", ⟨"s.csv"⟩], ∀ location,
        (sampleRun.execute normalizingRequest sampleFiles default default).fs.canonical p =
          .ok location → ¬ ["r"] <+: location := by
  obtain ⟨hterms, hfaults, hmissing⟩ := prepared_sample
  obtain ⟨hparents, hlocate⟩ := missing_output_sample (.head _) hterms
    (hmissing "c" (by decide) (by decide))
  obtain ⟨around, combined, notices, data, hcombined, hwrite⟩ :=
    writeCombined_of_missing hparents hlocate (congrArg (·.fresh.refusal?) hterms)
      (fault?_of_nil hfaults) ⟨"/r"⟩ "go"
  have haround : sampleRun.combinedFiles normalizingRequest sampleFiles = around :=
    congrArg Prod.fst hcombined
  have haroundFaults : around.faults = [] := by
    obtain ⟨_, _, hput⟩ := writeCombined_eq_ok (congrArg (·.2.result) hcombined)
    rw [hcombined] at hput
    exact List.suffix_nil.mp (hfaults ▸ hput.faults)
  have hstill : around.nodeAt? ["s.csv"] = none := by
    rw [hwrite.nodeAt?_of_ne (by decide)]
    exact hmissing "s.csv" (by decide) (by decide)
  obtain ⟨hparents', hlocate'⟩ := missing_output_sample (.tail _ (.head _))
    (hwrite.terms.trans hterms) hstill
  have hroot : sampleFiles.isDir normalizingRequest.root = true :=
    isDir_iff.mpr ⟨_, isTree_sample.root⟩
  have htree : IsTree sampleFiles normalizingRequest.root ["r"] := isTree_sample
  have hprepared : (sampleRun.prepared normalizingRequest sampleFiles).Listable
      normalizingRequest.root :=
    ⟨["r"], listDir_eq_ok_iff.mpr ⟨(RunContext.isTree_prepared htree (by decide)).root,
      (isListed_congr hterms).mpr rfl⟩⟩
  obtain ⟨outcome, hresult, -⟩ := RunContext.execute_of_outputs default default hroot hprepared
    (writable_of_missing hparents hlocate (congrArg (·.fresh.refusal?) hterms)
      (fault?_of_nil hfaults))
    (haround ▸ writable_of_missing hparents' hlocate'
      (congrArg (·.fresh.refusal?) (hwrite.terms.trans hterms)) (fault?_of_nil haroundFaults))
  obtain ⟨⟨opened, location, hput⟩, openedReport, reportLocation, hputReport⟩ :=
    RunContext.put_of_execute hresult
  rw [haround] at hputReport hput
  obtain rfl : location = ["c"] := hput.opens.location_eq hparents hlocate
  obtain rfl : reportLocation = ["s.csv"] := hputReport.opens.location_eq hparents' hlocate'
  have hgrows := hputReport.growsOutside (by decide : ¬ ["r"] <+: ["s.csv"])
  refine ⟨outcome, hresult, fun p hp location hcanonical => ?_⟩
  rcases List.mem_pair.mp hp with rfl | rfl
  · obtain rfl := Except.ok.inj ((hput.canonical hgrows.grows).symm.trans hcanonical)
    decide
  · obtain rfl := Except.ok.inj ((hputReport.canonical (.refl _)).symm.trans hcanonical)
    decide

/-- The sample run, repeated with normalization. -/
theorem rerun_identical_sample :
    IsTree sampleFiles ⟨"/r"⟩ ["r"] ∧ IsPlainExtension "go" ∧
      let first := sampleRun.execute normalizingRequest sampleFiles default default
      let second := sampleRun.execute normalizingRequest first.fs default default
      ∃ outcome outcome' bytes, first.result = .ok outcome ∧ second.result = .ok outcome' ∧
        outcome'.rows = outcome.rows ∧ first.fs.readBytes ⟨"s.csv"⟩ = .ok bytes ∧
        second.fs.readBytes ⟨"s.csv"⟩ = .ok bytes := by
  have hext : IsPlainExtension "go" := by decide
  obtain ⟨outcome, hresult, hout⟩ := execute_normalizing_sample
  obtain ⟨-, hagain⟩ := rerun_identical isTree_sample rfl hext
  obtain ⟨outcome', bytes, hresult', hrows, hread, hread'⟩ := hagain sampleRun sampleRun
    normalizingRequest normalizingRequest default default default default outcome
    (by decide) rfl rfl (fun _ _ _ _ => rfl) ⟨rfl, rfl, rfl, rfl, rfl, id⟩ hresult hout
  exact ⟨isTree_sample, hext, outcome, outcome', bytes, hresult, hresult', hrows, hread, hread'⟩

end RaceSkeletons
