import RaceSkeletons.Proofs.Corpus.Links
import RaceSkeletons.Proofs.Run.Accounts
import RaceSkeletons.Proofs.Settings
import RaceSkeletons.Run.Program

/-!
# When runs complete

A run completes when its root is a directory that can still be listed after
normalization, and its two outputs can be written (`RunContext.execute_of_outputs`). Nothing
that happens to a single fragment or case matters to that: not what the
analyzer or the syntax checker does, not what can be read. A run that does not
complete says why (`RunContext.EndsWith`), and the exit code says which of the
two happened.
-/

namespace RaceSkeletons

variable {fs around : FileSystem} {p root output : Path} {extension : String}
  {location : Location} {bytes : Bytes} {mode : FileMode}

/-! ## Files that can be written -/

namespace FileSystem

/-- The directories around a path can be made, what is opened there is a file, and the next
write does not fail, so the file takes any data. -/
def Writable (fs : FileSystem) (p : Path) : Prop :=
  fs.fault? = none ∧ ∃ opened location bytes mode, IsOpened fs opened p location ∧
    opened.nodeAt? location = some (.file bytes mode)

theorem writable_of_missing (hparents : fs.makeParents p = (fs, .ok ()))
    (hlocate : fs.locate true p = .ok ⟨location, none⟩) (hfresh : fs.fresh.refusal? = none)
    (hfault : fs.fault? = none) : fs.Writable p := by
  obtain ⟨opened, hcreate, hfill⟩ := createFile_of_missing hlocate hfresh hfault
  obtain ⟨written, hwritten, hwrite⟩ := hfill []
  rw [fill, if_pos rfl] at hwritten
  obtain rfl := congrArg Prod.fst hwritten
  exact ⟨hfault, opened, location, [], _, ⟨fs, hparents, hcreate⟩, hwrite.nodeAt?_self⟩

/-- Whatever is put at a path that can be written is put there. -/
theorem Writable.exists_put (h : fs.Writable p) : ∃ opened location, IsOpened fs opened p location ∧
    ∀ data, ∃ written, IsPut fs opened written p location data := by
  obtain ⟨hfault, opened, location, bytes, mode, hopens, hnode⟩ := h
  exact ⟨opened, location, hopens, fun data =>
    ⟨_, hopens, fill_of_file hnode ((fault?_congr hopens.faults).trans hfault) data⟩⟩

end FileSystem

theorem writeCombined_of_writable (h : fs.Writable output) (root : Path) (extension : String) :
    ∃ combined, (writeCombined fs root output extension).2.result = .ok combined := by
  obtain ⟨opened, location, -, hput⟩ := h.exists_put
  exact (writeCombined_of_put (hput _).choose_spec).2

theorem writeReport_of_writable (h : fs.Writable output) (rows : List CaseRow) :
    (writeReport fs output rows).2 = .ok rows.length := by
  obtain ⟨opened, location, -, hput⟩ := h.exists_put
  exact congrArg Prod.snd (writeReport_of_put (hput _).choose_spec)

/-! ## Corpora that can be listed -/

theorem checkRoot_eq_ok_iff : checkRoot fs root = .ok () ↔ fs.isDir root = true := by
  rw [checkRoot]
  constructor
  · intro h
    split at h
    · cases h
    · split at h
      · cases h
      · next hdir => simpa using hdir
  · intro h
    obtain ⟨location, htarget⟩ := FileSystem.isDir_iff.mp h
    rw [FileSystem.pathExists, htarget, h]
    rfl

/-- A corpus is surveyed if its root can be listed, whatever is in it. -/
theorem survey_eq_ok_iff : (∃ findings, survey fs root extension = .ok findings) ↔
    fs.Listable root := by
  constructor
  · rintro ⟨findings, hsurvey⟩
    obtain ⟨dirs, hdirs, -⟩ := survey_eq_ok hsurvey
    rw [subdirectories_def] at hdirs
    cases hentries : fs.entryPaths root with
    | error e =>
        rw [hentries] at hdirs
        cases hdirs
    | ok paths =>
        obtain ⟨location, hlist, -⟩ := FileSystem.entryPaths_eq_ok_iff.mp hentries
        exact ⟨location, hlist⟩
  · intro h
    obtain ⟨location, hlist⟩ := id h
    rw [survey_def, checkRoot_eq_ok_iff.mpr h.isDir, subdirectories_def,
      FileSystem.entryPaths_eq_ok_iff.mpr ⟨location, hlist, rfl⟩]
    exact ⟨_, rfl⟩

/-! ## Stages -/

theorem error_of_map {α β ε : Type} {r : Except ε α} {f : α → β} {e : ε}
    (h : r.map f = .error e) : r = .error e := by
  cases r with
  | error e' => exact congrArg Except.error (Except.error.inj h)
  | ok a => cases h

namespace RunContext

variable {ctx : RunContext} {req : RunRequest}

/-- The files after the combined file was written, or could not be. -/
def combinedFiles (ctx : RunContext) (req : RunRequest) (fs : FileSystem) : FileSystem :=
  (writeCombined (ctx.prepared req fs) req.root req.combinedFile ctx.settings.extension).1

/-- The errors that end a run, each with what went wrong: the root cannot be
listed, the combined file cannot be written, or the report cannot be. -/
inductive EndsWith (ctx : RunContext) (req : RunRequest) (fs : FileSystem) : RunError → Prop where
  | root {e : DiscoveryError} (h : checkRoot fs req.root = .error e) :
      EndsWith ctx req fs (.discovery e)
  | corpus {e : DiscoveryError}
      (h : survey (ctx.prepared req fs) req.root ctx.settings.extension = .error e) :
      EndsWith ctx req fs (.discovery e)
  | combined {e : FileError}
      (h : (writeCombined (ctx.prepared req fs) req.root req.combinedFile
        ctx.settings.extension).2.result = .error e) :
      EndsWith ctx req fs (.output req.combinedFile e)
  | directories {e : FileError}
      (h : ((ctx.combinedFiles req fs).makeParents req.reportFile).2 = .error e) :
      EndsWith ctx req fs (.output (req.reportFile.parent?.getD req.reportFile) e)
  | opening {e : FileError}
      (h : ((ctx.combinedFiles req fs).makeParents req.reportFile).1.createFile req.reportFile =
        .error e) :
      EndsWith ctx req fs (.output req.reportFile e)
  | writing {e : FileError} {opened : FileSystem} {location : Location} {rows : List CaseRow}
      (hopened : ((ctx.combinedFiles req fs).makeParents req.reportFile).1.createFile
        req.reportFile = .ok (opened, location))
      (h : (opened.fill location (csvBytes rows)).2 = .error e) :
      EndsWith ctx req fs (.report req.reportFile e)

theorem endsWith_of_report {rows : List CaseRow} {e : RunError}
    (h : (writeReport (ctx.combinedFiles req fs) req.reportFile rows).2 = .error e) :
    EndsWith ctx req fs e := by
  rw [writeReport] at h
  split at h
  · next hparents =>
      cases h
      exact .directories (by rw [hparents])
  · next around hparents =>
      have haround : ((ctx.combinedFiles req fs).makeParents req.reportFile).1 = around := by
        rw [hparents]
      split at h
      · next hcreate =>
          cases h
          exact .opening (haround ▸ hcreate)
      · next opened location hcreate =>
          split at h
          · next hfill =>
              cases h
              exact .writing (haround ▸ hcreate) (congrArg Prod.snd hfill)
          · cases h

theorem result_corpusStages {findings : List Finding} (s : RunSummary)
    (h : survey fs req.root ctx.settings.extension = .ok findings) :
    ∃ s', (ctx.corpusStages req fs s).result =
      (ctx.outputStages req (.ofFindings findings) fs s').result := by
  simp only [corpusStages, discoverStage, h, Run.andThen, validateStage]
  exact ⟨_, rfl⟩

/-- Once the combined file is written, only the report can fail. -/
theorem result_outputStages {combined : CombinedFile} (d : Discovery) (s : RunSummary)
    (h : (writeCombined fs req.root req.combinedFile ctx.settings.extension).2.result =
      .ok combined) :
    let written := (writeCombined fs req.root req.combinedFile ctx.settings.extension).1
    let rows := aggregate ctx.pattern d.cases
      (analyzeAll ctx.settings.workers (ctx.analyzer.analyze written) ctx.schedule
        (d.fragments.map (·.path))).1
    ∃ summary, (ctx.outputStages req d fs s).result =
      (writeReport written req.reportFile rows).2.map fun n =>
        { rows, summary := RunSummary.record summary (.rowsWritten n) } := by
  simp only [outputStages, combineStage, h, Run.andThen, analyzeStage, reportStage]
  exact ⟨_, rfl⟩

theorem endsWith_of_runStages {s : RunSummary} {e : RunError}
    (h : (ctx.runStages req fs s).result = .error e) : EndsWith ctx req fs e := by
  cases hroot : checkRoot fs req.root with
  | error cause =>
      rw [runStages, hroot] at h
      cases h
      exact .root hroot
  | ok _ =>
      obtain ⟨s', hnormalized⟩ := ctx.normalizeStage_isOk req fs s
      rw [runStages_of_root hroot, Run.andThen, hnormalized, fs_normalizeStage] at h
      cases hsurvey : survey (ctx.prepared req fs) req.root ctx.settings.extension with
      | error cause =>
          simp only [corpusStages, discoverStage, hsurvey, Run.andThen] at h
          cases h
          exact .corpus hsurvey
      | ok findings =>
          obtain ⟨s'', hcorpus⟩ := result_corpusStages s' hsurvey
          simp only [hcorpus] at h
          cases hcombined : (writeCombined (ctx.prepared req fs) req.root req.combinedFile
              ctx.settings.extension).2.result with
          | error cause =>
              simp only [outputStages, combineStage, hcombined, Run.andThen] at h
              cases h
              exact .combined hcombined
          | ok combined =>
              obtain ⟨summary, hreport⟩ := result_outputStages (.ofFindings findings) s'' hcombined
              exact endsWith_of_report (error_of_map (hreport.symm.trans h))

theorem result_execute (ctx : RunContext) (req : RunRequest) (fs : FileSystem)
    (startedAt : Timestamp) (elapsed : Duration) :
    (ctx.execute req fs startedAt elapsed).result =
      (ctx.runStages req fs (RunSummary.start req.root startedAt)).result.map fun outcome =>
        { outcome with summary := outcome.summary.record (.finish elapsed) } :=
  rfl

/-- The rows of a run that gets as far as its report. -/
def reportRows (ctx : RunContext) (req : RunRequest) (fs : FileSystem) : List CaseRow :=
  aggregate ctx.pattern (ctx.found req fs).cases
    (analyzeAll ctx.settings.workers (ctx.analyzer.analyze (ctx.combinedFiles req fs))
      ctx.schedule ((ctx.found req fs).fragments.map (·.path))).1

/-- A run completes when its root can be listed and its outputs are written. -/
theorem execute_of_written {combined : CombinedFile} {n : Nat} (startedAt : Timestamp)
    (elapsed : Duration) (hroot : fs.isDir req.root = true)
    (hprepared : (ctx.prepared req fs).Listable req.root)
    (hcombined : (writeCombined (ctx.prepared req fs) req.root req.combinedFile
      ctx.settings.extension).2.result = .ok combined)
    (hreport : (writeReport (ctx.combinedFiles req fs) req.reportFile
      (ctx.reportRows req fs)).2 = .ok n) :
    ∃ outcome, (ctx.execute req fs startedAt elapsed).result = .ok outcome ∧
      outcome.rows = ctx.reportRows req fs := by
  obtain ⟨findings, hsurvey⟩ := survey_eq_ok_iff.mpr hprepared
  obtain ⟨s, hnormalized⟩ :=
    ctx.normalizeStage_isOk req fs (RunSummary.start req.root startedAt)
  obtain ⟨s', hcorpus⟩ := result_corpusStages s hsurvey
  obtain ⟨summary, houtput⟩ := result_outputStages (.ofFindings findings) s' hcombined
  have hstages : (ctx.runStages req fs (RunSummary.start req.root startedAt)).result =
      (ctx.corpusStages req (ctx.prepared req fs) s).result := by
    rw [runStages_of_root (checkRoot_eq_ok_iff.mpr hroot), Run.andThen, hnormalized,
      fs_normalizeStage]
  rw [reportRows, found_eq hsurvey, combinedFiles] at hreport ⊢
  rw [result_execute, hstages, hcorpus, houtput, hreport]
  exact ⟨_, rfl, rfl⟩

/-- A run completes when its root can be listed and its outputs can be written. The
rows are those of the cases that discovery found. -/
theorem execute_of_outputs (startedAt : Timestamp) (elapsed : Duration)
    (hroot : fs.isDir req.root = true) (hprepared : (ctx.prepared req fs).Listable req.root)
    (hcombined : (ctx.prepared req fs).Writable req.combinedFile)
    (hreport : (ctx.combinedFiles req fs).Writable req.reportFile) :
    ∃ outcome, (ctx.execute req fs startedAt elapsed).result = .ok outcome ∧
      outcome.rows = aggregate ctx.pattern (ctx.found req fs).cases
        (analyzeAll ctx.settings.workers (ctx.analyzer.analyze (ctx.combinedFiles req fs))
          ctx.schedule ((ctx.found req fs).fragments.map (·.path))).1 := by
  obtain ⟨combined, hwritten⟩ := writeCombined_of_writable hcombined req.root ctx.settings.extension
  exact execute_of_written startedAt elapsed hroot hprepared hwritten
    (writeReport_of_writable hreport _)

theorem endsWith_of_execute {startedAt : Timestamp} {elapsed : Duration} {e : RunError}
    (h : (ctx.execute req fs startedAt elapsed).result = .error e) : EndsWith ctx req fs e :=
  endsWith_of_runStages (error_of_map h)

end RunContext

/-! ## The exit code -/

/-- The run that a command line asks for, in order of the calls. -/
def Invocation.verification (i : Invocation) (o : VerifyOptions) (settings : Settings) :
    Run RunOutcome :=
  RunContext.execute { settings, analyzer := settings.externalAnalyzer i.host, host := i.host }
    { root := o.root, combinedFile := o.combinedFile, reportFile := o.reportFile,
      normalize := !o.skipNormalize } i.files i.startedAt i.elapsed

theorem Program.exitCode_of_verify {i : Invocation} {c : CommandLine} {o : VerifyOptions}
    {settings : Settings} (hparse : CommandLine.parse i.arguments = .ok c)
    (hcommand : c.command = .verify o)
    (hsettings : Settings.resolve i.environment i.hostWorkers o.flags = .ok settings) :
    (Program.run i).exitCode = 0 ↔ ∃ outcome, (i.verification o settings).result = .ok outcome := by
  have hfailure : (Program.perform i c.command).failure.isSome = true ↔
      ¬ ∃ outcome, (i.verification o settings).result = .ok outcome := by
    simp only [Program.perform, hcommand, Program.verify, hsettings, Invocation.verification]
    split
    · next hresult => simp [hresult]
    · next hresult => simp [hresult]
  simp only [Program.run, hparse, Option.isSome_map]
  split
  · next hfailed => exact ⟨nofun, fun hok => absurd hok (hfailure.mp hfailed)⟩
  · next hok =>
      exact ⟨fun _ => Classical.not_not.mp fun hno => hok (hfailure.mpr hno), fun _ => rfl⟩

/-! ## Completion -/

theorem FragmentRow.name_of (f : Fragment) (o : Option Outcome) :
    (FragmentRow.of f o).name = f.name := by
  rcases o with _ | _ | _ <;> rfl

/-- A run whose outputs can be written completes with one row per valid case,
in the order discovery found them, provided that its root is still a directory
that can be listed after normalization. It is if it was before, unless a link that
the root's path follows bears a name that normalization gives: such a link can be
lost. Every other run ends with one of the errors of `RunContext.EndsWith`, and the
exit code is zero exactly for the runs that complete. Nothing is assumed about the
analyzer, the syntax checker, the order of the calls or the contents of the corpus. -/
theorem execute_completes (ctx : RunContext) (req : RunRequest) (fs : FileSystem)
    (startedAt : Timestamp) (elapsed : Duration) (hwf : fs.WellFormed) (hclosed : fs.Closed)
    (hvalid : ctx.settings.isValid = true) :
    let run := ctx.execute req fs startedAt elapsed
    (fs.isDir req.root = true → (ctx.prepared req fs).Listable req.root →
      (ctx.prepared req fs).Writable req.combinedFile →
      (ctx.combinedFiles req fs).Writable req.reportFile →
        ∃ outcome, run.result = .ok outcome ∧
          (outcome.rows.map fun r => (r.caseId, r.first.name, r.second.name)) =
            (ctx.found req fs).cases.map fun c => (c.id, c.first.name, c.second.name)) ∧
      (fs.isDir req.root = true →
        (req.normalize = true → fs.withoutPlainLinks.isDir req.root = true) →
          (ctx.prepared req fs).isDir req.root = true ∧
            (fs.Listable req.root → (ctx.prepared req fs).Listable req.root)) ∧
      (∀ e, run.result = .error e → ctx.EndsWith req fs e) ∧
      ∀ (i : Invocation) (c : CommandLine) (o : VerifyOptions) (settings : Settings),
        CommandLine.parse i.arguments = .ok c → c.command = .verify o →
          Settings.resolve i.environment i.hostWorkers o.flags = .ok settings →
            ((Program.run i).exitCode = 0 ↔
              ∃ outcome, (i.verification o settings).result = .ok outcome) := by
  refine ⟨?_, ?_, fun e => RunContext.endsWith_of_execute, fun _ _ _ _ =>
    Program.exitCode_of_verify⟩
  · intro hroot hprepared hcombined hreport
    obtain ⟨outcome, hresult, hrows⟩ :=
      RunContext.execute_of_outputs startedAt elapsed hroot hprepared hcombined hreport
    refine ⟨outcome, hresult, ?_⟩
    rw [hrows, aggregate, List.map_map]
    refine List.map_congr_left fun c _ => ?_
    rw [Function.comp_apply, CaseRow.of, FragmentRow.name_of, FragmentRow.name_of]
  · intro hroot hstays
    rw [RunContext.prepared]
    split
    · next hnormalize =>
        obtain ⟨location, hkept⟩ := FileSystem.isDir_iff.mp (hstays hnormalize)
        obtain ⟨hbefore, hafter⟩ := hwf.target?_normalizeCorpus hclosed
          (noSlash_of_isBareExtension (Settings.isBareExtension_of_isValid hvalid)) hkept
          ctx.host ctx.checker
        have hterms := hwf.terms_normalizeCorpus hclosed
          (noSlash_of_isBareExtension (Settings.isBareExtension_of_isValid hvalid)) hroot
          ctx.host ctx.checker
        exact ⟨FileSystem.isDir_iff.mpr ⟨location, hafter⟩, fun hlists =>
          ⟨location, FileSystem.listDir_eq_ok_iff.mpr
            ⟨hafter, (FileSystem.isListed_congr hterms).mpr (hlists.isListed hbefore)⟩⟩⟩
    · exact ⟨hroot, fun hlists => hlists⟩

/-- The sample run completes with the row of its case, though the analyzer
fails for one of its fragments. -/
theorem execute_completes_sample :
    sampleFiles.WellFormed ∧ sampleFiles.Closed ∧ sampleRun.settings.isValid = true ∧
      sampleFiles.isDir sampleRequest.root = true ∧
      (sampleRun.prepared sampleRequest sampleFiles).Listable sampleRequest.root ∧
      (sampleRun.prepared sampleRequest sampleFiles).Writable sampleRequest.combinedFile ∧
      (sampleRun.combinedFiles sampleRequest sampleFiles).Writable sampleRequest.reportFile ∧
      ∃ outcome, (sampleRun.execute sampleRequest sampleFiles default default).result =
          .ok outcome ∧
        (outcome.rows.map fun r => (r.caseId, r.first.name, r.second.name)) =
          [("a", "w.go", "x.go")] := by
  have hwf : sampleFiles.WellFormed := ⟨by decide, by decide, nofun⟩
  have hprepared : sampleRun.prepared sampleRequest sampleFiles = sampleFiles := by
    rw [RunContext.prepared, if_neg (by decide)]
  have hlists : sampleFiles.Listable sampleRequest.root :=
    ⟨["r"], FileSystem.listDir_eq_ok_iff.mpr ⟨root_sample.1, rfl⟩⟩
  have hcombinedFile : sampleFiles.Writable sampleRequest.combinedFile :=
    FileSystem.writable_of_missing combinedPath_sample.1 combinedPath_sample.2 rfl rfl
  obtain ⟨around, combined, notices, hcombined, hparents, hreportPath, hfresh, hfaults⟩ :=
    combined_sample
  have haround : sampleRun.combinedFiles sampleRequest sampleFiles = around := by
    rw [RunContext.combinedFiles, hprepared]
    exact congrArg Prod.fst hcombined
  have hreportFile : around.Writable sampleRequest.reportFile :=
    FileSystem.writable_of_missing hparents hreportPath (hfresh ▸ rfl)
      (FileSystem.fault?_of_nil hfaults)
  obtain ⟨findings, hsurvey, hcases⟩ := survey_sample
  have hfound : (sampleRun.found sampleRequest sampleFiles).cases = [sampleCase] := by
    have hprepared' : survey (sampleRun.prepared sampleRequest sampleFiles) sampleRequest.root
        sampleRun.settings.extension = .ok findings := by
      rw [hprepared]
      exact hsurvey
    rw [RunContext.found_eq hprepared', hcases]
  obtain ⟨hcompletes, -, -, -⟩ :=
    execute_completes sampleRun sampleRequest sampleFiles default default hwf (by decide)
      (by decide)
  rw [hprepared, haround, hfound] at hcompletes
  rw [hprepared, haround]
  obtain ⟨outcome, hresult, hrows⟩ := hcompletes hlists.isDir hlists hcombinedFile hreportFile
  exact ⟨hwf, by decide, by decide, hlists.isDir, hlists, hcombinedFile, hreportFile,
    outcome, hresult, hrows⟩

end RaceSkeletons
