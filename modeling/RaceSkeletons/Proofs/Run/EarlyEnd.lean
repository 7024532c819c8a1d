import RaceSkeletons.Proofs.Corpus.Frame
import RaceSkeletons.Proofs.FileSystem.Overwrite
import RaceSkeletons.Proofs.Run.Completion

/-!
# Runs that end before their report

A run can end before its report: because its corpus cannot be listed, or because
the combined file cannot be written. Such a run has gone through the stages
before the analysis only (`RunContext.stagesBeforeAnalysis`), and these stages
do not know the analyzer.

What it leaves behind is what it was given where its root is no directory at the
start, and otherwise what normalization made of the files. If the combined file
could not be written, there may be directories around it, and the file itself, if
it was opened, with no more than the beginning of what it was to hold
(`RunContext.files_of_early`). So a report file of an earlier run is as it was,
unless it is the combined file, or normalization was asked for and its walk can
lead there (`execute_ends_early`).
-/

namespace RaceSkeletons

open FileSystem

/-! ## The stages before the analysis -/

namespace Run

variable {α β γ : Type}

theorem andThen_assoc (r : Run α) (next : FileSystem → α → Run β) (last : FileSystem → β → Run γ) :
    (r.andThen next).andThen last = r.andThen fun fs a => (next fs a).andThen last := by
  obtain ⟨fs, trace, e | a⟩ := r
  · rfl
  · simp only [andThen]
    cases (next fs a).result with
    | error e => rfl
    | ok b => simp [List.append_assoc]

/-- A part that does nothing but give a value. -/
theorem andThen_pure (fs : FileSystem) (a : α) (next : FileSystem → α → Run β) :
    ({ fs, trace := [], result := .ok a } : Run α).andThen next = next fs a :=
  rfl

theorem andThen_of_error {r : Run α} {e : RunError} (h : r.result = .error e)
    (next : FileSystem → α → Run β) :
    r.andThen next = { fs := r.fs, trace := r.trace, result := .error e } := by
  simp only [andThen, h]

theorem andThen_of_ok {r : Run α} {a : α} (h : r.result = .ok a)
    (next : FileSystem → α → Run β) :
    r.andThen next = { next r.fs a with trace := r.trace ++ (next r.fs a).trace } := by
  simp only [andThen, h]

/-- Events that neither part of a run gives are given by none. -/
theorem progress_andThen {r : Run α} {next : FileSystem → α → Run β} {holds : Progress → Prop}
    (h : ∀ event ∈ r.trace.progress, holds event)
    (hnext : ∀ fs a, ∀ event ∈ (next fs a).trace.progress, holds event) :
    ∀ event ∈ (r.andThen next).trace.progress, holds event := by
  intro event hevent
  cases hresult : r.result with
  | error e =>
      rw [andThen_of_error hresult] at hevent
      exact h event hevent
  | ok a =>
      rw [andThen_of_ok hresult, Trace.progress_append] at hevent
      rcases List.mem_append.mp hevent with hfirst | hlast
      · exact h event hfirst
      · exact hnext r.fs a event hlast

end Run

/-- Whether an event tells of calls of the analyzer. -/
def Progress.isOfAnalysis : Progress → Bool
  | .analysisStarted .. | .fragmentAnalyzed .. | .analysisComplete .. => true
  | _ => false

/-- What a run may touch before its report: where the walk of normalization can
lead, if normalization is asked for. -/
def RunRequest.Exposes (req : RunRequest) (fs : FileSystem) (location : Location) : Prop :=
  req.normalize = true ∧ fs.Reaches req.root location

namespace RunContext

variable {ctx : RunContext} {req : RunRequest} {fs : FileSystem} {s : RunSummary} {e : RunError}
  {startedAt : Timestamp} {elapsed : Duration}

/-- The combined file is at a location, opened but not finished: where a file or nothing
stood, a file holds the beginning of the blocks. -/
def BeginsCombined (ctx : RunContext) (req : RunRequest) (fs : FileSystem) (location : Location)
    (before after : Option Node) : Prop :=
  ∃ opened kept mode, IsOpened (ctx.prepared req fs) opened req.combinedFile location ∧
    kept <+: combinedData opened req.root location ctx.settings.extension ∧
    after = some (.file kept mode) ∧ (before = none ∨ ∃ bytes, before = some (.file bytes mode))

/-- What stands at a location after a run that an error ended is what stood there
before, unless the combined file could not be written: then it is there, not
finished, or a directory where nothing stood. -/
def LeavesAlone (ctx : RunContext) (req : RunRequest) (fs : FileSystem) (e : RunError)
    (location : Location) (before after : Option Node) : Prop :=
  after = before ∨ (∃ cause, e = .output req.combinedFile cause) ∧
    (before = none ∧ after = some .dir ∨ ctx.BeginsCombined req fs location before after)

/-- All stages before the analysis. -/
def stagesBeforeAnalysis (ctx : RunContext) (req : RunRequest) (fs : FileSystem)
    (s : RunSummary) : Run (Discovery × RunSummary) :=
  match checkRoot fs req.root with
  | .error e => { fs, trace := [], result := .error (.discovery e) }
  | .ok () =>
    (ctx.normalizeStage req fs s).andThen fun fs s =>
    (ctx.discoverStage req fs s).andThen fun fs (d, s) =>
    (ctx.validateStage fs d s).andThen fun fs s =>
    (ctx.combineStage req fs s).andThen fun fs s => { fs, trace := [], result := .ok (d, s) }

theorem runStages_eq (ctx : RunContext) (req : RunRequest) (fs : FileSystem) (s : RunSummary) :
    ctx.runStages req fs s =
      (ctx.stagesBeforeAnalysis req fs s).andThen fun fs (d, s) =>
      (ctx.analyzeStage fs d s).andThen fun fs (results, s) =>
      ctx.reportStage req fs d results s := by
  cases hroot : checkRoot fs req.root with
  | error cause => simp only [runStages, stagesBeforeAnalysis, hroot, Run.andThen]
  | ok _ =>
      simp only [runStages, stagesBeforeAnalysis, hroot, Run.andThen_assoc, Run.andThen_pure]

/-- An error of a run that was raised before its report. -/
inductive EndsEarly (ctx : RunContext) (req : RunRequest) (fs : FileSystem) : RunError → Prop where
  | discovery (cause : DiscoveryError) : EndsEarly ctx req fs (.discovery cause)
  | combined {cause : FileError}
      (h : (writeCombined (ctx.prepared req fs) req.root req.combinedFile
        ctx.settings.extension).2.result = .error cause) :
      EndsEarly ctx req fs (.output req.combinedFile cause)

theorem stages_of_noRoot {cause : DiscoveryError} (h : checkRoot fs req.root = .error cause) :
    ctx.stagesBeforeAnalysis req fs s =
      { fs, trace := [], result := .error (.discovery cause) } := by
  rw [stagesBeforeAnalysis, h]

theorem stages_of_noCorpus {cause : DiscoveryError} (hroot : checkRoot fs req.root = .ok ())
    (h : survey (ctx.prepared req fs) req.root ctx.settings.extension = .error cause) :
    (ctx.stagesBeforeAnalysis req fs s).fs = ctx.prepared req fs ∧
      (ctx.stagesBeforeAnalysis req fs s).result = .error (.discovery cause) := by
  obtain ⟨s', hnormalized⟩ := ctx.normalizeStage_isOk req fs s
  simp only [stagesBeforeAnalysis, hroot, Run.andThen, hnormalized, fs_normalizeStage,
    discoverStage, h, and_self]

/-- Behind discovery, the combined file decides. -/
theorem stages_of_corpus {findings : List Finding} (hroot : checkRoot fs req.root = .ok ())
    (h : survey (ctx.prepared req fs) req.root ctx.settings.extension = .ok findings) :
    (ctx.stagesBeforeAnalysis req fs s).fs = ctx.combinedFiles req fs ∧
      match (writeCombined (ctx.prepared req fs) req.root req.combinedFile
        ctx.settings.extension).2.result with
      | .error cause =>
        (ctx.stagesBeforeAnalysis req fs s).result = .error (.output req.combinedFile cause)
      | .ok _ => ∃ a, (ctx.stagesBeforeAnalysis req fs s).result = .ok a := by
  obtain ⟨s', hnormalized⟩ := ctx.normalizeStage_isOk req fs s
  simp only [stagesBeforeAnalysis, hroot, Run.andThen, hnormalized, fs_normalizeStage,
    discoverStage, h, validateStage, combineStage, combinedFiles]
  cases (writeCombined (ctx.prepared req fs) req.root req.combinedFile
    ctx.settings.extension).2.result with
  | error cause => exact ⟨rfl, rfl⟩
  | ok combined => exact ⟨rfl, _, rfl⟩

/-- A run that the stages before the analysis end has gone through no other. -/
theorem execute_of_stages (ctx : RunContext) (startedAt : Timestamp) (elapsed : Duration)
    (h : (ctx.stagesBeforeAnalysis req fs (.start req.root startedAt)).result = .error e) :
    let r := ctx.stagesBeforeAnalysis req fs (.start req.root startedAt)
    ctx.execute req fs startedAt elapsed =
      { fs := r.fs
        trace := .notice (.started req.root ctx.analyzer.name) :: .progress (.started req.root) ::
          r.trace ++ [.progress (.failed e.message)]
        result := .error e } := by
  simp only [execute, runStages_eq, Run.andThen_of_error h]
  rfl

/-- The stages before the analysis raise every error that ends a run early, and
leave the files as they were given, as they were prepared, or as the combined file
left them that could not be written. -/
theorem stages_of_early (hresult : (ctx.execute req fs startedAt elapsed).result = .error e)
    (hearly : ctx.EndsEarly req fs e) :
    let r := ctx.stagesBeforeAnalysis req fs (.start req.root startedAt)
    r.result = .error e ∧
      (r.fs = fs ∨ fs.isDir req.root = true ∧
        (r.fs = ctx.prepared req fs ∨ (∃ cause, e = .output req.combinedFile cause) ∧
          r.fs = ctx.combinedFiles req fs)) := by
  have hends : ∀ {e'},
      (ctx.stagesBeforeAnalysis req fs (.start req.root startedAt)).result = .error e' →
        e' = e := by
    intro e' h
    rw [ctx.execute_of_stages startedAt elapsed h] at hresult
    exact Except.error.inj hresult
  cases hroot : checkRoot fs req.root with
  | error cause =>
      obtain rfl := hends (congrArg Run.result (stages_of_noRoot hroot))
      rw [stages_of_noRoot hroot]
      exact ⟨rfl, .inl rfl⟩
  | ok _ =>
      have hdir := checkRoot_eq_ok_iff.mp hroot
      cases hsurvey : survey (ctx.prepared req fs) req.root ctx.settings.extension with
      | error cause =>
          obtain ⟨hfs, hstages⟩ := stages_of_noCorpus
            (s := .start req.root startedAt) hroot hsurvey
          obtain rfl := hends hstages
          exact ⟨hstages, .inr ⟨hdir, .inl hfs⟩⟩
      | ok findings =>
          obtain ⟨hfs, hstages⟩ := stages_of_corpus (s := .start req.root startedAt) hroot hsurvey
          split at hstages
          · next cause hcombined =>
              obtain rfl := hends hstages
              exact ⟨hstages, .inr ⟨hdir, .inr ⟨⟨cause, rfl⟩, hfs⟩⟩⟩
          · next combined hcombined =>
              -- what is raised behind the combined file does not end a run early
              exfalso
              have hends := endsWith_of_execute hresult
              cases hearly with
              | discovery cause =>
                  cases hends with
                  | root h => rw [hroot] at h; cases h
                  | corpus h => rw [hsurvey] at h; cases h
              | combined h => rw [hcombined] at h; cases h

/-- The stages before the analysis call no analyzer. -/
theorem isOfAnalysis_stages (ctx : RunContext) (req : RunRequest) (fs : FileSystem)
    (s : RunSummary) : ∀ event ∈ (ctx.stagesBeforeAnalysis req fs s).trace.progress,
      event.isOfAnalysis = false := by
  have hnormalize : ∀ fs s, ∀ event ∈ (ctx.normalizeStage req fs s).trace.progress,
      event.isOfAnalysis = false := by
    intro fs s
    rw [normalizeStage]
    split <;> simp [Progress.isOfAnalysis]
  have hdiscover : ∀ fs s, ∀ event ∈ (ctx.discoverStage req fs s).trace.progress,
      event.isOfAnalysis = false := by
    intro fs s
    rw [discoverStage]
    split <;> simp [Progress.isOfAnalysis]
  have hvalidate : ∀ fs d s, ∀ event ∈ (ctx.validateStage fs d s).trace.progress,
      event.isOfAnalysis = false := by
    intro fs d s
    simp [validateStage, Progress.isOfAnalysis]
  have hcombine : ∀ fs s, ∀ event ∈ (ctx.combineStage req fs s).trace.progress,
      event.isOfAnalysis = false := by
    intro fs s
    simp [combineStage]
  rw [stagesBeforeAnalysis]
  split
  · simp
  · refine Run.progress_andThen (hnormalize fs s) fun fs s => ?_
    refine Run.progress_andThen (hdiscover fs s) fun fs found => ?_
    refine Run.progress_andThen (hvalidate fs found.1 found.2) fun fs s => ?_
    exact Run.progress_andThen (hcombine fs s) fun fs s => by simp

/-! ## What a run leaves of its files -/

theorem keepsWays_prepared (ctx : RunContext) (req : RunRequest) (hwf : fs.WellFormed)
    (hclosed : fs.Closed) (hslash : req.normalize = true → '/' ∉ ctx.settings.extension.toList)
    (hroot : fs.isDir req.root = true) :
    KeepsWays (req.Exposes fs) fs (ctx.prepared req fs) ∧
      ∀ location, ¬ req.Exposes fs location →
        (ctx.prepared req fs).nodeAt? location = fs.nodeAt? location := by
  rw [prepared]
  split
  · next hnormalize =>
      have hexposes : req.Exposes fs = fs.Reaches req.root := by
        funext location
        simp [RunRequest.Exposes, hnormalize]
      rw [hexposes]
      have hwithin := encloses_reaches fs req.root
      exact ⟨keepsWays_normalizeCorpus hwf hclosed (hslash hnormalize) hroot hwithin _ _,
        fun _ => normalizeCorpus_spares hwf hclosed (hslash hnormalize) hroot hwithin _ _⟩
  · exact ⟨.refl _ fs, fun _ _ => rfl⟩

/-- A run ends early if its combined file cannot be written. -/
theorem execute_of_combined_error (ctx : RunContext) (req : RunRequest) {cause : FileError}
    (startedAt : Timestamp) (elapsed : Duration) (hroot : fs.isDir req.root = true)
    (hprepared : (ctx.prepared req fs).Listable req.root)
    (h : (writeCombined (ctx.prepared req fs) req.root req.combinedFile
      ctx.settings.extension).2.result = .error cause) :
    ctx.EndsEarly req fs (.output req.combinedFile cause) ∧
      (ctx.execute req fs startedAt elapsed).result = .error (.output req.combinedFile cause) ∧
      (ctx.execute req fs startedAt elapsed).fs = ctx.combinedFiles req fs := by
  obtain ⟨findings, hsurvey⟩ := survey_eq_ok_iff.mpr hprepared
  have hcorpus := ctx.stages_of_corpus (s := .start req.root startedAt)
    (checkRoot_eq_ok_iff.mpr hroot) hsurvey
  rw [h] at hcorpus
  obtain ⟨hfs, hstages⟩ := hcorpus
  rw [ctx.execute_of_stages startedAt elapsed hstages]
  exact ⟨.combined h, rfl, hfs⟩

/-- A run ends early if its combined file is a directory. -/
theorem execute_of_combined_dir (ctx : RunContext) (req : RunRequest) {around : FileSystem}
    (startedAt : Timestamp) (elapsed : Duration) (hroot : fs.isDir req.root = true)
    (hprepared : (ctx.prepared req fs).Listable req.root)
    (hparents : (ctx.prepared req fs).makeParents req.combinedFile = (around, .ok ()))
    (hdir : around.isDir req.combinedFile = true) :
    ctx.EndsEarly req fs (.output req.combinedFile .isDirectory) ∧
      (ctx.execute req fs startedAt elapsed).result =
        .error (.output req.combinedFile .isDirectory) ∧
      (ctx.execute req fs startedAt elapsed).fs = around := by
  have hwritten := writeCombined_of_dir hparents hdir req.root ctx.settings.extension
  obtain ⟨hends, hresult, hfs⟩ := ctx.execute_of_combined_error req startedAt elapsed hroot
    hprepared (congrArg (fun written => written.2.result) hwritten)
  rw [combinedFiles, hwritten] at hfs
  exact ⟨hends, hresult, hfs⟩

/-- A run ends early if its root cannot be listed. -/
theorem execute_of_unlisted (ctx : RunContext) (req : RunRequest) {cause : FileError}
    (startedAt : Timestamp) (elapsed : Duration) (hroot : fs.isDir req.root = true)
    (hprepared : (ctx.prepared req fs).isDir req.root = true)
    (hrefused : (ctx.prepared req fs).listDir req.root = .error cause) :
    (ctx.execute req fs startedAt elapsed).result =
        .error (.discovery (.unreadable req.root cause)) ∧
      (ctx.execute req fs startedAt elapsed).fs = ctx.prepared req fs := by
  have hsurvey : survey (ctx.prepared req fs) req.root ctx.settings.extension =
      .error (.unreadable req.root cause) := by
    rw [survey_def, checkRoot_eq_ok_iff.mpr hprepared, subdirectories_def,
      entryPaths_eq_error_iff.mpr hrefused]
    rfl
  obtain ⟨hfs, hstages⟩ := ctx.stages_of_noCorpus (s := .start req.root startedAt)
    (checkRoot_eq_ok_iff.mpr hroot) hsurvey
  rw [ctx.execute_of_stages startedAt elapsed hstages]
  exact ⟨rfl, hfs⟩

end RunContext

theorem RunRequest.holdsLinks_exposes (req : RunRequest) (fs : FileSystem) :
    fs.HoldsLinks (req.Exposes fs) :=
  fun _ _ _ _ _ _ hhere hnode hleads => ⟨hhere.1, .link hhere.2 hnode hleads⟩

namespace RunContext

variable {ctx : RunContext} {req : RunRequest} {fs : FileSystem} {e : RunError}
  {startedAt : Timestamp} {elapsed : Duration} {p : Path} {location : Location}
  {found : Option Node}

/-- What is left of the files is what was prepared, with directories around the combined
file, and with the combined file itself, if it was opened. -/
theorem around_of_early (hwf : fs.WellFormed) (hclosed : fs.Closed)
    (hslash : req.normalize = true → '/' ∉ ctx.settings.extension.toList)
    (hresult : (ctx.execute req fs startedAt elapsed).result = .error e)
    (hearly : ctx.EndsEarly req fs e) :
    let after := (ctx.execute req fs startedAt elapsed).fs
    ∃ around, KeepsWays (req.Exposes fs) fs around ∧
      (∀ location, ¬ req.Exposes fs location →
        ctx.LeavesAlone req fs e location (fs.nodeAt? location) (around.nodeAt? location)) ∧
      (after = around ∨ ∃ location opened kept mode, (∃ cause, e = .output req.combinedFile cause) ∧
        IsOpened (ctx.prepared req fs) opened req.combinedFile location ∧
        kept <+: combinedData opened req.root location ctx.settings.extension ∧
        IsWrite around after location (.file kept mode) ∧
        (around.nodeAt? location = none ∨
          ∃ bytes, around.nodeAt? location = some (.file bytes mode))) := by
  obtain ⟨hstages, hfiles⟩ := stages_of_early hresult hearly
  rw [ctx.execute_of_stages startedAt elapsed hstages]
  rcases hfiles with hsame | ⟨hroot, hprepared | ⟨houtput, hcombined⟩⟩
  · simp only [hsame]
    exact ⟨fs, .refl _ fs, fun _ _ => .inl rfl, .inl rfl⟩
  · obtain ⟨hways, hspares⟩ := keepsWays_prepared ctx req hwf hclosed hslash hroot
    simp only [hprepared]
    exact ⟨_, hways, fun location hout => .inl (hspares location hout), .inl rfl⟩
  · obtain ⟨hways, -⟩ := keepsWays_prepared ctx req hwf hclosed hslash hroot
    have hmakes := hways.makesDirs (makesDirs_makeParents _ req.combinedFile)
    simp only [hcombined]
    refine ⟨_, hmakes, fun location hout => ?_, ?_⟩
    · exact (hmakes.spares location hout).imp_right fun hdir => ⟨houtput, .inl hdir⟩
    · refine (writeCombined_cases (ctx.prepared req fs) req.root req.combinedFile
        ctx.settings.extension).imp_right ?_
      rintro ⟨opened, location, kept, mode, hopened, hkept, hwrite, hbefore⟩
      exact ⟨location, opened, kept, mode, houtput, hopened, hkept, hwrite, hbefore⟩

/-- What an early end leaves of the files. -/
theorem files_of_early (hwf : fs.WellFormed) (hclosed : fs.Closed)
    (hslash : req.normalize = true → '/' ∉ ctx.settings.extension.toList)
    (hresult : (ctx.execute req fs startedAt elapsed).result = .error e)
    (hearly : ctx.EndsEarly req fs e) (hout : ¬ req.Exposes fs location) :
    ctx.LeavesAlone req fs e location (fs.nodeAt? location)
      ((ctx.execute req fs startedAt elapsed).fs.nodeAt? location) := by
  obtain ⟨around, hways, halone, hafter⟩ := around_of_early hwf hclosed hslash hresult hearly
  rcases hafter with hsame | ⟨place, opened, kept, mode, houtput, hopened, hkept, hwrite, hbefore⟩
  · rw [hsame]
    exact halone location hout
  · by_cases hplace : location = place
    · subst hplace
      refine .inr ⟨houtput, .inr ⟨opened, kept, mode, hopened, hkept, hwrite.nodeAt?_self, ?_⟩⟩
      rcases hways.spares location hout with hsame | ⟨-, hdir⟩
      · rw [← hsame]
        exact hbefore
      · exact absurd hdir hwrite.noDir
    · rw [hwrite.nodeAt?_of_ne hplace]
      exact halone location hout

/-- Where paths lead after an early end. -/
theorem locate_of_early (hwf : fs.WellFormed) (hclosed : fs.Closed)
    (hslash : req.normalize = true → '/' ∉ ctx.settings.extension.toList)
    (hresult : (ctx.execute req fs startedAt elapsed).result = .error e)
    (hearly : ctx.EndsEarly req fs e)
    (hlocate : (fs.withoutPlainLinksIn (req.Exposes fs)).locate true p = .ok ⟨location, found⟩)
    (hout : ¬ req.Exposes fs location) :
    fs.locate true p = .ok ⟨location, found⟩ ∧
      (ctx.execute req fs startedAt elapsed).fs.locate true p =
        .ok ⟨location, (ctx.execute req fs startedAt elapsed).fs.nodeAt? location⟩ := by
  obtain ⟨around, hways, -, hafter⟩ := around_of_early hwf hclosed hslash hresult hearly
  obtain ⟨hbefore, haround⟩ := hways.locate hwf (req.holdsLinks_exposes fs) hlocate hout
  refine ⟨hbefore, ?_⟩
  rcases hafter with hsame | ⟨_, _, _, _, -, -, -, hwrite, -⟩
  · rw [hsame]
    exact haround
  · exact hwrite.locate nofun haround

end RunContext

/-! ## Early ends -/

/-- A run that its first look at the root ends leaves all files as they were.
Any run that ends before its report leaves everything as it was that the walk of
normalization cannot lead to, if normalization is asked for; without links in the
corpus, that is everything that does not lie below its root. If the combined file
could not be written, a directory may come to stand where nothing stood, and the
combined file itself may be there with no more than the beginning of what it was
to hold. So a path of the report file that leads to such a location leads there
afterwards, and to what stood there, unless it goes through a link that
normalization could have replaced; and nothing has been created there. No such
run gives an event of the analysis, and it is the same with any other analyzer
and order of its calls. -/
theorem execute_ends_early (ctx : RunContext) (req : RunRequest) (fs : FileSystem)
    (startedAt : Timestamp) (elapsed : Duration) (hwf : fs.WellFormed) (hclosed : fs.Closed)
    (hslash : req.normalize = true → '/' ∉ ctx.settings.extension.toList) :
    let run := ctx.execute req fs startedAt elapsed
    (∀ cause, checkRoot fs req.root = .error cause →
      run.result = .error (.discovery cause) ∧ run.fs = fs) ∧
    (∀ top, IsTree fs req.root top → ∀ location, req.Exposes fs location → top <+: location) ∧
    ∀ e, run.result = .error e → ctx.EndsEarly req fs e →
      (∀ location, ¬ req.Exposes fs location →
        ctx.LeavesAlone req fs e location (fs.nodeAt? location) (run.fs.nodeAt? location)) ∧
      (∀ location found,
        (fs.withoutPlainLinksIn (req.Exposes fs)).locate true req.reportFile =
            .ok ⟨location, found⟩ →
          ¬ req.Exposes fs location →
            fs.locate true req.reportFile = .ok ⟨location, found⟩ ∧
              ∃ found', run.fs.locate true req.reportFile = .ok ⟨location, found'⟩ ∧
                ctx.LeavesAlone req fs e location found found') ∧
      (∀ location node, run.fs.target? req.reportFile = .ok (location, node) →
        ¬ req.Exposes fs location →
          ctx.LeavesAlone req fs e location (fs.nodeAt? location) (some node)) ∧
      (∀ event ∈ run.trace.progress, event.isOfAnalysis = false) ∧
      ∀ analyzer schedule,
        let other := { ctx with analyzer, schedule }.execute req fs startedAt elapsed
        other.fs = run.fs ∧ other.result = run.result ∧ other.trace.tail = run.trace.tail := by
  intro run
  refine ⟨fun cause hroot => ?_, fun top htree location hexposed => ?_, fun e hresult hearly => ?_⟩
  · have hstages : ctx.stagesBeforeAnalysis req fs (.start req.root startedAt) = _ :=
      RunContext.stages_of_noRoot hroot
    have hrun := ctx.execute_of_stages startedAt elapsed (congrArg Run.result hstages)
    rw [show run = _ from hrun, hstages]
    exact ⟨rfl, rfl⟩
  · exact htree.prefix_of_reaches hexposed.2
  have halone : ∀ location, ¬ req.Exposes fs location →
      ctx.LeavesAlone req fs e location (fs.nodeAt? location) (run.fs.nodeAt? location) :=
    fun _ => RunContext.files_of_early hwf hclosed hslash hresult hearly
  obtain ⟨hstages, -⟩ := RunContext.stages_of_early hresult hearly
  have hrun := ctx.execute_of_stages startedAt elapsed hstages
  refine ⟨halone, ?_, ?_, ?_, ?_⟩
  · intro location found hlocate hout
    obtain ⟨hbefore, hafter⟩ :=
      RunContext.locate_of_early hwf hclosed hslash hresult hearly hlocate hout
    refine ⟨hbefore, _, hafter, ?_⟩
    have hfound : found = fs.nodeAt? location := node_eq_of_locate hbefore
    rw [hfound]
    exact halone location hout
  · intro location node htarget hout
    rw [← nodeAt?_of_target? htarget]
    exact halone location hout
  · intro event hevent
    simp only [run, hrun, List.cons_append, Trace.progress_cons_notice,
      Trace.progress_cons_progress, Trace.progress_append, Trace.progress_nil, List.mem_cons,
      List.mem_append, List.not_mem_nil, or_false] at hevent
    rcases hevent with rfl | hstage | rfl
    · rfl
    · exact ctx.isOfAnalysis_stages req fs _ event hstage
    · rfl
  · intro analyzer schedule
    have hother := { ctx with analyzer, schedule }.execute_of_stages startedAt elapsed hstages
    intro other
    rw [show other = _ from hother, show run = _ from hrun]
    exact ⟨rfl, rfl, rfl⟩

/-- A corpus below `/r` with one file, and the report of an earlier run. At the
path of the combined file there is a directory. -/
def reportedFiles : FileSystem where
  entries := [⟨["r"], .dir⟩, ⟨["r", "x.go"], .file (Utf8.encode "x\n") .plain⟩,
    ⟨["s.csv"], .file (Utf8.encode "old\n") .plain⟩, ⟨["c"], .dir⟩]
  workingDir := []

/-- The files of a failing write, when the combined file of an earlier run was emptied. -/
def emptiedFiles : FileSystem :=
  failingFiles.replaceAt ["c"] (.file [] .plain)

theorem isOpened_emptied : IsOpened failingFiles emptiedFiles ⟨"c"⟩ ["c"] := by
  have hlocate : failingFiles.locate true ⟨"c"⟩ =
      .ok ⟨["c"], some (.file (Utf8.encode "older\n") .plain)⟩ :=
    locate_of_goesDown (by decide) (by decide) (by decide)
  exact ⟨failingFiles, makeParents_of_name _ (by decide), createFile_of_file hlocate⟩

theorem combinedData_emptied : combinedData emptiedFiles ⟨"/r"⟩ ["c"] "go" =
    Utf8.encode "// /r/x.go\nx\n\n\n" := by
  have hroot : emptiedFiles.listDir ⟨"/r"⟩ = .ok ["r"] :=
    listDir_eq_ok_iff.mpr ⟨target?_of_goesDown (by decide), rfl⟩
  have hchildren : emptiedFiles.children ["r"] = [("x.go", .file (Utf8.encode "x\n") .plain)] := by
    decide
  have htarget : emptiedFiles.target? ⟨"/r/x.go"⟩ =
      .ok (["r", "x.go"], .file (Utf8.encode "x\n") .plain) :=
    target?_of_goesDown (by decide)
  have hpath : (Path.mk "/r").join "x.go" = ⟨"/r/x.go"⟩ ∧
      (Path.mk "/r/x.go").hasExtension "go" = true := by
    decide
  have hstep : combineStep? emptiedFiles ["c"] "go" (.file ⟨"/r/x.go"⟩) =
      some (.written ⟨"/r/x.go"⟩ (Utf8.encode "x\n")) := by
    have hother : (emptiedFiles.canonical ⟨"/r/x.go"⟩).toOption ≠ some ["c"] := by
      rw [FileSystem.canonical, htarget]
      decide
    have hread := readBytes_eq_ok_iff.mpr ⟨_, _, htarget⟩
    simp only [combineStep?, hpath.2, hother, hread, Bool.not_true, Bool.false_eq_true, if_false]
  rw [combinedData, combineSteps, walk_of_one hroot hchildren (.inl rfl), hpath.1,
    List.filterMap_cons_none rfl, List.filterMap_cons_some hstep, List.filterMap_nil]
  decide

/-- The combined file of an earlier run is lost, and the new one is cut. -/
theorem execute_cut :
    let run := sampleRun.execute sampleRequest failingFiles default default
    run.result = .error (.output ⟨"c"⟩ .noSpace) ∧
      sampleRun.EndsEarly sampleRequest failingFiles (.output ⟨"c"⟩ .noSpace) ∧
      run.fs.target? ⟨"c"⟩ = .ok (["c"], .file (Utf8.encode "// ") .plain) := by
  have hroot : failingFiles.Listable ⟨"/r"⟩ :=
    ⟨["r"], listDir_eq_ok_iff.mpr ⟨target?_of_goesDown (by decide), rfl⟩⟩
  have htarget : emptiedFiles.target? ⟨"c"⟩ = .ok (["c"], .file [] .plain) :=
    target?_of_goesDown (by decide)
  have hempty := nodeAt?_of_target? htarget
  have hfault : failingFiles.fault? = some ⟨3, .noSpace⟩ := rfl
  have hdata : combinedData emptiedFiles ⟨"/r"⟩ ["c"] "go" ≠ [] := by
    rw [combinedData_emptied]
    decide
  obtain ⟨hleft, hfailed⟩ := writeCombined_of_fault isOpened_emptied hempty hfault hdata
  obtain ⟨hends, hresult, hfs⟩ := sampleRun.execute_of_combined_error sampleRequest default default
    hroot.isDir hroot hfailed
  refine ⟨hresult, hends, ?_⟩
  have hkept : (combinedData emptiedFiles ⟨"/r"⟩ ["c"] "go").take 3 = Utf8.encode "// " := by
    rw [combinedData_emptied]
    decide
  rw [hfs, show sampleRun.combinedFiles sampleRequest failingFiles = _ from hleft, hkept]
  exact target?_of_write htarget (isWrite_overwrite hempty) nofun

/-- The sample of a report, where the root refuses to be listed. -/
def refusedFiles : FileSystem :=
  { reportedFiles with unlisted := [(["r"], .accessDenied)] }

theorem execute_refused :
    let run := sampleRun.execute sampleRequest refusedFiles default default
    run.result = .error (.discovery (.unreadable ⟨"/r"⟩ .accessDenied)) := by
  have hroot : refusedFiles.target? ⟨"/r"⟩ = .ok (["r"], .dir) :=
    target?_of_goesDown (by decide)
  have hisDir : refusedFiles.isDir ⟨"/r"⟩ = true := isDir_iff.mpr ⟨["r"], hroot⟩
  have hlist : refusedFiles.listDir ⟨"/r"⟩ = .error .accessDenied := by
    rw [listDir, hroot]
    rfl
  exact (sampleRun.execute_of_unlisted sampleRequest default default hisDir hisDir hlist).1

theorem wellFormed_reported : reportedFiles.WellFormed :=
  ⟨by decide, by decide, by decide⟩

/-- Nothing beside the corpus is exposed. -/
theorem not_exposes_reported {name : String} (h : name ≠ "r") :
    ¬ normalizingRequest.Exposes reportedFiles [name] := by
  intro hexposed
  have hroot : reportedFiles.target? ⟨"/r"⟩ = .ok (["r"], .dir) :=
    target?_of_goesDown (by decide)
  have htree : IsTree reportedFiles ⟨"/r"⟩ ["r"] :=
    isTree_of_entries wellFormed_reported hroot (by decide)
  have hsame : ["r"] = [name] := (htree.prefix_of_reaches hexposed.2).eq_of_length rfl
  exact h (List.singleton_inj.mp hsame).symm

/-- The combined file is still a directory when the corpus was normalized. -/
theorem prepared_reported : (sampleRun.prepared normalizingRequest reportedFiles).Listable ⟨"/r"⟩ ∧
    (sampleRun.prepared normalizingRequest reportedFiles).isDir ⟨"c"⟩ = true := by
  have hwf := wellFormed_reported
  have hclosed : reportedFiles.Closed := by decide
  have hslash : '/' ∉ sampleRun.settings.extension.toList := by decide
  have hisDir : reportedFiles.isDir ⟨"/r"⟩ = true :=
    isDir_iff.mpr ⟨["r"], target?_of_goesDown (by decide)⟩
  constructor
  · have hterms := hwf.terms_normalizeCorpus hclosed hslash hisDir sampleRun.host sampleRun.checker
    have hfirm : reportedFiles.withoutPlainLinks.target? ⟨"/r"⟩ = .ok (["r"], .dir) :=
      target?_of_goesDown (by decide)
    obtain ⟨-, hafter⟩ :=
      hwf.target?_normalizeCorpus hclosed hslash hfirm sampleRun.host sampleRun.checker
    exact ⟨["r"], listDir_eq_ok_iff.mpr ⟨hafter, (isListed_congr hterms).mpr rfl⟩⟩
  · obtain ⟨hways, hspares⟩ := sampleRun.keepsWays_prepared normalizingRequest hwf hclosed
      (fun _ => hslash) hisDir
    have hkept : reportedFiles.withoutPlainLinksIn (normalizingRequest.Exposes reportedFiles) =
        reportedFiles := withoutPlainLinksIn_of_entries (by decide)
    have hlocate : reportedFiles.locate true ⟨"c"⟩ = .ok ⟨["c"], some .dir⟩ :=
      locate_of_goesDown (by decide) (by decide) (by decide)
    rw [← hkept] at hlocate
    have hout : ¬ normalizingRequest.Exposes reportedFiles ["c"] := not_exposes_reported (by decide)
    obtain ⟨-, hafter⟩ := hways.locate hwf (normalizingRequest.holdsLinks_exposes _) hlocate hout
    have hnode : reportedFiles.nodeAt? ["c"] = some .dir := by decide
    rw [hspares _ hout, hnode] at hafter
    exact isDir_iff.mpr ⟨["c"], target?_eq_ok_iff.mpr (locate_eq_ok_iff.mp hafter)⟩

/-- The report stays when the combined file is a directory, though the corpus was
normalized; when the combined file is cut; and when the root cannot be listed. -/
theorem execute_ends_early_reported :
    let run := sampleRun.execute normalizingRequest reportedFiles default default
    let cut := sampleRun.execute sampleRequest failingFiles default default
    let refused := sampleRun.execute sampleRequest refusedFiles default default
    (reportedFiles.WellFormed ∧ reportedFiles.Closed ∧
      '/' ∉ sampleRun.settings.extension.toList ∧
      run.result = .error (.output ⟨"c"⟩ .isDirectory) ∧
      sampleRun.EndsEarly normalizingRequest reportedFiles (.output ⟨"c"⟩ .isDirectory) ∧
      ¬ normalizingRequest.Exposes reportedFiles ["s.csv"] ∧
      run.fs.locate true ⟨"s.csv"⟩ =
        .ok ⟨["s.csv"], some (.file (Utf8.encode "old\n") .plain)⟩) ∧
    (failingFiles.WellFormed ∧ failingFiles.Closed ∧
      cut.result = .error (.output ⟨"c"⟩ .noSpace) ∧
      sampleRun.EndsEarly sampleRequest failingFiles (.output ⟨"c"⟩ .noSpace) ∧
      cut.fs.target? ⟨"c"⟩ = .ok (["c"], .file (Utf8.encode "// ") .plain) ∧
      cut.fs.nodeAt? ["s.csv"] = some (.file (Utf8.encode "old\n") .plain)) ∧
    (refusedFiles.WellFormed ∧ refusedFiles.Closed ∧
      refused.result = .error (.discovery (.unreadable ⟨"/r"⟩ .accessDenied)) ∧
      refused.fs.nodeAt? ["s.csv"] = some (.file (Utf8.encode "old\n") .plain)) := by
  intro run cut refused
  refine ⟨?_, ?_, ?_⟩
  · have hwf := wellFormed_reported
    have hclosed : reportedFiles.Closed := by decide
    have hslash : '/' ∉ sampleRun.settings.extension.toList := by decide
    have hisDir : reportedFiles.isDir ⟨"/r"⟩ = true :=
      isDir_iff.mpr ⟨["r"], target?_of_goesDown (by decide)⟩
    obtain ⟨hprepared, hcombined⟩ := prepared_reported
    have hparents := makeParents_of_name (sampleRun.prepared normalizingRequest reportedFiles)
      (by decide : (Path.mk "c").parent? = some ⟨""⟩)
    obtain ⟨hends, hresult, -⟩ := sampleRun.execute_of_combined_dir normalizingRequest default
      default hisDir hprepared hparents hcombined
    obtain ⟨-, -, hearly⟩ := execute_ends_early sampleRun normalizingRequest reportedFiles
      default default hwf hclosed fun _ => hslash
    obtain ⟨-, hreport, -⟩ := hearly _ hresult hends
    have hkept : reportedFiles.withoutPlainLinksIn (normalizingRequest.Exposes reportedFiles) =
        reportedFiles := withoutPlainLinksIn_of_entries (by decide)
    rw [hkept] at hreport
    have hlocate : reportedFiles.locate true ⟨"s.csv"⟩ =
        .ok ⟨["s.csv"], some (.file (Utf8.encode "old\n") .plain)⟩ :=
      locate_of_goesDown (by decide) (by decide) (by decide)
    have hout : ¬ normalizingRequest.Exposes reportedFiles ["s.csv"] :=
      not_exposes_reported (by decide)
    obtain ⟨-, found, hafter, hsame | ⟨-, ⟨hnone, -⟩ | ⟨opened, _, _, hopened, -⟩⟩⟩ :=
      hreport _ _ hlocate hout
    · rw [hsame] at hafter
      exact ⟨hwf, hclosed, hslash, hresult, hends, hout, hafter⟩
    · cases hnone
    · exact absurd hopened (not_isOpened_of_isDir hparents hcombined)
  · have hwf : failingFiles.WellFormed := ⟨by decide, by decide, by decide⟩
    have hclosed : failingFiles.Closed := by decide
    obtain ⟨hresult, hends, hcombined⟩ := execute_cut
    obtain ⟨-, -, hearly⟩ := execute_ends_early sampleRun sampleRequest failingFiles
      default default hwf hclosed nofun
    obtain ⟨halone, -⟩ := hearly _ hresult hends
    have hold : failingFiles.nodeAt? ["s.csv"] = some (.file (Utf8.encode "old\n") .plain) := by
      decide
    refine ⟨hwf, hclosed, hresult, hends, hcombined, ?_⟩
    rcases halone ["s.csv"] (fun hexposed => by cases hexposed.1) with
      hsame | ⟨-, ⟨hnone, -⟩ | ⟨opened, _, _, hopened, -⟩⟩
    · rw [hsame, hold]
    · rw [hold] at hnone
      cases hnone
    · have hplace : failingFiles.locate true ⟨"c"⟩ =
          .ok ⟨["c"], some (.file (Utf8.encode "older\n") .plain)⟩ :=
        locate_of_goesDown (by decide) (by decide) (by decide)
      have heq := hopened.location_eq (makeParents_of_name _ (by decide)) hplace
      exact absurd heq (by decide)
  · have hwf : refusedFiles.WellFormed := ⟨by decide, by decide, by decide⟩
    have hclosed : refusedFiles.Closed := by decide
    have hresult := execute_refused
    obtain ⟨-, -, hearly⟩ := execute_ends_early sampleRun sampleRequest refusedFiles
      default default hwf hclosed nofun
    obtain ⟨halone, -⟩ := hearly _ hresult (.discovery _)
    have hold : refusedFiles.nodeAt? ["s.csv"] = some (.file (Utf8.encode "old\n") .plain) := by
      decide
    refine ⟨hwf, hclosed, hresult, ?_⟩
    rcases halone ["s.csv"] (fun hexposed => by cases hexposed.1) with hsame | ⟨⟨_, heq⟩, -⟩
    · rw [hsame, hold]
    · cases heq

/-! ## Files that an early end changes -/

/-- A corpus below `/r` whose fragment is a link to a file beside it. At the path
of the combined file there is a directory. -/
def linkedFiles : FileSystem where
  entries := [⟨["r"], .dir⟩, ⟨["r", "x.go"], .link ⟨"/s.csv"⟩⟩,
    ⟨["s.csv"], .file (Utf8.encode "x\n") .plain⟩, ⟨["c"], .dir⟩]
  workingDir := []

/-- A corpus below `/r` with one file, whose name is an underscore. -/
def underscoreFiles : FileSystem where
  entries := [⟨["r"], .dir⟩, ⟨["r", "_"], .file [] .plain⟩, ⟨["c"], .dir⟩]
  workingDir := []

/-- An empty corpus. -/
def emptyFiles : FileSystem where
  entries := [⟨["r"], .dir⟩]
  workingDir := []

/-- The sample run with an extension that has slashes. -/
def slashedRun : RunContext :=
  { sampleRun with settings := { sampleRun.settings with extension := "/../s.csv" } }

/-- The fragment is a link, which leads to the file beside the corpus. -/
theorem target?_linked :
    linkedFiles.target? ⟨"/r/x.go"⟩ = .ok (["s.csv"], .file (Utf8.encode "x\n") .plain) := by
  have hpath : IsPassable ⟨"/r/x.go"⟩ ∧ (Path.mk "/r/x.go").steps = ["r", "x.go"] ∧
      linkedFiles.startOf ⟨"/r/x.go"⟩ = [] := by decide
  obtain ⟨hp, hsteps, hstart⟩ := hpath
  have houter : Looks linkedFiles [] "r" :=
    ⟨by decide, by decide, by decide, by decide⟩
  have hinner : Looks linkedFiles ["r"] "x.go" :=
    ⟨by decide, by decide, by decide, by decide⟩
  have hdir : linkedFiles.nodeAt? ["r"] = some .dir := by decide
  have hlink : linkedFiles.nodeAt? ["r", "x.go"] = some (.link ⟨"/s.csv"⟩) := by decide
  refine target?_eq_ok_iff.mpr ⟨hp, ?_⟩
  rw [hsteps, hstart]
  refine .enter houter hdir (by simp) (.follow hinner hlink (by simp) ?_)
  exact leads_of_goesDown (by decide)

/-- The fragment is read and written through the link. -/
theorem prepared_linked :
    IsWrite linkedFiles (sampleRun.prepared normalizingRequest linkedFiles) ["s.csv"]
      (.file (Utf8.encode "package main\n\nx\n") .plain) := by
  have htarget := target?_linked
  have hfiles : (linkedFiles.walk byName ⟨"/r"⟩).filterMap Visit.file? = [⟨"/r/x.go"⟩] := by
    have hjoin : (Path.mk "/r").join "x.go" = ⟨"/r/x.go"⟩ := by decide
    have hchildren : linkedFiles.children ["r"] = [("x.go", .link ⟨"/s.csv"⟩)] := by decide
    have hshows : linkedFiles.ShowsFile ⟨"/r/x.go"⟩ (.link ⟨"/s.csv"⟩) :=
      .inr ⟨rfl, isFile_iff.mpr ⟨_, _, htarget, rfl⟩⟩
    have hroot : linkedFiles.target? ⟨"/r"⟩ = .ok (["r"], .dir) :=
      target?_of_goesDown (by decide)
    rw [← hjoin] at hshows ⊢
    exact files_walk_of_one (listDir_eq_ok_iff.mpr ⟨hroot, rfl⟩) hchildren hshows
  have hnames : normalName (Path.mk "/r/x.go").fileName "go" = (Path.mk "/r/x.go").fileName ∧
      (Path.mk "/r/x.go").hasExtension "go" = true := by
    decide
  have hrenamed : (renameFiles linkedFiles ⟨"/r"⟩ "go").1 = linkedFiles := by
    simp only [renameFiles, hfiles, renameEach, renameFile, hnames, if_true]
  have hprepared : sampleRun.prepared normalizingRequest linkedFiles =
      (normalizeFragment sampleRun.host sampleRun.checker linkedFiles ⟨"/r/x.go"⟩).1 := by
    have hfragments : fragmentsBelow linkedFiles ⟨"/r"⟩ "go" = [⟨"/r/x.go"⟩] := by
      simp [fragmentsBelow, hfiles, hnames]
    show (normalizeCorpus sampleRun.host sampleRun.checker linkedFiles ⟨"/r"⟩ "go").1 = _
    rw [normalizeCorpus]
    simp only [hrenamed, hfragments, normalizeEach]
  rw [hprepared]
  obtain ⟨headed, hwritten, hwrite⟩ := writeFile_of_file htarget rfl rfl
    (Utf8.encode "package main\n\nx\n")
  have hlater := FileSystem.target?_of_write htarget hwrite (by simp)
  have hheaded : ensureHeader linkedFiles ⟨"/r/x.go"⟩ = (headed, .ok true) := by
    have hnone : hasHeader "x\n" = false ∧ defaultHeader ++ "x\n" = "package main\n\nx\n" := by
      decide
    have hread := FileSystem.readText_eq_ok_iff.mpr ⟨_, _, _, htarget, Utf8.decode?_encode _⟩
    simp only [ensureHeader, hread, hnone, Bool.false_eq_true, if_false, hwritten]
  have hclean : stripFile headed ⟨"/r/x.go"⟩ = (headed, .ok false) := by
    have hstrip : stripComments "package main\n\nx\n" = "package main\n\nx\n" := by decide
    have hread := FileSystem.readText_eq_ok_iff.mpr ⟨_, _, _, hlater, Utf8.decode?_encode _⟩
    simp only [stripFile, hread, hstrip, if_true]
  simp only [normalizeFragment, hheaded, hclean]
  exact hwrite

/-- The underscore gets a name that leads out of the corpus. -/
theorem prepared_underscore : slashedRun.prepared normalizingRequest underscoreFiles =
    underscoreFiles.relocate ["r", "_"] ["s.csv"] := by
  have hsource : underscoreFiles.target? ⟨"/r/_"⟩ = .ok (["r", "_"], .file [] .plain) :=
    FileSystem.target?_of_goesDown (by decide)
  have hlocate : underscoreFiles.locate false ⟨"/r/_"⟩ =
      .ok ⟨["r", "_"], some (.file [] .plain)⟩ :=
    FileSystem.locate_of_goesDown (by decide) (by decide) (by decide)
  have hfiles : (underscoreFiles.walk byName ⟨"/r"⟩).filterMap Visit.file? = [⟨"/r/_"⟩] := by
    have hjoin : (Path.mk "/r").join "_" = ⟨"/r/_"⟩ := by decide
    have hchildren : underscoreFiles.children ["r"] = [("_", .file [] .plain)] := by decide
    have hroot : underscoreFiles.target? ⟨"/r"⟩ = .ok (["r"], .dir) :=
      target?_of_goesDown (by decide)
    rw [← hjoin]
    exact files_walk_of_one (listDir_eq_ok_iff.mpr ⟨hroot, rfl⟩) hchildren (.inl rfl)
  have hnames : normalName (Path.mk "/r/_").fileName "/../s.csv" ≠ (Path.mk "/r/_").fileName ∧
      normalPath "/../s.csv" ⟨"/r/_"⟩ = ⟨"/r/./../s.csv"⟩ := by
    decide
  have hmissing : ∀ followLast, underscoreFiles.locate followLast ⟨"/r/./../s.csv"⟩ =
      .ok ⟨["s.csv"], none⟩ := by
    intro followLast
    have hpath : FileSystem.IsPassable ⟨"/r/./../s.csv"⟩ ∧
        (Path.mk "/r/./../s.csv").steps = ["r", ".", "..", "s.csv"] ∧
        underscoreFiles.startOf ⟨"/r/./../s.csv"⟩ = [] := by decide
    obtain ⟨hp, hsteps, hstart⟩ := hpath
    have hdir : underscoreFiles.nodeAt? ["r"] = some .dir := by decide
    refine FileSystem.locate_eq_ok_iff.mpr ⟨hp, ?_⟩
    rw [hsteps, hstart]
    refine .enter ⟨by decide, by decide, by decide, by decide⟩ hdir (by simp) ?_
    refine .stay (by decide) (.up (by decide) (.missing ?_ (by decide)))
    exact ⟨by decide, by decide, by decide, by decide⟩
  have hrenamed : (renameFiles underscoreFiles ⟨"/r"⟩ "/../s.csv").1 =
      underscoreFiles.relocate ["r", "_"] ["s.csv"] := by
    have htaken : underscoreFiles.pathExists ⟨"/r/./../s.csv"⟩ = false := by
      rw [FileSystem.pathExists, FileSystem.target?, hmissing]
    have hrename : underscoreFiles.rename ⟨"/r/_"⟩ ⟨"/r/./../s.csv"⟩ =
        .ok (underscoreFiles.relocate ["r", "_"] ["s.csv"]) := by
      rw [FileSystem.rename, hlocate, hmissing]
    simp only [renameFiles, hfiles, renameEach, renameFile, hnames.1, hnames.2, htaken, hrename,
      if_false]
    rfl
  have hnothing : fragmentsBelow (underscoreFiles.relocate ["r", "_"] ["s.csv"]) ⟨"/r"⟩
      "/../s.csv" = [] := by
    have hroot : (underscoreFiles.relocate ["r", "_"] ["s.csv"]).target? ⟨"/r"⟩ =
        .ok (["r"], .dir) := FileSystem.target?_of_goesDown (by decide)
    rw [fragmentsBelow, files_walk_of_none (listDir_eq_ok_iff.mpr ⟨hroot, rfl⟩) (by decide)]
    rfl
  show (normalizeCorpus slashedRun.host slashedRun.checker underscoreFiles ⟨"/r"⟩ "/../s.csv").1 = _
  rw [normalizeCorpus]
  simp only [hrenamed, hnothing, normalizeEach]

theorem execute_linked :
    let run := sampleRun.execute normalizingRequest linkedFiles default default
    run.result = .error (.output ⟨"c"⟩ .isDirectory) ∧
      linkedFiles.target? ⟨"s.csv"⟩ = .ok (["s.csv"], .file (Utf8.encode "x\n") .plain) ∧
      run.fs.target? ⟨"s.csv"⟩ =
        .ok (["s.csv"], .file (Utf8.encode "package main\n\nx\n") .plain) := by
  have hroot : linkedFiles.listDir ⟨"/r"⟩ = .ok ["r"] :=
    listDir_eq_ok_iff.mpr ⟨target?_of_goesDown (by decide), rfl⟩
  have hcombined : linkedFiles.isDir ⟨"c"⟩ = true :=
    isDir_iff.mpr ⟨["c"], target?_of_goesDown (by decide)⟩
  have hreport : linkedFiles.target? ⟨"s.csv"⟩ =
      .ok (["s.csv"], .file (Utf8.encode "x\n") .plain) :=
    target?_of_goesDown (by decide)
  have hwrite := prepared_linked
  have hrewrite := IsRewrite.of_write hwrite (nodeAt?_of_target? hreport)
  obtain ⟨-, hresult, hfs⟩ := sampleRun.execute_of_combined_dir normalizingRequest default default
    (Listable.isDir ⟨_, hroot⟩) ⟨_, hrewrite.grows.listDir hroot⟩
    (makeParents_of_name _ (by decide)) (hrewrite.grows.isDir hcombined)
  refine ⟨hresult, hreport, ?_⟩
  rw [hfs]
  exact target?_of_write hreport hwrite (by simp)

/-- The sample request with a combined file that has its directory at the path of
the report. -/
def nestedRequest : RunRequest :=
  { sampleRequest with combinedFile := ⟨"s.csv/.."⟩ }

theorem execute_nested :
    let run := sampleRun.execute nestedRequest emptyFiles default default
    run.result = .error (.output ⟨"s.csv/.."⟩ .isDirectory) ∧
      emptyFiles.target? ⟨"s.csv"⟩ = .error .notFound ∧
      run.fs.target? ⟨"s.csv"⟩ = .ok (["s.csv"], .dir) := by
  have hroot : emptyFiles.Listable ⟨"/r"⟩ :=
    ⟨["r"], listDir_eq_ok_iff.mpr ⟨target?_of_goesDown (by decide), rfl⟩⟩
  have hmissing : ∀ followLast, emptyFiles.locate followLast ⟨"s.csv"⟩ = .ok ⟨["s.csv"], none⟩ :=
    fun _ => locate_missing [] "s.csv" (by decide) (by decide) (by decide)
      (by decide) rfl rfl (by decide)
  have hparents : emptyFiles.makeParents ⟨"s.csv/.."⟩ = (emptyFiles.add ["s.csv"] .dir, .ok ()) :=
    makeParents_of_missing (q := ⟨"s.csv"⟩) (by decide) (by decide) (by decide)
      (hmissing false)
  have hdir : (emptyFiles.add ["s.csv"] .dir).isDir ⟨"s.csv/.."⟩ = true := by
    have hpath : IsPassable ⟨"s.csv/.."⟩ ∧ (Path.mk "s.csv/..").steps = ["s.csv", ".."] ∧
        (emptyFiles.add ["s.csv"] .dir).startOf ⟨"s.csv/.."⟩ = [] := by decide
    obtain ⟨hp, hsteps, hstart⟩ := hpath
    have hnode : (emptyFiles.add ["s.csv"] .dir).nodeAt? ["s.csv"] = some .dir := by
      decide
    refine isDir_iff.mpr ⟨[], target?_eq_ok_iff.mpr ⟨hp, ?_⟩⟩
    rw [hsteps, hstart]
    refine .enter ⟨by decide, by decide, by decide, by decide⟩ hnode (by simp) ?_
    exact .up (by decide) .here
  obtain ⟨-, hresult, hfs⟩ := sampleRun.execute_of_combined_dir nestedRequest default default
    hroot.isDir hroot hparents hdir
  refine ⟨hresult, ?_, ?_⟩
  · rw [target?, hmissing]
  · rw [hfs]
    exact target?_of_goesDown (by decide)

theorem execute_underscore :
    let run := slashedRun.execute normalizingRequest underscoreFiles default default
    run.result = .error (.output ⟨"c"⟩ .isDirectory) ∧
      underscoreFiles.target? ⟨"s.csv"⟩ = .error .notFound ∧
      run.fs.target? ⟨"s.csv"⟩ = .ok (["s.csv"], .file [] .plain) := by
  have hroot : underscoreFiles.isDir ⟨"/r"⟩ = true :=
    isDir_iff.mpr ⟨["r"], target?_of_goesDown (by decide)⟩
  have hmissing : underscoreFiles.locate true ⟨"s.csv"⟩ = .ok ⟨["s.csv"], none⟩ :=
    locate_missing [] "s.csv" (by decide) (by decide) (by decide)
      (by decide) rfl rfl (by decide)
  have hprepared : (underscoreFiles.relocate ["r", "_"] ["s.csv"]).Listable ⟨"/r"⟩ ∧
      (underscoreFiles.relocate ["r", "_"] ["s.csv"]).isDir ⟨"c"⟩ = true :=
    ⟨⟨["r"], listDir_eq_ok_iff.mpr ⟨target?_of_goesDown (by decide), rfl⟩⟩,
      isDir_iff.mpr ⟨["c"], target?_of_goesDown (by decide)⟩⟩
  rw [← prepared_underscore] at hprepared
  obtain ⟨-, hresult, hfs⟩ := slashedRun.execute_of_combined_dir normalizingRequest default default
    hroot hprepared.1 (makeParents_of_name _ (by decide)) hprepared.2
  refine ⟨hresult, ?_, ?_⟩
  · rw [target?, hmissing]
  · rw [hfs, prepared_underscore]
    exact target?_of_goesDown (by decide)

/-- An early end can change the report file, though it lies beside the corpus and
is not the combined file. What is linked from the corpus is written. The file can
come to be, too: as a directory around the combined file, and under a name that
an extension with slashes makes. -/
theorem execute_ends_early_changing :
    (let run := sampleRun.execute normalizingRequest linkedFiles default default;
      run.result = .error (.output ⟨"c"⟩ .isDirectory) ∧
        linkedFiles.target? ⟨"s.csv"⟩ = .ok (["s.csv"], .file (Utf8.encode "x\n") .plain) ∧
        run.fs.target? ⟨"s.csv"⟩ =
          .ok (["s.csv"], .file (Utf8.encode "package main\n\nx\n") .plain)) ∧
    (let run := sampleRun.execute nestedRequest emptyFiles default default;
      run.result = .error (.output ⟨"s.csv/.."⟩ .isDirectory) ∧
        emptyFiles.target? ⟨"s.csv"⟩ = .error .notFound ∧
        run.fs.target? ⟨"s.csv"⟩ = .ok (["s.csv"], .dir)) ∧
    (let run := slashedRun.execute normalizingRequest underscoreFiles default default;
      run.result = .error (.output ⟨"c"⟩ .isDirectory) ∧
        underscoreFiles.target? ⟨"s.csv"⟩ = .error .notFound ∧
        run.fs.target? ⟨"s.csv"⟩ = .ok (["s.csv"], .file [] .plain)) :=
  ⟨execute_linked, execute_nested, execute_underscore⟩

end RaceSkeletons
