import RaceSkeletons.Proofs.Corpus.Combine
import RaceSkeletons.Proofs.Corpus.Discover
import RaceSkeletons.Proofs.Corpus.Normalize
import RaceSkeletons.Proofs.Report.File
import RaceSkeletons.Run.Pipeline

/-!
# What a complete run went through

A run that ends well has passed every stage. What each of them handed to the
next is collected in one record (`RunContext.Passed`), so that whoever asks
about a complete run need not follow the stages again.
-/

namespace RaceSkeletons

/-! ## Parts of runs -/

/-- A chain that ends well has ended well in both parts. -/
theorem Run.andThen_eq_ok {α β : Type} {r : Run α} {next : FileSystem → α → Run β} {b : β}
    (h : (r.andThen next).result = .ok b) :
    ∃ a, r.result = .ok a ∧ (next r.fs a).result = .ok b ∧
      (r.andThen next).fs = (next r.fs a).fs := by
  rw [andThen] at h ⊢
  cases hresult : r.result with
  | error e =>
      rw [hresult] at h
      cases h
  | ok a =>
      rw [hresult] at h
      exact ⟨a, rfl, h, rfl⟩

namespace RunContext

variable {ctx : RunContext} {req : RunRequest} {fs final : FileSystem} {s s' : RunSummary}
  {d : Discovery} {results : AnalysisResults} {outcome : RunOutcome}

/-! ## One stage at a time -/

/-- The files as discovery sees them. -/
def prepared (ctx : RunContext) (req : RunRequest) (fs : FileSystem) : FileSystem :=
  if req.normalize then
    (normalizeCorpus ctx.host ctx.checker fs req.root ctx.settings.extension).1
  else fs

theorem fs_normalizeStage (ctx : RunContext) (req : RunRequest) (fs : FileSystem)
    (s : RunSummary) : (ctx.normalizeStage req fs s).fs = ctx.prepared req fs := by
  rw [normalizeStage, prepared]
  split <;> rfl

theorem normalizeStage_isOk (ctx : RunContext) (req : RunRequest) (fs : FileSystem)
    (s : RunSummary) : ∃ s', (ctx.normalizeStage req fs s).result = .ok s' := by
  rw [normalizeStage]
  split
  · exact ⟨_, rfl⟩
  · exact ⟨_, rfl⟩

/-- The stages from the combined file on. -/
def outputStages (ctx : RunContext) (req : RunRequest) (d : Discovery) (fs : FileSystem)
    (s : RunSummary) : Run RunOutcome :=
  (ctx.combineStage req fs s).andThen fun fs s =>
  (ctx.analyzeStage fs d s).andThen fun fs (results, s) =>
  ctx.reportStage req fs d results s

/-- The stages from discovery on. -/
def corpusStages (ctx : RunContext) (req : RunRequest) (fs : FileSystem) (s : RunSummary) :
    Run RunOutcome :=
  (ctx.discoverStage req fs s).andThen fun fs (d, s) =>
  (ctx.validateStage fs d s).andThen (ctx.outputStages req d)

theorem runStages_of_root (h : checkRoot fs req.root = .ok ()) (s : RunSummary) :
    ctx.runStages req fs s = (ctx.normalizeStage req fs s).andThen (ctx.corpusStages req) := by
  rw [runStages, h]
  rfl

/-- What discovery finds in a run; nothing when the root cannot be listed. -/
def found (ctx : RunContext) (req : RunRequest) (fs : FileSystem) : Discovery :=
  match discover (ctx.prepared req fs) req.root ctx.settings.extension with
  | .error _ => {}
  | .ok d => d

theorem found_eq {findings : List Finding}
    (h : survey (ctx.prepared req fs) req.root ctx.settings.extension = .ok findings) :
    ctx.found req fs = .ofFindings findings := by
  rw [found, discover, h]
  rfl

theorem wellFormed_prepared (ctx : RunContext) (req : RunRequest) (hwf : fs.WellFormed) :
    (ctx.prepared req fs).WellFormed := by
  rw [prepared]
  split
  · exact hwf.normalizeCorpus ctx.host ctx.checker req.root ctx.settings.extension
  · exact hwf

theorem wellFormed_normalizeStage (ctx : RunContext) (req : RunRequest) (hwf : fs.WellFormed)
    (s : RunSummary) : (ctx.normalizeStage req fs s).fs.WellFormed := by
  rw [fs_normalizeStage]
  exact wellFormed_prepared ctx req hwf

theorem discoverStage_eq_ok (h : (ctx.discoverStage req fs s).result = .ok (d, s')) :
    (ctx.discoverStage req fs s).fs = fs ∧
      ∃ findings, survey fs req.root ctx.settings.extension = .ok findings ∧
        d = .ofFindings findings ∧ s' = s.record (.discovery d) := by
  rw [discoverStage] at h ⊢
  split at h
  · cases h
  · next findings hsurvey =>
      cases h
      exact ⟨rfl, findings, hsurvey, rfl, rfl⟩

theorem fs_validateStage (ctx : RunContext) (fs : FileSystem) (d : Discovery) (s : RunSummary) :
    (ctx.validateStage fs d s).fs = fs :=
  rfl

theorem combineStage_eq_ok (h : (ctx.combineStage req fs s).result = .ok s') :
    ∃ combined, s' = s.record (.combined combined) := by
  simp only [combineStage] at h
  split at h
  · cases h
  · next combined _ =>
      cases h
      exact ⟨combined, rfl⟩

theorem reportStage_eq_ok (h : (ctx.reportStage req fs d results s).result = .ok outcome) :
    ∃ n, outcome.rows = aggregate ctx.pattern d.cases results ∧
      outcome.summary = (s.record (.reports outcome.rows)).record (.rowsWritten n) ∧
      writeReport fs req.reportFile outcome.rows =
        ((ctx.reportStage req fs d results s).fs, .ok n) := by
  simp only [reportStage] at h ⊢
  cases hwritten : (writeReport fs req.reportFile (aggregate ctx.pattern d.cases results)).2 with
  | error e =>
      rw [hwritten] at h
      cases h
  | ok n =>
      rw [hwritten] at h
      cases h
      exact ⟨n, rfl, rfl, Prod.ext rfl hwritten⟩

/-! ## All stages -/

/-- The stages of a run that ended with `outcome` and left `final` behind. -/
structure Passed (ctx : RunContext) (req : RunRequest) (outcome : RunOutcome)
    (final : FileSystem) where
  /-- The corpus as discovery saw it. -/
  surveyed : FileSystem
  /-- The files as the analyzer saw them. -/
  analyzed : FileSystem
  findings : List Finding
  results : AnalysisResults
  /-- The summary before discovery. -/
  normalized : RunSummary
  patterns : PatternReport
  combined : CombinedFile
  rowsWritten : Nat
  isWellFormed : surveyed.WellFormed
  isSurvey : survey surveyed req.root ctx.settings.extension = .ok findings
  isPatterns : patterns = ctx.pattern.validate (Discovery.ofFindings findings).cases
  isAnalysis : results =
    (analyzeAll ctx.settings.workers (ctx.analyzer.analyze analyzed) ctx.schedule
      ((Discovery.ofFindings findings).fragments.map (·.path))).1
  isReport : writeReport analyzed req.reportFile outcome.rows = (final, .ok rowsWritten)
  rows_eq : outcome.rows = aggregate ctx.pattern (Discovery.ofFindings findings).cases results
  summary_eq : outcome.summary =
    (((((normalized.record (.discovery (.ofFindings findings))).record
      (.patterns patterns)).record (.combined combined)).record (.analysis results)).record
        (.reports outcome.rows)).record (.rowsWritten rowsWritten)

theorem passed_of_runStages (hwf : fs.WellFormed)
    (h : (ctx.runStages req fs s).result = .ok outcome) :
    Nonempty (Passed ctx req outcome (ctx.runStages req fs s).fs) := by
  rw [runStages] at h ⊢
  split at h
  · cases h
  · obtain ⟨s₁, hnormalize, h, hfs₁⟩ := Run.andThen_eq_ok h
    obtain ⟨⟨d, s₂⟩, hdiscover, h, hfs₂⟩ := Run.andThen_eq_ok h
    obtain ⟨s₃, hvalidate, h, hfs₃⟩ := Run.andThen_eq_ok h
    obtain ⟨s₄, hcombine, h, hfs₄⟩ := Run.andThen_eq_ok h
    obtain ⟨⟨results, s₅⟩, hanalyze, h, hfs₅⟩ := Run.andThen_eq_ok h
    obtain ⟨-, findings, hsurvey, rfl, rfl⟩ := discoverStage_eq_ok hdiscover
    obtain ⟨combined, rfl⟩ := combineStage_eq_ok hcombine
    obtain ⟨n, hrows, hsummary, hreport⟩ := reportStage_eq_ok h
    cases hvalidate
    cases hanalyze
    rw [hfs₁, hfs₂, hfs₃, hfs₄, hfs₅]
    exact ⟨{
      surveyed := _
      analyzed := _
      findings
      results := _
      normalized := s₁
      patterns := _
      combined
      rowsWritten := n
      isWellFormed := wellFormed_normalizeStage ctx req hwf s
      isSurvey := hsurvey
      isPatterns := rfl
      isAnalysis := rfl
      isReport := hreport
      rows_eq := hrows
      summary_eq := hsummary }⟩

/-- A run that ends well has passed all stages; its summary has only the time
more. -/
theorem passed_of_execute {startedAt : Timestamp} {elapsed : Duration} (hwf : fs.WellFormed)
    (h : (ctx.execute req fs startedAt elapsed).result = .ok outcome) :
    ∃ before, Nonempty (Passed ctx req before (ctx.execute req fs startedAt elapsed).fs) ∧
      outcome = { before with summary := before.summary.record (.finish elapsed) } := by
  simp only [execute] at h ⊢
  cases hstages : (ctx.runStages req fs (RunSummary.start req.root startedAt)).result with
  | error e =>
      rw [hstages] at h
      cases h
  | ok before =>
      rw [hstages] at h
      cases h
      exact ⟨before, passed_of_runStages hwf hstages, rfl⟩

/-- A run without normalization ends well if its corpus can be surveyed and its
two files can be written. -/
theorem execute_of_parts (ctx : RunContext) (req : RunRequest) {around : FileSystem}
    {combined : CombinedFile} {notices : List Notice} {findings : List Finding}
    (startedAt : Timestamp) (elapsed : Duration) (hnormalize : req.normalize = false)
    (hsurvey : survey fs req.root ctx.settings.extension = .ok findings)
    (hcombined : writeCombined fs req.root req.combinedFile ctx.settings.extension =
      (around, ⟨.ok combined, notices⟩))
    (hreport : ∀ rows, ∃ final, writeReport around req.reportFile rows = (final, .ok rows.length)) :
    ∃ outcome, (ctx.execute req fs startedAt elapsed).result = .ok outcome ∧
      outcome.rows = aggregate ctx.pattern (Discovery.ofFindings findings).cases
        (analyzeAll ctx.settings.workers (ctx.analyzer.analyze around) ctx.schedule
          ((Discovery.ofFindings findings).fragments.map (·.path))).1 := by
  have hroot : checkRoot fs req.root = .ok () := by
    rw [survey_def] at hsurvey
    split at hsurvey
    · cases hsurvey
    · assumption
  obtain ⟨final, hfinal⟩ := hreport (aggregate ctx.pattern (Discovery.ofFindings findings).cases
    (analyzeAll ctx.settings.workers (ctx.analyzer.analyze around) ctx.schedule
      ((Discovery.ofFindings findings).fragments.map (·.path))).1)
  simp only [execute, runStages, hroot, normalizeStage, hnormalize, Bool.false_eq_true, if_false,
    Run.andThen, discoverStage, hsurvey, validateStage, combineStage, hcombined, analyzeStage,
    reportStage, hfinal, Except.map]
  exact ⟨_, rfl, rfl⟩

end RunContext

end RaceSkeletons
