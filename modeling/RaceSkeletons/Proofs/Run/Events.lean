import RaceSkeletons.Proofs.Analyzer.Schedule
import RaceSkeletons.Proofs.Run.Accounts

/-!
# The events of a run

The grammar of the events that a run gives (`IsRunWord`), with the numbers and
paths that they carry. The events are followed stage by stage to the last one,
so that every early end and the run without fragments are words of the grammar
as well. A run ends in exactly one event, which tells how it ended.

The grammar has one predicate for each place from which a run can go on:
`IsReportWord` behind the analysis, `IsCorpusWord` behind normalization.
-/

namespace RaceSkeletons

/-! ## The grammar -/

/-- The events of calls that ended in the order of the list, each with its
success. -/
def callEvents (total : Nat) (calls : List (Path × Bool)) : List Progress :=
  calls.mapIdx fun i call => .fragmentAnalyzed call.1 (i + 1) total call.2

/-- The events of the analysis of all cases. There are none when there is
nothing to analyze. -/
inductive IsAnalysisWord (d : Discovery) : List Progress → Prop where
  | nothing (empty : d.cases = []) : IsAnalysisWord d []
  | calls {calls : List (Path × Bool)} {workers : Nat} (some : d.cases ≠ [])
      (each : (calls.map (·.1)).Perm (d.fragments.map (·.path))) :
      IsAnalysisWord d
        (.analysisStarted (2 * d.cases.length) workers ::
          callEvents (2 * d.cases.length) calls ++
            [.analysisComplete (2 * d.cases.length) (calls.countP fun call => !call.2)])

inductive IsReportWord (req : RunRequest) (d : Discovery) : List Progress → Prop where
  | failed (message : String) : IsReportWord req d [.failed message]
  | completed :
      IsReportWord req d [.reportWritten req.reportFile d.cases.length, .completed d.cases.length]

inductive IsCorpusWord (req : RunRequest) (d : Discovery) : List Progress → Prop where
  | unlisted (message : String) : IsCorpusWord req d [.failed message]
  | uncombined (issues : Nat) (message : String) :
      IsCorpusWord req d
        [.discovered d.cases.length d.excluded.length, .validated d.cases.length issues,
          .failed message]
  | analyzed {issues : Nat} {analysis report : List Progress}
      (isAnalysis : IsAnalysisWord d analysis) (isReport : IsReportWord req d report) :
      IsCorpusWord req d
        (.discovered d.cases.length d.excluded.length :: .validated d.cases.length issues ::
          (analysis ++ report))

/-- The events of a whole run, when discovery finds `d`. -/
inductive IsRunWord (req : RunRequest) (d : Discovery) : List Progress → Prop where
  | noRoot (message : String) : IsRunWord req d [.started req.root, .failed message]
  | normalized {files parseErrors : Nat} {rest : List Progress} (asked : req.normalize = true)
      (goesOn : IsCorpusWord req d rest) :
      IsRunWord req d (.started req.root :: .normalized files parseErrors :: rest)
  | asItIs {rest : List Progress} (notAsked : req.normalize = false)
      (goesOn : IsCorpusWord req d rest) : IsRunWord req d (.started req.root :: rest)

/-! ## How words end -/

/-- Whether the event is the last of a run. -/
def Progress.isLast : Progress → Bool
  | .completed _ | .failed _ => true
  | _ => false

/-- Events of which the last one, and only that, ends a run. -/
def EndsOnce (events : List Progress) : Prop :=
  ∃ before last, events = before ++ [last] ∧ last.isLast = true ∧
    ∀ e ∈ before, e.isLast = false

variable {req : RunRequest} {d : Discovery} {events : List Progress}

theorem EndsOnce.single {e : Progress} (h : e.isLast = true) : EndsOnce [e] :=
  ⟨[], e, rfl, h, fun _ hmem => absurd hmem List.not_mem_nil⟩

theorem EndsOnce.append {front : List Progress} (h : EndsOnce events)
    (hfront : ∀ e ∈ front, e.isLast = false) : EndsOnce (front ++ events) := by
  obtain ⟨before, last, rfl, hlast, hbefore⟩ := h
  refine ⟨front ++ before, last, (List.append_assoc ..).symm, hlast, ?_⟩
  intro e hmem
  rcases List.mem_append.mp hmem with hmem | hmem
  · exact hfront e hmem
  · exact hbefore e hmem

theorem EndsOnce.cons {e : Progress} (h : EndsOnce events) (he : e.isLast = false) :
    EndsOnce (e :: events) := by
  have happend : EndsOnce ([e] ++ events) :=
    h.append fun _ hmem => List.mem_singleton.mp hmem ▸ he
  exact happend

theorem IsAnalysisWord.isLast (h : IsAnalysisWord d events) : ∀ e ∈ events, e.isLast = false := by
  intro e hmem
  cases h with
  | nothing _ => cases hmem
  | @calls calls workers _ _ =>
      simp only [callEvents, List.cons_append, List.mem_cons, List.mem_append, List.mem_mapIdx,
        List.not_mem_nil, or_false] at hmem
      rcases hmem with rfl | ⟨i, hi, rfl⟩ | rfl <;> rfl

theorem IsReportWord.endsOnce (h : IsReportWord req d events) : EndsOnce events := by
  cases h with
  | failed message => exact .single rfl
  | completed => exact .cons (.single rfl) rfl

theorem IsCorpusWord.endsOnce (h : IsCorpusWord req d events) : EndsOnce events := by
  cases h with
  | unlisted message => exact .single rfl
  | uncombined issues message => exact .cons (.cons (.single rfl) rfl) rfl
  | analyzed isAnalysis isReport =>
      exact .cons (.cons (isReport.endsOnce.append isAnalysis.isLast) rfl) rfl

theorem IsRunWord.endsOnce (h : IsRunWord req d events) : EndsOnce events := by
  cases h with
  | noRoot message => exact .cons (.single rfl) rfl
  | normalized _ goesOn => exact .cons (.cons goesOn.endsOnce rfl) rfl
  | asItIs _ goesOn => exact .cons goesOn.endsOnce rfl

/-! ## From a stage to the end of its run -/

namespace Run

variable {α : Type} {r : Run α} {next : FileSystem → α → Run RunOutcome}

/-- The events of a part of a run that goes to its end. -/
def eventsToEnd (r : Run RunOutcome) : List Progress :=
  r.trace.progress ++ [RunContext.lastEvent r.result]

theorem eventsToEnd_andThen {a : α} (h : r.result = .ok a) :
    (r.andThen next).eventsToEnd = r.trace.progress ++ (next r.fs a).eventsToEnd := by
  simp only [eventsToEnd, andThen, h, Trace.progress_append, List.append_assoc]

theorem eventsToEnd_andThen_of_error {e : RunError} (h : r.result = .error e) :
    (r.andThen next).eventsToEnd = r.trace.progress ++ [.failed e.message] := by
  simp only [eventsToEnd, andThen, h]
  rfl

end Run

namespace RunContext

variable (ctx : RunContext) (req : RunRequest) (fs : FileSystem) (s : RunSummary)

theorem isReportWord_reportStage (d : Discovery) (results : AnalysisResults) :
    IsReportWord req d (ctx.reportStage req fs d results s).eventsToEnd := by
  cases hwritten : (writeReport fs req.reportFile (aggregate ctx.pattern d.cases results)).2 with
  | error e =>
      simp only [Run.eventsToEnd, reportStage, hwritten, reportNotices]
      exact .failed e.message
  | ok n =>
      have hn : n = (aggregate ctx.pattern d.cases results).length :=
        (readBytes_of_writeReport (Prod.ext rfl hwritten)).1
      have hrows : (aggregate ctx.pattern d.cases results).length = d.cases.length :=
        List.length_map _
      simp only [Run.eventsToEnd, reportStage, hwritten, reportNotices, Except.map, lastEvent, hn,
        hrows]
      exact .completed

theorem callEvents_eq_endings (total : Nat) (analyze : Path → Analysis) (ended : List Path) :
    callEvents total (ended.map fun path => (path, !Fanout.fails analyze path)) =
      Fanout.endings total analyze ended := by
  rw [callEvents, Fanout.endings]
  refine List.ext_getElem (by simp only [List.length_mapIdx, List.length_map]) fun i _ _ => ?_
  simp only [List.getElem_mapIdx, List.getElem_map]

/-- Whatever the order of the calls, their events are those of the grammar. -/
theorem isAnalysisWord_analyzeAll (d : Discovery) (workers : Nat) (analyze : Path → Analysis)
    (schedule : Nat → Nat) (hd : PathMap.DistinctKeys (d.fragments.map (·.path))) :
    IsAnalysisWord d
      (analyzeAll workers analyze schedule (d.fragments.map (·.path))).2.progress := by
  have hlength : (d.fragments.map (·.path)).length = 2 * d.cases.length := by
    rw [List.length_map, d.length_fragments]
  have hanswer : Fanout.IsAnswer workers (d.fragments.map (·.path))
      (Fanout.finish workers analyze schedule (d.fragments.map (·.path)))
      (analyzeAll workers analyze schedule (d.fragments.map (·.path))) := isAnswer_finish hd
  obtain ⟨ended, hinv⟩ :=
    (Fanout.reachable_finish workers analyze schedule (d.fragments.map (·.path))).invariant hd
  have hleft := Fanout.pending_eq_zero_iff.mp
    (Fanout.pending_finish workers analyze schedule (d.fragments.map (·.path)))
  have hended : ended.Perm (d.fragments.map (·.path)) := by
    have hpartition := hinv.partition
    rwa [hleft.1, hleft.2, List.append_nil, List.append_nil] at hpartition
  by_cases hnone : d.cases = []
  · have hpaths : d.fragments.map (·.path) = [] := by
      rw [Discovery.fragments, hnone]
      rfl
    rw [hanswer.events, if_pos hpaths]
    exact .nothing hnone
  · have hpaths : d.fragments.map (·.path) ≠ [] := by
      intro hnil
      rw [hnil, List.length_nil] at hlength
      exact hnone (List.eq_nil_of_length_eq_zero (by omega))
    have hfailures : ended.countP (Fanout.fails analyze) =
        (ended.map fun path => (path, !Fanout.fails analyze path)).countP fun call => !call.2 := by
      rw [List.countP_map]
      refine List.countP_congr fun path _ => ?_
      simp only [Function.comp_apply, Bool.not_not]
    rw [hanswer.events, if_neg hpaths, hinv.events, hlength, ← callEvents_eq_endings,
      ← hinv.failures_eq hd, hinv.failures, hfailures]
    refine .calls hnone ?_
    rw [List.map_map]
    simpa only [Function.comp_def, List.map_id'] using hended

/-- From the combined file on: it cannot be written, or the analysis follows. -/
theorem eventsToEnd_outputStages (d : Discovery)
    (hd : PathMap.DistinctKeys (d.fragments.map (·.path))) :
    (∃ message, (ctx.outputStages req d fs s).eventsToEnd = [.failed message]) ∨
      ∃ analysis report, (ctx.outputStages req d fs s).eventsToEnd = analysis ++ report ∧
        IsAnalysisWord d analysis ∧ IsReportWord req d report := by
  have hsilent : (ctx.combineStage req fs s).trace.progress = [] := Trace.progress_ofNotices _
  cases hresult : (ctx.combineStage req fs s).result with
  | error e =>
      refine Or.inl ⟨e.message, ?_⟩
      rw [outputStages, Run.eventsToEnd_andThen_of_error hresult, hsilent, List.nil_append]
  | ok s' =>
      have hanalysis := isAnalysisWord_analyzeAll d ctx.settings.workers
        (ctx.analyzer.analyze (ctx.combineStage req fs s).fs) ctx.schedule hd
      let results := (analyzeAll ctx.settings.workers
        (ctx.analyzer.analyze (ctx.combineStage req fs s).fs) ctx.schedule
        (d.fragments.map (·.path))).1
      have hreport := isReportWord_reportStage ctx req (ctx.combineStage req fs s).fs
        (s'.record (.analysis results)) d results
      refine Or.inr ⟨_, _, ?_, hanalysis, hreport⟩
      rw [outputStages, Run.eventsToEnd_andThen hresult, hsilent, List.nil_append,
        Run.eventsToEnd_andThen rfl]
      rfl

theorem isCorpusWord_corpusStages {findings : List Finding} (hwf : fs.WellFormed)
    (hsurvey : survey fs req.root ctx.settings.extension = .ok findings) :
    IsCorpusWord req (.ofFindings findings) (ctx.corpusStages req fs s).eventsToEnd := by
  have hfound : (ctx.discoverStage req fs s).trace.progress =
      [.discovered (Discovery.ofFindings findings).cases.length
        (Discovery.ofFindings findings).excluded.length] := by
    rw [discoverStage, hsurvey, Trace.progress_append, Trace.progress_ofNotices]
    rfl
  have hresult : (ctx.discoverStage req fs s).result =
      .ok (.ofFindings findings, s.record (.discovery (.ofFindings findings))) := by
    rw [discoverStage, hsurvey]
  obtain ⟨hfs, -⟩ := discoverStage_eq_ok hresult
  have hvalidated : ∀ s', (ctx.validateStage fs (.ofFindings findings) s').trace.progress =
      [.validated (Discovery.ofFindings findings).cases.length
        (ctx.pattern.validate (Discovery.ofFindings findings).cases).issues.length] := by
    intro s'
    rw [validateStage, Trace.progress_append, Trace.progress_ofNotices]
    rfl
  have houtput := fun s' => eventsToEnd_outputStages ctx req fs s' (.ofFindings findings)
    (distinct_fragments hwf hsurvey)
  rw [corpusStages, Run.eventsToEnd_andThen hresult, hfound, hfs, Run.eventsToEnd_andThen rfl,
    hvalidated, fs_validateStage]
  rcases houtput _ with ⟨message, hfailed⟩ | ⟨analysis, report, hevents, hanalysis, hreport⟩
  · rw [hfailed]
    exact .uncombined _ message
  · rw [hevents, List.singleton_append, List.singleton_append]
    exact .analyzed hanalysis hreport

theorem distinct_found (hwf : fs.WellFormed) :
    PathMap.DistinctKeys ((ctx.found req fs).fragments.map (·.path)) := by
  cases hsurvey : survey (ctx.prepared req fs) req.root ctx.settings.extension with
  | error e =>
      rw [found, discover, hsurvey]
      exact List.nodup_nil
  | ok findings =>
      rw [found_eq hsurvey]
      exact distinct_fragments (wellFormed_prepared ctx req hwf) hsurvey

/-- The events of all stages, behind the first one of the run. -/
theorem isRunWord_runStages (hwf : fs.WellFormed) :
    IsRunWord req (ctx.found req fs)
      (.started req.root :: (ctx.runStages req fs s).eventsToEnd) := by
  cases hroot : checkRoot fs req.root with
  | error e =>
      simp only [runStages, hroot, Run.eventsToEnd, lastEvent]
      exact .noRoot _
  | ok _ =>
      obtain ⟨s', hresult⟩ := ctx.normalizeStage_isOk req fs s
      have hrest : IsCorpusWord req (ctx.found req fs)
          (ctx.corpusStages req (ctx.prepared req fs) s').eventsToEnd := by
        cases hsurvey : survey (ctx.prepared req fs) req.root ctx.settings.extension with
        | error e =>
            have hdiscover : (ctx.discoverStage req (ctx.prepared req fs) s').result =
                .error (.discovery e) := by
              rw [discoverStage, hsurvey]
            have hsilent : (ctx.discoverStage req (ctx.prepared req fs) s').trace = [] := by
              rw [discoverStage, hsurvey]
            rw [corpusStages, Run.eventsToEnd_andThen_of_error hdiscover, hsilent]
            exact .unlisted _
        | ok findings =>
            rw [found_eq hsurvey]
            exact isCorpusWord_corpusStages ctx req _ s' (wellFormed_prepared ctx req hwf) hsurvey
      rw [runStages_of_root hroot, Run.eventsToEnd_andThen hresult, ctx.fs_normalizeStage]
      cases hnormalize : req.normalize with
      | true =>
          have hevents : ∃ files parseErrors, (ctx.normalizeStage req fs s).trace.progress =
              [.normalized files parseErrors] := by
            simp only [normalizeStage, hnormalize, if_true, Trace.progress_append,
              Trace.progress_ofNotices, List.nil_append]
            exact ⟨_, _, rfl⟩
          obtain ⟨files, parseErrors, hevents⟩ := hevents
          rw [hevents]
          exact .normalized hnormalize hrest
      | false =>
          have hevents : (ctx.normalizeStage req fs s).trace.progress = [] := by
            simp only [normalizeStage, hnormalize]
            rfl
          rw [hevents, List.nil_append]
          exact .asItIs hnormalize hrest

end RunContext

/-! ## Whole runs -/

/-- The events of every run are a word of the grammar, with the numbers of
what discovery found. The last event, and no other, ends the run: it says
that the run completed exactly if the run answers a result. -/
theorem execute_events (ctx : RunContext) (req : RunRequest) (fs : FileSystem)
    (startedAt : Timestamp) (elapsed : Duration) (hwf : fs.WellFormed) :
    let run := ctx.execute req fs startedAt elapsed
    IsRunWord req (ctx.found req fs) run.trace.progress ∧
      PathMap.DistinctKeys ((ctx.found req fs).fragments.map (·.path)) ∧
      EndsOnce run.trace.progress ∧
      ((∃ cases, .completed cases ∈ run.trace.progress) ↔ ∃ outcome, run.result = .ok outcome) := by
  intro run
  have hevents : run.trace.progress = .started req.root ::
      (ctx.runStages req fs (RunSummary.start req.root startedAt)).eventsToEnd := by
    simp only [run, RunContext.execute, Trace.progress_append, Run.eventsToEnd]
    rfl
  have hword := ctx.isRunWord_runStages req fs (RunSummary.start req.root startedAt) hwf
  rw [← hevents] at hword
  refine ⟨hword, ctx.distinct_found req fs hwf, hword.endsOnce, ?_⟩
  -- the last event is made from the result, and is the only one that ends the run
  have hresult : (∃ outcome, run.result = .ok outcome) ↔
      ∃ outcome, (ctx.runStages req fs (RunSummary.start req.root startedAt)).result =
        .ok outcome := by
    simp only [run, RunContext.execute]
    cases (ctx.runStages req fs (RunSummary.start req.root startedAt)).result <;>
      simp [Except.map]
  obtain ⟨before, last, hsplit, -, hbefore⟩ := hword.endsOnce
  have hlast : last = RunContext.lastEvent
      (ctx.runStages req fs (RunSummary.start req.root startedAt)).result := by
    rw [hevents, Run.eventsToEnd, ← List.cons_append] at hsplit
    exact (List.singleton_inj.mp (List.append_inj_right' hsplit rfl)).symm
  have hmem : ∀ cases, Progress.completed cases ∈ run.trace.progress ↔ .completed cases = last := by
    intro cases
    rw [hsplit, List.mem_append, List.mem_singleton]
    refine ⟨fun h => h.resolve_left fun hmem => ?_, Or.inr⟩
    have hearly := hbefore _ hmem
    cases hearly
  simp only [hmem, hresult, hlast]
  cases (ctx.runStages req fs (RunSummary.start req.root startedAt)).result with
  | error e => simp [RunContext.lastEvent]
  | ok outcome => simp [RunContext.lastEvent]

/-- The sample run completes with one case, of which one call fails. -/
theorem execute_events_sample :
    sampleFiles.WellFormed ∧
      IsRunWord sampleRequest (sampleRun.found sampleRequest sampleFiles)
        (sampleRun.execute sampleRequest sampleFiles default default).trace.progress ∧
      ∃ cases, .completed cases ∈
        (sampleRun.execute sampleRequest sampleFiles default default).trace.progress := by
  have hwf : sampleFiles.WellFormed :=
    ⟨by decide, by decide, nofun⟩
  obtain ⟨outcome, hresult, -⟩ := execute_sample
  obtain ⟨hword, -, -, hcompleted⟩ :=
    execute_events sampleRun sampleRequest sampleFiles default default hwf
  exact ⟨hwf, hword, hcompleted.mpr ⟨outcome, hresult⟩⟩

end RaceSkeletons
