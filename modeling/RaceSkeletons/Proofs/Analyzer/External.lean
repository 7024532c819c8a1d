import RaceSkeletons.Analyzer.External
import RaceSkeletons.Proofs.Run.Accounts

/-!
# What the external analyzer may end in

However the analyzer program ends, its fragment has a verdict only if the
program ended with status zero in time and printed a verdict document that
reports no error (`ToolRun.Verdict`). Everything else is a failure, and no
failure is silent: its text holds something besides white space. The cells
of a row say the same as the two outcomes they come from.
-/

namespace RaceSkeletons

/-! ## Blank texts -/

namespace Text

theorem mem_dropWhile_isBlank {c : Char} {s : List Char} (h : c ∈ s) (hc : isBlank c = false) :
    c ∈ s.dropWhile isBlank := by
  rw [← List.takeWhile_append_dropWhile (p := isBlank) (l := s), List.mem_append] at h
  rcases h with h | h
  · rw [List.all_eq_true.mp List.all_takeWhile c h] at hc
    cases hc
  · exact h

/-- Trimming takes white space only. -/
theorem mem_trim {c : Char} {s : List Char} (h : c ∈ s) (hc : isBlank c = false) :
    c ∈ trim s := by
  have hstart : c ∈ trimStart s := mem_dropWhile_isBlank h hc
  rw [trim, trimEnd, List.mem_reverse]
  exact mem_dropWhile_isBlank (List.mem_reverse.mpr hstart) hc

theorem allBlank_eq_false_iff {s : String} :
    allBlank s = false ↔ ∃ c ∈ s.toList, isBlank c = false := by
  simp [allBlank]

theorem allBlank_trimmed {s : String} (h : allBlank s = false) :
    allBlank (trimmed s) = false := by
  obtain ⟨c, hmem, hc⟩ := allBlank_eq_false_iff.mp h
  refine allBlank_eq_false_iff.mpr ⟨c, ?_, hc⟩
  rw [trimmed, String.toList_ofList]
  exact mem_trim hmem hc

/-- A blank text is one of which trimming leaves nothing. -/
theorem trimmed_eq_empty_iff {s : String} : trimmed s = "" ↔ allBlank s = true := by
  constructor
  · intro h
    by_contra hblank
    have hkept := allBlank_trimmed (Bool.eq_false_iff.mpr hblank)
    rw [h] at hkept
    simp [allBlank] at hkept
  · intro h
    have hstart : trimStart s.toList = [] := by
      rw [trimStart, ← List.append_nil s.toList,
        List.dropWhile_append_of_pos (List.all_eq_true.mp h), List.dropWhile_nil]
    simp [trimmed, trim, hstart, trimEnd]

theorem allBlank_append {s t : String} (h : allBlank s = false) : allBlank (s ++ t) = false := by
  rw [allBlank] at h
  rw [allBlank, String.toList_append, List.all_append, h, Bool.false_and]

theorem ne_empty_of_allBlank {s : String} (h : allBlank s = false) : s ≠ "" := by
  rintro rfl
  simp [allBlank] at h

end Text

/-! ## Texts of failures -/

/-- The texts a failure takes over from the tool are not blank. There may be
no diagnostic text at all. -/
def ToolFailure.Speaks : ToolFailure → Prop
  | .nonZeroExit _ stderr => stderr = "" ∨ Text.allBlank stderr = false
  | .reported message => Text.allBlank message = false
  | _ => True

/-- The text of a failure says something. -/
theorem ToolFailure.Speaks.message {failure : ToolFailure} (h : failure.Speaks) :
    Text.allBlank failure.message = false := by
  have hspawn : Text.allBlank "Failed to spawn " = false := by decide +kernel
  have hstatus : Text.allBlank "Analyzer exited with status " = false := by decide +kernel
  have htimeout : Text.allBlank "Analyzer timed out after " = false := by decide +kernel
  have hdecode : Text.allBlank "Failed to parse analyzer output: " = false := by decide +kernel
  cases failure with
  | spawn program message =>
    exact Text.allBlank_append (Text.allBlank_append (Text.allBlank_append hspawn))
  | nonZeroExit code stderr =>
    by_cases hempty : stderr = ""
    · subst hempty
      cases code with
      | some code => exact Text.allBlank_append hstatus
      | none => decide +kernel
    · have hmessage : (nonZeroExit code stderr).message = stderr := if_pos hempty
      rw [hmessage]
      exact h.resolve_left hempty
  | timeout limit =>
    exact Text.allBlank_append (Text.allBlank_append htimeout)
  | reported message => exact h
  | decode message => exact Text.allBlank_append hdecode

/-- The diagnostic text of a tool is empty or says something. -/
theorem speaks_diagnosticText (code : Option Int) (stderr : Bytes) :
    (ToolFailure.nonZeroExit code (diagnosticText stderr)).Speaks := by
  by_cases h : Text.allBlank (Utf8.decodeLossy stderr) = true
  · exact .inl (Text.trimmed_eq_empty_iff.mpr h)
  · exact .inr (Text.allBlank_trimmed (Bool.eq_false_iff.mpr h))

/-! ## Verdicts -/

/-- The document reports no error: the field is absent, null or blank. -/
def Payload.IsClean (payload : Payload) : Prop :=
  ∀ message, payload.error = some message → Text.allBlank message = true

/-- The command ended with status zero in time, and what it printed is a
document that reports no error. -/
def ToolRun.Verdict (run : ToolRun) (payload : Payload) : Prop :=
  ∃ stdout stderr, run = .ended (some 0) stdout stderr ∧
    Payload.parse (Utf8.decodeLossy stdout) = .ok payload ∧ payload.IsClean

/-- What a document says about its fragment. -/
theorem Payload.toOutcome_cases (payload : Payload) :
    (payload.IsClean ∧
      payload.toOutcome = .analyzed payload.hasWrite (payload.lineContent.filter (· ≠ ""))) ∨
    (¬ payload.IsClean ∧
      ∃ failure, payload.toOutcome = .failed failure ∧ failure.Speaks) := by
  rcases herror : payload.error with _ | message
  · exact .inl ⟨by simp [IsClean, herror], by simp [toOutcome, herror]⟩
  by_cases hblank : Text.allBlank message = true
  · exact .inl ⟨by simp [IsClean, herror, hblank], by simp [toOutcome, herror, hblank]⟩
  · refine .inr ⟨by simp [IsClean, herror, hblank], .reported (Text.trimmed message), ?_, ?_⟩
    · simp [toOutcome, herror, hblank]
    · exact Text.allBlank_trimmed (Bool.eq_false_iff.mpr hblank)

namespace ExternalAnalyzer

variable (a : ExternalAnalyzer)

/-- A command gives a verdict, and its outcome is what the document says, or
gives none, and its outcome is a failure that says something. -/
theorem outcomeOf_cases (run : ToolRun) :
    (∃ payload, run.Verdict payload ∧
      a.outcomeOf run =
        .analyzed payload.hasWrite (payload.lineContent.filter (· ≠ ""))) ∨
    ((¬ ∃ payload, run.Verdict payload) ∧
      ∃ failure, a.outcomeOf run = .failed failure ∧ failure.Speaks) := by
  cases run with
  | notStarted error => exact .inr ⟨by simp [ToolRun.Verdict], _, rfl, trivial⟩
  | timedOut => exact .inr ⟨by simp [ToolRun.Verdict], _, rfl, trivial⟩
  | ended status stdout stderr =>
    by_cases hstatus : status = some 0
    · subst hstatus
      rw [outcomeOf, Outcome.ofOutput]
      rcases hparse : Payload.parse (Utf8.decodeLossy stdout) with e | payload
      · exact .inr ⟨by simp [ToolRun.Verdict, hparse], _, rfl, trivial⟩
      · have hverdict (p : Payload) :
            (ToolRun.ended (some 0) stdout stderr).Verdict p ↔ payload = p ∧ p.IsClean := by
          simp [ToolRun.Verdict, hparse]
        rcases payload.toOutcome_cases with ⟨hclean, houtcome⟩ | ⟨hclean, hfailed⟩
        · exact .inl ⟨payload, (hverdict _).mpr ⟨rfl, hclean⟩, houtcome⟩
        · refine .inr ⟨?_, hfailed⟩
          rintro ⟨p, hp⟩
          obtain ⟨rfl, hp⟩ := (hverdict p).mp hp
          exact hclean hp
    · refine .inr ⟨by simp [ToolRun.Verdict, hstatus], _, ?_, speaks_diagnosticText status stderr⟩
      rw [outcomeOf]
      rintro rfl
      exact hstatus rfl

/-- An outcome of the analyzer, on some host and for some fragment. -/
def Answers (o : Outcome) : Prop :=
  ∃ host fs p, ((a.on host).analyze fs p).outcome = o

variable {a} {o : Outcome}

theorem Answers.speaks (h : a.Answers o) {failure : ToolFailure} (hfailed : o = .failed failure) :
    failure.Speaks := by
  obtain ⟨host, fs, p, rfl⟩ := h
  rcases a.outcomeOf_cases (host fs (a.command p)) with ⟨_, _, houtcome⟩ | ⟨_, f, houtcome, hf⟩
  · exact nomatch houtcome.symm.trans hfailed
  · cases houtcome.symm.trans hfailed
    exact hf

end ExternalAnalyzer

/-! ## Rows -/

/-- The half of a row says the same in all its cells. -/
structure FragmentRow.IsConsistent (r : FragmentRow) : Prop where
  error : r.status = .failed ↔ r.error ≠ ""
  line : r.status = .failed → r.line = ""
  hasWrite : r.status = .writes ↔ r.hasWrite = true

/-- A fragment with no outcome, or with one of the external analyzer, has a
consistent half of a row. -/
theorem FragmentRow.isConsistent_of (a : ExternalAnalyzer) (f : Fragment) {o : Option Outcome}
    (h : ∀ outcome, o = some outcome → a.Answers outcome) : (FragmentRow.of f o).IsConsistent := by
  rcases o with _ | ⟨hasWrite, line⟩ | failure
  · exact ⟨by simp [of], by simp [of], by simp [of]⟩
  · cases hasWrite
    · exact ⟨by simp [of], by simp [of], by simp [of]⟩
    · exact ⟨by simp [of], by simp [of], by simp [of]⟩
  · have hne : failure.message ≠ "" := Text.ne_empty_of_allBlank ((h _ rfl).speaks rfl).message
    exact ⟨by simp [of, hne], by simp [of], by simp [of]⟩

/-- The cells of a record that say how the analysis of a fragment went. -/
structure CellsAgree (record : List String) : Prop where
  error : ∀ file ∈ ["file1", "file2"],
    (cell? (file ++ "_status") record = some "ERROR" ↔
      ∃ text, cell? (file ++ "_error") record = some text ∧ text ≠ "")
  line : ∀ file ∈ ["file1", "file2"],
    cell? (file ++ "_status") record = some "ERROR" → cell? (file ++ "_line") record = some ""
  hasWrite : cell? "has_write" record = some "TRUE" ↔ "TRUE" ∈ statusCells record

theorem FragmentStatus.text_eq_true {s : FragmentStatus} : s.text = "TRUE" ↔ s = .writes := by
  cases s <;> decide

theorem CaseRow.cellsAgree {r : CaseRow} (hfirst : r.first.IsConsistent)
    (hsecond : r.second.IsConsistent)
    (hwrite : r.hasWrite = (r.first.hasWrite || r.second.hasWrite)) :
    CellsAgree r.record where
  error := by
    simp [cell?, reportColumns, record, List.lookup, FragmentStatus.text_eq_error, hfirst.error,
      hsecond.error]
  line := by
    simpa [cell?, reportColumns, record, List.lookup, FragmentStatus.text_eq_error] using
      ⟨hfirst.line, hsecond.line⟩
  hasWrite := by
    rw [cell?_hasWrite, statusCells_record, Option.some_inj, flagText_eq_true, hwrite,
      Bool.or_eq_true, List.mem_pair, @eq_comm _ "TRUE", @eq_comm _ "TRUE",
      FragmentStatus.text_eq_true, FragmentStatus.text_eq_true, hfirst.hasWrite, hsecond.hasWrite]

/-- The external analyzer errs on the safe side. On every host and for every
fragment it says that there is a write exactly if the program gave a verdict
that says so, and where the program gave no verdict it answers a failure
whose text is not blank. In every row made of such outcomes a fragment has
an error text exactly if its status is an error, then it has no line, and the
row says that there is a write exactly if one of its statuses does. -/
theorem external_fails_safe (a : ExternalAnalyzer) :
    (∀ (host : Host) (fs : FileSystem) (p : Path),
      let run := host fs (a.command p)
      let outcome := ((a.on host).analyze fs p).outcome
      (outcome.hasWrite = true ↔ ∃ payload, run.Verdict payload ∧ payload.hasWrite = true) ∧
      ((∃ payload, run.Verdict payload) → outcome.isFailure = false) ∧
      ((¬ ∃ payload, run.Verdict payload) →
        ∃ failure, outcome = .failed failure ∧ failure.message ≠ "" ∧
          Text.allBlank failure.message = false)) ∧
    ∀ (pattern : TrackedPattern) (cases : List Case) (results : AnalysisResults),
      (∀ p outcome, results.get? p = some outcome → a.Answers outcome) →
        ∀ row ∈ aggregate pattern cases results, CellsAgree row.record := by
  refine ⟨fun host fs p => ?_, fun pattern cases results hresults row hrow => ?_⟩
  · intro run outcome
    have houtcome : outcome = a.outcomeOf run := rfl
    rcases a.outcomeOf_cases run with ⟨payload, hverdict, hanalyzed⟩ | ⟨hnone, f, hfailed, hf⟩
    · rw [houtcome, hanalyzed]
      refine ⟨⟨fun h => ⟨payload, hverdict, h⟩, ?_⟩, fun _ => rfl, fun h => absurd ⟨_, hverdict⟩ h⟩
      rintro ⟨payload', ⟨stdout, stderr, hrun, hparse, -⟩, hwrite⟩
      -- a command prints one document
      obtain ⟨stdout', stderr', hrun', hparse', -⟩ := hverdict
      cases hrun.symm.trans hrun'
      cases hparse.symm.trans hparse'
      exact hwrite
    · rw [houtcome, hfailed]
      refine ⟨⟨nofun, fun ⟨payload, h, _⟩ => absurd ⟨payload, h⟩ hnone⟩, fun h => absurd h hnone,
        fun _ => ⟨f, rfl, Text.ne_empty_of_allBlank hf.message, hf.message⟩⟩
  · obtain ⟨c, -, rfl⟩ := List.mem_map.mp hrow
    exact CaseRow.cellsAgree (FragmentRow.isConsistent_of a c.first (hresults _))
      (FragmentRow.isConsistent_of a c.second (hresults _)) rfl

/-- The program prints a verdict for one fragment of a case, a write, and is
ended by a signal on the other, with blanks on its standard error. -/
theorem external_fails_safe_signal :
    let a : ExternalAnalyzer := { program := ⟨"racer"⟩, limit := .ofMillis 10 }
    let host : Host := fun _ command =>
      if command = a.command ⟨"/r/a/w.go"⟩ then
        .ended (some 0) (Utf8.encode "\x7b\"has_write\":true,\"error\":\" \"\x7d\n") []
      else .ended none [] (Utf8.encode " \n")
    let answer := fun p => ((a.on host).analyze sampleFiles p).outcome
    let results : AnalysisResults :=
      .ofList [(⟨"/r/a/w.go"⟩, answer ⟨"/r/a/w.go"⟩), (⟨"/r/a/x.go"⟩, answer ⟨"/r/a/x.go"⟩)]
    (∀ p outcome, results.get? p = some outcome → a.Answers outcome) ∧
      (answer ⟨"/r/a/w.go"⟩).hasWrite = true ∧
      (∃ failure, answer ⟨"/r/a/x.go"⟩ = .failed failure ∧ failure.message ≠ "") ∧
      ∃ row, aggregate ⟨"racyVar"⟩ [sampleCase] results = [row] ∧ CellsAgree row.record ∧
        statusCells row.record = ["TRUE", "ERROR"] := by
  intro a host answer results
  obtain ⟨hanswer, hrows⟩ := external_fails_safe a
  have hresults : ∀ p outcome, results.get? p = some outcome → a.Answers outcome := by
    intro p outcome h
    obtain ⟨entry, hfind, rfl⟩ := Option.map_eq_some_iff.mp h
    have hmem : entry ∈ results.toList := List.mem_of_find?_eq_some hfind
    have hlist : results.toList =
        [(⟨"/r/a/w.go"⟩, answer ⟨"/r/a/w.go"⟩), (⟨"/r/a/x.go"⟩, answer ⟨"/r/a/x.go"⟩)] := by
      decide +kernel
    rw [hlist, List.mem_pair] at hmem
    rcases hmem with rfl | rfl
    · exact ⟨host, sampleFiles, ⟨"/r/a/w.go"⟩, rfl⟩
    · exact ⟨host, sampleFiles, ⟨"/r/a/x.go"⟩, rfl⟩
  have hfailed : answer ⟨"/r/a/x.go"⟩ = .failed (.nonZeroExit none "") := by
    decide +kernel
  refine ⟨hresults, by decide +kernel, ?_, CaseRow.of sampleCase results _, rfl,
    hrows ⟨"racyVar"⟩ [sampleCase] results hresults _ (List.mem_singleton.mpr rfl), ?_⟩
  · have hnone : ¬ ∃ payload, (host sampleFiles (a.command ⟨"/r/a/x.go"⟩)).Verdict payload := by
      intro h
      have hverdict := (hanswer host sampleFiles ⟨"/r/a/x.go"⟩).2.1 h
      exact absurd hverdict (by decide +kernel)
    obtain ⟨failure, hfailure, hmessage, -⟩ :=
      (hanswer host sampleFiles ⟨"/r/a/x.go"⟩).2.2 hnone
    exact ⟨failure, hfailure, hmessage⟩
  · decide +kernel

end RaceSkeletons
