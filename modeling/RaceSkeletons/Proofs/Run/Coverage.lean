import RaceSkeletons.Proofs.Corpus.Partition
import RaceSkeletons.Proofs.Run.Accounts
import RaceSkeletons.Proofs.Tracked.Words

/-!
# Kinds of races and missing references

One stage of a run looks for fragments that mention no tracked variable, another one for
fragments that assign to one. They search alone, but a position where an assignment starts is
one where a name starts (`TrackedPattern.referencedAt_of_assignedAt`), so they cannot
contradict each other: a case of which both fragments assign lacks no reference.

The issues of a list of cases are then the cases that lack a reference, one by one
(`TrackedPattern.forall₂_issues`), and these are apart from the cases that are write-write.
-/

namespace RaceSkeletons

open FileSystem

namespace TrackedPattern

variable {p : TrackedPattern} {c : Case} {before : Option Char} {rest : List Char}
  {text : String}

/-! ## Assignments are references -/

theorem referencedAt_of_assignedAt (h : p.assignedAt before rest = true) :
    p.referencedAt before rest = true := by
  rw [assignedAt] at h
  rw [referencedAt]
  cases htail : p.nameTail? before rest with
  | none =>
      rw [htail] at h
      cases h
  | some tail =>
      rw [htail] at h
      exact ((Bool.and_eq_true _ _).mp h).1

theorem isReferenced_of_isAssigned (h : p.isAssigned text = true) : p.isReferenced text = true := by
  rw [isAssigned, anyPosition_iff] at h
  rw [isReferenced, anyPosition_iff]
  obtain ⟨pre, post, heq, hassigned⟩ := h
  exact ⟨pre, post, heq, referencedAt_of_assignedAt hassigned⟩

/-! ## Cases that lack a reference -/

/-- Whether a fragment of a case mentions no tracked variable. -/
def LacksReference (p : TrackedPattern) (c : Case) : Prop :=
  ∃ f ∈ c.fragments, p.isReferenced f.content = false

instance (p : TrackedPattern) (c : Case) : Decidable (p.LacksReference c) :=
  inferInstanceAs (Decidable (∃ f ∈ c.fragments, _))

/-- Whether an issue says of a case what is missing in it. -/
structure IsIssueOf (p : TrackedPattern) (c : Case) (issue : PatternIssue) : Prop where
  caseId : issue.caseId = c.id
  dir : issue.dir = c.dir
  leading : issue.leading = p.leading
  missing : issue.missing =
    (if p.isReferenced c.first.content then [] else [c.first.name]) ++
      (if p.isReferenced c.second.content then [] else [c.second.name])

theorem lacksReference_iff : p.LacksReference c ↔
    p.isReferenced c.first.content = false ∨ p.isReferenced c.second.content = false := by
  simp only [LacksReference, Case.fragments, List.mem_pair, exists_eq_or_imp, exists_eq_left]

theorem missingIn_eq (p : TrackedPattern) (c : Case) : p.missingIn c =
    (if p.isReferenced c.first.content then [] else [c.first.name]) ++
      (if p.isReferenced c.second.content then [] else [c.second.name]) := by
  rw [missingIn, Case.fragments]
  cases hfirst : p.isReferenced c.first.content <;>
    cases hsecond : p.isReferenced c.second.content <;> simp [hfirst, hsecond]

theorem missingIn_eq_nil_iff : p.missingIn c = [] ↔ ¬ p.LacksReference c := by
  rw [missingIn_eq, lacksReference_iff]
  cases p.isReferenced c.first.content <;> cases p.isReferenced c.second.content <;> simp

/-- A case that lacks no reference has no issue, and any other has one that says so. -/
theorem issueOf?_cases (p : TrackedPattern) (c : Case) :
    (¬ p.LacksReference c ∧ p.issueOf? c = none) ∨
      (p.LacksReference c ∧ ∃ issue, p.issueOf? c = some issue ∧ p.IsIssueOf c issue) := by
  by_cases hlacks : p.LacksReference c
  · refine .inr ⟨hlacks, ?_⟩
    have hmissing := missingIn_eq p c
    rw [issueOf?]
    cases hlist : p.missingIn c with
    | nil => exact absurd hlacks (missingIn_eq_nil_iff.mp hlist)
    | cons name more =>
        rw [hlist] at hmissing
        exact ⟨_, rfl, rfl, rfl, rfl, hmissing⟩
  · refine .inl ⟨hlacks, ?_⟩
    rw [issueOf?, missingIn_eq_nil_iff.mpr hlacks]

/-- The issues are those of the cases that lack a reference, in the same order. -/
theorem forall₂_issues (p : TrackedPattern) (cases : List Case) :
    List.Forall₂ p.IsIssueOf (cases.filter fun c => p.LacksReference c)
      (p.validate cases).issues := by
  rw [validate]
  induction cases with
  | nil => exact .nil
  | cons c cases ih =>
      rcases p.issueOf?_cases c with ⟨hcovered, hnone⟩ | ⟨hlacks, issue, hsome, hissue⟩
      · rw [List.filter_cons_of_neg (by simpa using hcovered), List.filterMap_cons_none hnone]
        exact ih
      · rw [List.filter_cons_of_pos (by simpa using hlacks), List.filterMap_cons_some hsome]
        exact .cons hissue ih

/-! ## Write-write cases -/

theorem not_lacksReference_of_writeWrite (h : p.classify c = .writeWrite) :
    ¬ p.LacksReference c := by
  rw [classify, classifyTexts] at h
  split at h
  · next hboth =>
      obtain ⟨hfirst, hsecond⟩ := (Bool.and_eq_true _ _).mp hboth
      rw [lacksReference_iff, isReferenced_of_isAssigned hfirst,
        isReferenced_of_isAssigned hsecond]
      exact not_or.mpr ⟨Bool.noConfusion, Bool.noConfusion⟩
  · cases h

/-- Every issue is that of a case that lacks a reference. -/
theorem exists_case_of_issue {cases : List Case} {issue : PatternIssue}
    (h : issue ∈ (p.validate cases).issues) :
    ∃ c ∈ cases, p.IsIssueOf c issue ∧ p.LacksReference c := by
  obtain ⟨c, hc, hsome⟩ := List.mem_filterMap.mp h
  rcases p.issueOf?_cases c with ⟨-, hnone⟩ | ⟨hlacks, issue', hsome', hissue⟩
  · rw [hnone] at hsome
    cases hsome
  · obtain rfl := Option.some.inj (hsome'.symm.trans hsome)
    exact ⟨c, hc, hissue, hlacks⟩

/-- Among any cases there is room for those that are write-write beside those with an issue. -/
theorem writeWrite_add_issues_le (p : TrackedPattern) (cases : List Case) :
    cases.countP (fun c => p.classify c == .writeWrite) + (p.validate cases).issues.length ≤
      cases.length := by
  have hissues : (p.validate cases).issues.length =
      cases.countP fun c => p.LacksReference c := by
    rw [← (p.forall₂_issues cases).length_eq, List.countP_eq_length_filter]
  have hkinds : cases.countP (fun c => p.classify c == .writeWrite) ≤
      cases.countP fun c => ¬ p.LacksReference c := by
    refine List.countP_mono_left fun c _ hkind => ?_
    exact decide_eq_true (not_lacksReference_of_writeWrite (beq_iff_eq.mp hkind))
  have hall := List.length_eq_countP_add_countP (fun c => decide (p.LacksReference c)) (l := cases)
  simp only [decide_eq_true_eq] at hall
  omega

end TrackedPattern

/-! ## Runs -/

namespace RunContext.Passed

variable {ctx : RunContext} {req : RunRequest} {final : FileSystem} {outcome : RunOutcome}
  (run : Passed ctx req outcome final)

theorem discover_eq : discover run.surveyed req.root ctx.settings.extension =
    .ok run.discovery := by
  rw [discover, run.isSurvey]
  rfl

/-- The cases of a run can be told apart by their names. -/
theorem case_of_id {c c' : Case} (hc : c ∈ run.discovery.cases) (hc' : c' ∈ run.discovery.cases)
    (h : c.id = c'.id) : c = c' := by
  have hpartition := (lists_entryPaths _).isPartition run.isWellFormed run.discover_eq
  have hnodup : (run.discovery.cases.map (·.id)).Nodup :=
    List.pairwise_map.mpr (hpartition.casesAscending.imp fun hlt => ne_of_lt hlt)
  exact List.inj_on_of_nodup_map hnodup hc hc' h

theorem writeWrite_eq : outcome.summary.writeWrite =
    run.discovery.cases.countP fun c => ctx.pattern.classify c == .writeWrite := by
  have hcount : outcome.rows.countP (·.kind == .writeWrite) =
      run.discovery.cases.countP fun c => ctx.pattern.classify c == .writeWrite := by
    rw [run.rows_eq, aggregate, List.countP_map]
    rfl
  rw [run.summary_eq]
  exact hcount

theorem patternIssues_eq :
    outcome.summary.patternIssues = (ctx.pattern.validate run.discovery.cases).issues ∧
      outcome.summary.casesWithPatternIssues = outcome.summary.patternIssues.length := by
  rw [run.summary_eq, ← run.isPatterns]
  exact ⟨rfl, rfl⟩

theorem validCases_eq : outcome.summary.validCases = run.discovery.cases.length := by
  rw [run.summary_eq]
  rfl

end RunContext.Passed

/-- **The validator and the classifier agree.** Whatever assigns to a tracked variable
mentions one, whatever the prefix. So the issues of any list of cases are, one by one and in
order, those of the cases with a fragment that mentions none, and none of these is write-write.
In the summary of a run that ends well, write-write cases and pattern issues are together no
more than the cases, and no row of kind write-write has the name of a case with an issue. -/
theorem kinds_agree_with_issues (p : TrackedPattern) :
    (∀ text, p.isAssigned text = true → p.isReferenced text = true) ∧
      (∀ cases, List.Forall₂ p.IsIssueOf (cases.filter fun c => p.LacksReference c)
          (p.validate cases).issues ∧
        ∀ c ∈ cases, p.classify c = .writeWrite → ¬ p.LacksReference c) ∧
      ∀ (ctx : RunContext) (req : RunRequest) (fs : FileSystem) (startedAt : Timestamp)
        (elapsed : Duration) (outcome : RunOutcome), fs.WellFormed → ctx.pattern = p →
        (ctx.execute req fs startedAt elapsed).result = .ok outcome →
        outcome.summary.casesWithPatternIssues = outcome.summary.patternIssues.length ∧
          outcome.summary.writeWrite + outcome.summary.casesWithPatternIssues ≤
            outcome.summary.validCases ∧
          ∀ r ∈ outcome.rows, r.kind = .writeWrite →
            ∀ issue ∈ outcome.summary.patternIssues, issue.caseId ≠ r.caseId := by
  refine ⟨fun _ => TrackedPattern.isReferenced_of_isAssigned, fun cases =>
    ⟨p.forall₂_issues cases, fun _ _ => TrackedPattern.not_lacksReference_of_writeWrite⟩, ?_⟩
  rintro ctx req fs startedAt elapsed outcome hwf rfl h
  obtain ⟨before, ⟨run⟩, rfl⟩ := RunContext.passed_of_execute hwf h
  obtain ⟨hissues, hlength⟩ := run.patternIssues_eq
  refine ⟨hlength, ?_, ?_⟩
  · have hroom := ctx.pattern.writeWrite_add_issues_le run.discovery.cases
    rw [← run.writeWrite_eq, ← run.validCases_eq, ← hissues, ← hlength] at hroom
    exact hroom
  · intro r hr hkind issue hissue heq
    obtain ⟨c, hc, hissueOf, hlacks⟩ :=
      TrackedPattern.exists_case_of_issue (hissues ▸ hissue)
    rw [run.rows_eq] at hr
    obtain ⟨c', hc', rfl⟩ := List.mem_map.mp hr
    obtain rfl := run.case_of_id hc hc' (hissueOf.caseId.symm.trans heq)
    exact TrackedPattern.not_lacksReference_of_writeWrite hkind hlacks

/-- The sample case with an assignment in each fragment. -/
def assigningCase : Case :=
  { sampleCase with
    first := { sampleCase.first with content := "racyVar1 = 1" }
    second := { sampleCase.second with content := "racyVar1 += racyVar2; racyVar2 = 0" } }

/-- Of a write-write case and a case with empty fragments, only the second is an issue. -/
theorem kinds_agree_with_issues_sample :
    TrackedPattern.standard.isReferenced assigningCase.second.content = true ∧
      TrackedPattern.standard.classify assigningCase = .writeWrite ∧
      ¬ TrackedPattern.standard.LacksReference assigningCase ∧
      List.Forall₂ TrackedPattern.standard.IsIssueOf [sampleCase]
        [⟨"a", ⟨"/r/a"⟩, "racyVar", ["w.go", "x.go"]⟩] ∧
      sampleFiles.WellFormed ∧
      ∃ outcome, (sampleRun.execute sampleRequest sampleFiles default default).result =
          .ok outcome ∧
        outcome.summary.writeWrite + outcome.summary.casesWithPatternIssues ≤
          outcome.summary.validCases := by
  obtain ⟨htexts, hlists, hruns⟩ := kinds_agree_with_issues TrackedPattern.standard
  have hmentions := htexts assigningCase.second.content (by decide)
  have hkind : TrackedPattern.standard.classify assigningCase = .writeWrite := by decide
  have hcovered := (hlists [assigningCase]).2 assigningCase List.mem_cons_self hkind
  have hissues := (hlists [assigningCase, sampleCase]).1
  have hlacking : ([assigningCase, sampleCase].filter fun c =>
      TrackedPattern.standard.LacksReference c) = [sampleCase] := by decide
  have hissue : (TrackedPattern.standard.validate [assigningCase, sampleCase]).issues =
      [⟨"a", ⟨"/r/a"⟩, "racyVar", ["w.go", "x.go"]⟩] := by decide
  rw [hlacking, hissue] at hissues
  have hwf : sampleFiles.WellFormed := ⟨by decide, by decide, nofun⟩
  obtain ⟨outcome, hresult, -⟩ := execute_sample
  obtain ⟨-, hroom, -⟩ :=
    hruns sampleRun sampleRequest sampleFiles default default outcome hwf rfl hresult
  exact ⟨hmentions, hkind, hcovered, hissues, hwf, outcome, hresult, hroom⟩

end RaceSkeletons
