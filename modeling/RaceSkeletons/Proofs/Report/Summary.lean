import Mathlib.Data.List.Nodup
import RaceSkeletons.Report.Summary

/-!
# Stages of a summary

Every step belongs to one stage (`SummaryStep.stage`) and sets all fields of this stage and no
other field. Two things follow from that. Steps of different stages can change places
(`RunSummary.record_comm`), and of two steps of one stage the second leaves nothing of the first
(`RunSummary.record_replaces`).

So of a run of steps, however long and in whatever order, only the last step of each stage counts
(`RunSummary.foldl_record_lastSteps`), and it does not matter in which order these steps stand
(`RunSummary.foldl_record_perm`).
-/

namespace RaceSkeletons

/-! ## Stages -/

/-- The stages that a summary has fields for. -/
inductive SummaryStage where
  | normalization
  | discovery
  | patterns
  | combined
  | analysis
  | reports
  | rowsWritten
  | finish
  deriving Repr, DecidableEq

namespace SummaryStep

variable {a step : SummaryStep} {rows : List CaseRow} {steps last : List SummaryStep}

def stage : SummaryStep → SummaryStage
  | normalization _ => .normalization
  | discovery _ => .discovery
  | patterns _ => .patterns
  | combined _ => .combined
  | analysis _ => .analysis
  | reports _ => .reports
  | rowsWritten _ => .rowsWritten
  | finish _ => .finish

/-- Whether a step stands among others and no later one is of its stage. -/
def IsLast (step : SummaryStep) (steps : List SummaryStep) : Prop :=
  ∃ before after, steps = before ++ step :: after ∧ ∀ later ∈ after, later.stage ≠ step.stage

/-- Whether a list holds the last step of each stage that occurs among some steps, each once and
in any order. -/
structure AreLast (last steps : List SummaryStep) : Prop where
  distinct : last.Nodup
  mem_iff : ∀ step, step ∈ last ↔ step.IsLast steps

/-- The last step of each stage that occurs. -/
def lastSteps : List SummaryStep → List SummaryStep
  | [] => []
  | a :: rest =>
    if ∃ later ∈ rest, later.stage = a.stage then lastSteps rest else a :: lastSteps rest

theorem not_isLast_nil : ¬ step.IsLast [] := by
  rintro ⟨before, after, hsteps, -⟩
  cases before <;> cases hsteps

theorem isLast_cons_iff : step.IsLast (a :: steps) ↔
    (step = a ∧ ∀ later ∈ steps, later.stage ≠ a.stage) ∨ step.IsLast steps := by
  constructor
  · rintro ⟨before, after, hsteps, hlast⟩
    cases before with
    | nil =>
        obtain ⟨rfl, rfl⟩ := List.cons.inj hsteps
        exact .inl ⟨rfl, hlast⟩
    | cons b before => exact .inr ⟨before, after, (List.cons.inj hsteps).2, hlast⟩
  · rintro (⟨rfl, hlast⟩ | ⟨before, after, rfl, hlast⟩)
    · exact ⟨[], steps, rfl, hlast⟩
    · exact ⟨a :: before, after, rfl, hlast⟩

theorem IsLast.mem (h : step.IsLast steps) : step ∈ steps := by
  obtain ⟨before, after, rfl, -⟩ := h
  exact List.mem_append_cons_self

/-- No stage has two last steps. -/
theorem IsLast.eq {other : SummaryStep} (h : step.IsLast steps) (hother : other.IsLast steps)
    (hstage : step.stage = other.stage) : step = other := by
  induction steps with
  | nil => exact absurd h not_isLast_nil
  | cons a rest ih =>
      rcases isLast_cons_iff.mp h with ⟨rfl, hnone⟩ | hrest <;>
        rcases isLast_cons_iff.mp hother with ⟨rfl, hnone'⟩ | hrest'
      · rfl
      · exact absurd hstage.symm (hnone other hrest'.mem)
      · exact absurd hstage (hnone' step hrest.mem)
      · exact ih hrest hrest'

theorem mem_lastSteps_iff : step ∈ lastSteps steps ↔ step.IsLast steps := by
  induction steps with
  | nil => exact iff_of_false List.not_mem_nil not_isLast_nil
  | cons a rest ih =>
      rw [lastSteps, isLast_cons_iff]
      split
      · next hlater =>
          obtain ⟨later, hmem, hstage⟩ := hlater
          rw [ih, or_iff_right]
          exact fun h => h.2 later hmem hstage
      · next hnone =>
          rw [List.mem_cons, ih, and_iff_left]
          exact fun later hmem hstage => hnone ⟨later, hmem, hstage⟩

theorem areLast_lastSteps (steps : List SummaryStep) : AreLast (lastSteps steps) steps := by
  refine ⟨?_, fun _ => mem_lastSteps_iff⟩
  induction steps with
  | nil => exact List.nodup_nil
  | cons a rest ih =>
      rw [lastSteps]
      split
      · exact ih
      · next hnone =>
          refine List.nodup_cons.mpr ⟨fun hmem => hnone ⟨a, ?_, rfl⟩, ih⟩
          exact (mem_lastSteps_iff.mp hmem).mem

theorem areLast_iff_perm : AreLast last steps ↔ last.Perm (lastSteps steps) := by
  constructor
  · intro h
    refine (List.perm_ext_iff_of_nodup h.distinct (areLast_lastSteps steps).distinct).mpr ?_
    exact fun step => (h.mem_iff step).trans mem_lastSteps_iff.symm
  · intro hperm
    exact ⟨hperm.nodup_iff.mpr (areLast_lastSteps steps).distinct,
      fun step => hperm.mem_iff.trans mem_lastSteps_iff⟩

end SummaryStep

namespace RunSummary

variable {a b : SummaryStep} {steps last : List SummaryStep}

/-! ## Two steps -/

theorem record_comm (h : a.stage ≠ b.stage) (s : RunSummary) :
    (s.record a).record b = (s.record b).record a := by
  cases a <;> cases b <;> first | exact absurd rfl h | rfl

theorem record_replaces (h : a.stage = b.stage) (s : RunSummary) :
    (s.record a).record b = s.record b := by
  cases a <;> cases b <;> first | rfl | cases h

/-- What a run is about is not a stage's. -/
theorem origin_record (s : RunSummary) (a : SummaryStep) :
    (s.record a).root = s.root ∧ (s.record a).startedAt = s.startedAt := by
  cases a <;> exact ⟨rfl, rfl⟩

/-- The number of rows with a kind. -/
def classified (s : RunSummary) : Nat :=
  s.writeWrite + s.readWrite

theorem classified_record_reports (s : RunSummary) (rows : List CaseRow) :
    (s.record (.reports rows)).classified = rows.length :=
  Nat.add_sub_cancel' List.countP_le_length

theorem classified_record (h : a.stage ≠ .reports) (s : RunSummary) :
    (s.record a).classified = s.classified := by
  cases a <;> first | rfl | exact absurd rfl h

/-! ## Runs of steps -/

/-- A step is lost when its stage is recorded later. -/
theorem foldl_record_replaces (h : ∃ later ∈ steps, later.stage = a.stage) (s : RunSummary) :
    steps.foldl record (s.record a) = steps.foldl record s := by
  induction steps generalizing s with
  | nil =>
      obtain ⟨_, hmem, -⟩ := h
      cases hmem
  | cons b rest ih =>
      rw [List.foldl_cons, List.foldl_cons]
      by_cases hb : a.stage = b.stage
      · rw [record_replaces hb]
      · rw [record_comm hb]
        refine ih ?_ _
        obtain ⟨later, hmem, hlater⟩ := h
        rcases List.mem_cons.mp hmem with rfl | hrest
        · exact absurd hlater.symm hb
        · exact ⟨later, hrest, hlater⟩

theorem foldl_record_lastSteps (steps : List SummaryStep) (s : RunSummary) :
    (SummaryStep.lastSteps steps).foldl record s = steps.foldl record s := by
  induction steps generalizing s with
  | nil => rfl
  | cons a rest ih =>
      rw [SummaryStep.lastSteps]
      split
      · next hlater => rw [ih, List.foldl_cons, foldl_record_replaces hlater]
      · rw [List.foldl_cons, List.foldl_cons, ih]

/-- Steps that are last among some steps change places freely, because no two different ones are
of one stage. -/
theorem foldl_record_perm {order : List SummaryStep} (horder : order.Perm last)
    (hlast : ∀ step ∈ order, step.IsLast steps) (s : RunSummary) :
    order.foldl record s = last.foldl record s := by
  refine horder.foldl_eq' (fun a ha b hb s => ?_) s
  by_cases hstage : a.stage = b.stage
  · rw [(hlast a ha).eq (hlast b hb) hstage]
  · exact record_comm hstage s

theorem foldl_record_of_areLast (h : SummaryStep.AreLast last steps) (s : RunSummary) :
    last.foldl record s = steps.foldl record s := by
  rw [← foldl_record_lastSteps steps,
    foldl_record_perm (SummaryStep.areLast_iff_perm.mp h) fun step hstep => (h.mem_iff step).mp hstep]

theorem origin_foldl_record (steps : List SummaryStep) (s : RunSummary) :
    (steps.foldl record s).root = s.root ∧ (steps.foldl record s).startedAt = s.startedAt := by
  induction steps generalizing s with
  | nil => exact ⟨rfl, rfl⟩
  | cons a rest ih =>
      obtain ⟨hroot, hstart⟩ := origin_record s a
      rw [List.foldl_cons, (ih _).1, (ih _).2]
      exact ⟨hroot, hstart⟩

theorem classified_foldl_record (h : ∀ step ∈ steps, step.stage ≠ .reports) (s : RunSummary) :
    (steps.foldl record s).classified = s.classified := by
  induction steps generalizing s with
  | nil => rfl
  | cons a rest ih =>
      obtain ⟨ha, hrest⟩ := List.forall_mem_cons.mp h
      rw [List.foldl_cons, ih hrest, classified_record ha]

theorem classified_of_isLast {rows : List CaseRow}
    (h : (SummaryStep.reports rows).IsLast steps) (s : RunSummary) :
    (steps.foldl record s).classified = rows.length := by
  obtain ⟨before, after, rfl, hlast⟩ := h
  rw [List.foldl_append, List.foldl_cons, classified_foldl_record hlast, classified_record_reports]

/-- **Stages do not disturb each other.** Whatever steps are recorded in a fresh summary, in
whatever order and however often, the summary is the one that the last step of each stage makes
of a fresh summary, in any order of these steps. What the run is about never changes, and each row
of the last reports has one kind. -/
theorem record_keeps_stages_apart (root : Path) (startedAt : Timestamp)
    (steps : List SummaryStep) :
    let fresh := start root startedAt
    let s := steps.foldl record fresh
    (∃ last, SummaryStep.AreLast last steps) ∧
      (∀ last, SummaryStep.AreLast last steps → s = last.foldl record fresh) ∧
      (s.root = root ∧ s.startedAt = startedAt) ∧
      (∀ rows, (SummaryStep.reports rows).IsLast steps →
        s.writeWrite + s.readWrite = rows.length) ∧
      ((∀ step ∈ steps, step.stage ≠ .reports) → s.writeWrite + s.readWrite = 0) :=
  ⟨⟨_, SummaryStep.areLast_lastSteps steps⟩,
    fun _ hlast => (foldl_record_of_areLast hlast _).symm,
    origin_foldl_record steps _,
    fun _ hlast => classified_of_isLast hlast _,
    fun hnone => classified_foldl_record hnone _⟩

/-- Three stages, recorded twice each and out of order. -/
theorem record_keeps_stages_apart_sample :
    let row (kind : RaceKind) : CaseRow := { (default : CaseRow) with kind }
    let rows := [row .writeWrite, row .readWrite]
    let steps : List SummaryStep :=
      [.rowsWritten 9, .reports [row .writeWrite], .combined { fragments := 3 }, .rowsWritten 2,
        .combined { fragments := 1, skipped := [⟨"a"⟩] }, .reports rows]
    let last : List SummaryStep :=
      [.reports rows, .rowsWritten 2, .combined { fragments := 1, skipped := [⟨"a"⟩] }]
    let fresh := start default default
    SummaryStep.AreLast last steps ∧ (SummaryStep.reports rows).IsLast steps ∧
      steps.foldl record fresh = last.foldl record fresh ∧
      (steps.foldl record fresh).writeWrite = 1 ∧ (steps.foldl record fresh).readWrite = 1 := by
  intro row rows steps last fresh
  have hlast : SummaryStep.AreLast last steps :=
    SummaryStep.areLast_iff_perm.mpr (by decide)
  have hrows : (SummaryStep.reports rows).IsLast steps :=
    (hlast.mem_iff _).mp List.mem_cons_self
  obtain ⟨-, hsame, -, hkinds, -⟩ := record_keeps_stages_apart default default steps
  have hwrites : (steps.foldl record fresh).writeWrite = 1 := rfl
  have hall : (steps.foldl record fresh).writeWrite + (steps.foldl record fresh).readWrite = 2 :=
    hkinds rows hrows
  exact ⟨hlast, hrows, hsame last hlast, hwrites, by omega⟩

end RunSummary

end RaceSkeletons
