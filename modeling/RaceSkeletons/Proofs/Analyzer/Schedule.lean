import Mathlib.Data.List.Perm.Basic
import RaceSkeletons.Proofs.Analyzer.Fanout

/-!
# Schedules and interleavings

`analyzeAll` starts calls as early as it may, and a schedule says which call
ends next. The step relation leaves both open. This module shows that
nothing is lost or added: every schedule is one of the orders of the step
relation (`Fanout.reachable_finish`), and every final state of the step relation
is what some schedule comes to (`Fanout.exists_schedule`), because a call
that is started late could have been started early without anyone noticing
(`Fanout.Ahead`).
-/

namespace RaceSkeletons

namespace Fanout

variable {limit total : Nat} {analyze : Path → Analysis} {schedule : Nat → Nat}
  {paths ended : List Path} {s t e : Fanout}

/-! ## A schedule is an order of steps -/

/-- Calls may be started one after the other as long as there is room. -/
theorem reaches_launch {started rest : List Path} (hw : s.waiting = started ++ rest)
    (hroom : started.length ≤ limit - s.inFlight.length) :
    Reaches limit total analyze s
      { s with waiting := rest, inFlight := s.inFlight ++ started } := by
  induction started generalizing s with
  | nil =>
      rw [List.append_nil]
      rw [List.nil_append] at hw
      rw [← hw]
      exact .refl
  | cons path started ih =>
      rw [List.length_cons] at hroom
      have hfirst : s.inFlight.length < limit := by omega
      have hrest : started.length ≤ limit - (s.inFlight ++ [path]).length := by
        rw [List.length_append, List.length_singleton]
        omega
      have hmore := ih (s := { s with
        waiting := started ++ rest, inFlight := s.inFlight ++ [path] }) rfl hrest
      rw [List.append_cons]
      exact .head (.launch hw hfirst) hmore

theorem reaches_refill (limit total : Nat) (analyze : Path → Analysis) (s : Fanout) :
    Reaches limit total analyze s (s.refill limit) :=
  reaches_launch (List.take_append_drop _ _).symm (List.length_take_le _ _)

/-- The call at a place, taken out of the calls under way. -/
theorem inFlight_eq_take_drop {i : Nat} {path : Path} (h : s.inFlight[i]? = some path) :
    s.inFlight = s.inFlight.take i ++ path :: s.inFlight.drop (i + 1) := by
  obtain ⟨hi, hget⟩ := List.getElem?_eq_some_iff.mp h
  rw [← hget, ← List.drop_eq_getElem_cons hi, List.take_append_drop]

theorem reaches_completeAt (limit total : Nat) (analyze : Path → Analysis) (place : Nat)
    (s : Fanout) : Reaches limit total analyze s (s.completeAt total analyze place) := by
  rw [completeAt]
  cases hget : s.inFlight[place % s.inFlight.length]? with
  | none => exact .refl
  | some path =>
      simp only [List.eraseIdx_eq_take_drop_succ]
      exact .single (.complete (inFlight_eq_take_drop hget))

theorem reaches_run (limit total : Nat) (analyze : Path → Analysis) (schedule : Nat → Nat)
    (n : Nat) (s : Fanout) :
    Reaches limit total analyze s (run limit total analyze schedule n s) := by
  induction n generalizing s with
  | zero => exact .refl
  | succ n ih =>
      have hrefill := reaches_refill limit total analyze s
      have hcomplete := reaches_completeAt limit total analyze (schedule n) (s.refill limit)
      exact (hrefill.trans hcomplete).trans (ih _)

/-! ## A schedule ends every call -/

/-- How many calls have not ended. -/
def pending (s : Fanout) : Nat :=
  s.waiting.length + s.inFlight.length

theorem pending_refill (limit : Nat) (s : Fanout) : (s.refill limit).pending = s.pending := by
  simp only [pending, refill, List.length_append, List.length_drop, List.length_take]
  omega

theorem inFlight_refill_pos (hroom : 0 < limit ∨ s.waiting = []) (hp : 0 < s.pending) :
    0 < (s.refill limit).inFlight.length := by
  simp only [refill, List.length_append, List.length_take]
  rw [pending] at hp
  rcases hroom with hlimit | hnone
  · omega
  · rw [hnone, List.length_nil] at hp
    omega

theorem completeAt_of_pos (total : Nat) (analyze : Path → Analysis) (place : Nat)
    (h : 0 < s.inFlight.length) :
    ∃ path, s.inFlight[place % s.inFlight.length]? = some path ∧
      s.completeAt total analyze place =
        s.record total path (s.inFlight.eraseIdx (place % s.inFlight.length)) (analyze path) := by
  have hlt := Nat.mod_lt place h
  have hget := List.getElem?_eq_getElem hlt
  refine ⟨_, hget, ?_⟩
  rw [completeAt]
  simp only [hget]

theorem pending_completeAt (total : Nat) (analyze : Path → Analysis) (place : Nat)
    (h : 0 < s.inFlight.length) :
    (s.completeAt total analyze place).pending + 1 = s.pending := by
  obtain ⟨path, -, heq⟩ := completeAt_of_pos total analyze place h
  have hlt := Nat.mod_lt place h
  simp only [heq, pending, record, List.length_eraseIdx_of_lt hlt]
  omega

theorem waiting_completeAt (place : Nat) (s : Fanout) :
    (s.completeAt total analyze place).waiting = s.waiting := by
  rw [completeAt]
  cases s.inFlight[place % s.inFlight.length]? <;> rfl

/-- A run over as many calls as are left ends them all. -/
theorem pending_run (hroom : 0 < limit ∨ s.waiting = []) :
    (run limit total analyze schedule s.pending s).pending = 0 := by
  generalize hn : s.pending = n
  induction n generalizing s with
  | zero => exact hn
  | succ n ih =>
      have hpos := inFlight_refill_pos hroom (by omega)
      refine ih ?_ ?_
      · refine hroom.imp_right fun hnone => ?_
        rw [waiting_completeAt, refill, hnone]
        exact List.drop_nil
      · have hone := pending_completeAt total analyze (schedule n) hpos
        rw [pending_refill] at hone
        omega

theorem pending_eq_zero_iff : s.pending = 0 ↔ s.inFlight = [] ∧ s.waiting = [] := by
  rw [pending, Nat.add_eq_zero_iff, List.length_eq_zero_iff, List.length_eq_zero_iff, And.comm]

theorem isFinal_of_pending (h : s.pending = 0) : IsFinal limit total analyze s := by
  obtain ⟨hflight, hwaiting⟩ := pending_eq_zero_iff.mp h
  intro t hstep
  cases hstep with
  | launch next room =>
      rw [hwaiting] at next
      cases next
  | complete underWay =>
      rw [hflight] at underWay
      cases List.append_eq_nil_iff.mp underWay.symm |>.2

theorem reachable_finish (workers : Nat) (analyze : Path → Analysis) (schedule : Nat → Nat)
    (paths : List Path) :
    Reachable workers analyze paths (finish workers analyze schedule paths) :=
  reaches_run _ _ _ _ _ _

theorem pending_finish (workers : Nat) (analyze : Path → Analysis) (schedule : Nat → Nat)
    (paths : List Path) : (finish workers analyze schedule paths).pending = 0 :=
  pending_run (s := { waiting := paths }) (room_of_length workers paths)

/-! ## Every final state belongs to a schedule -/

theorem run_congr {schedule' : Nat → Nat} {n : Nat} (h : ∀ k < n, schedule k = schedule' k)
    (s : Fanout) :
    run limit total analyze schedule n s = run limit total analyze schedule' n s := by
  induction n generalizing s with
  | zero => rfl
  | succ n ih =>
      rw [run, run, h n (Nat.lt_succ_self n)]
      exact ih (fun k hk => h k (Nat.lt_succ_of_lt hk)) _

/-- The same calls have ended in `s` and in `e`, but `e` has started those of
`early` already, which are next in `s`. -/
structure Ahead (s e : Fanout) (early : List Path) : Prop where
  waiting : s.waiting = early ++ e.waiting
  inFlight : e.inFlight.Perm (s.inFlight ++ early)
  results : s.results = e.results
  failures : s.failures = e.failures
  trace : s.trace = e.trace

theorem Ahead.rfl : Ahead s s [] where
  waiting := .refl _
  inFlight := by rw [List.append_nil]
  results := .refl _
  failures := .refl _
  trace := .refl _

theorem Ahead.refill {early : List Path} (h : Ahead s e early) (limit : Nat) :
    Ahead s (e.refill limit) (early ++ e.waiting.take (limit - e.inFlight.length)) where
  waiting := by
    rw [List.append_assoc, Fanout.refill, List.take_append_drop]
    exact h.waiting
  inFlight := by
    rw [← List.append_assoc]
    exact h.inFlight.append_right _
  results := h.results
  failures := h.failures
  trace := h.trace

/-- A refill starts all calls or leaves no room. -/
theorem waiting_refill_eq_nil (h : (e.refill limit).inFlight.length < limit) :
    (e.refill limit).waiting = [] := by
  simp only [refill, List.length_append, List.length_take] at h
  refine List.drop_eq_nil_of_le ?_
  omega

/-- What is started late has been started early. -/
theorem Ahead.launch {early rest : List Path} {path : Path} (h : Ahead s (e.refill limit) early)
    (next : s.waiting = path :: rest) (room : s.inFlight.length < limit) :
    ∃ early', Ahead { s with waiting := rest, inFlight := s.inFlight ++ [path] }
      (e.refill limit) early' := by
  have hw := h.waiting
  rw [next] at hw
  cases early with
  | nil =>
      have hlength := h.inFlight.length_eq
      rw [List.append_nil] at hlength
      rw [waiting_refill_eq_nil (hlength ▸ room)] at hw
      cases hw
  | cons first early =>
      obtain ⟨rfl, hrest⟩ := List.cons.inj hw
      refine ⟨early, hrest, ?_, h.results, h.failures, h.trace⟩
      have hp := h.inFlight
      rwa [List.append_cons] at hp

/-- What ends late can be made to end early. -/
theorem Ahead.complete {early before after : List Path} {path : Path} (h : Ahead s e early)
    (underWay : s.inFlight = before ++ path :: after) :
    ∃ place, 0 < e.inFlight.length ∧
      Ahead (s.record total path (before ++ after) (analyze path))
        (e.completeAt total analyze place) early := by
  have hflight := h.inFlight
  rw [underWay] at hflight
  have hmem : path ∈ e.inFlight :=
    hflight.mem_iff.mpr (List.mem_append_left _ (List.mem_append_right _ List.mem_cons_self))
  obtain ⟨place, hlt, rfl⟩ := List.mem_iff_getElem.mp hmem
  have herase : (e.inFlight.eraseIdx place).Perm (before ++ after ++ early) := by
    have hone := (List.getElem_cons_eraseIdx_perm hlt).trans hflight
    exact (hone.trans (List.perm_middle.append_right early)).cons_inv
  have heq : e.completeAt total analyze place =
      e.record total e.inFlight[place] (e.inFlight.eraseIdx place) (analyze e.inFlight[place]) := by
    simp only [completeAt, Nat.mod_eq_of_lt hlt, List.getElem?_eq_getElem hlt]
  refine ⟨place, Nat.zero_lt_of_lt hlt, ?_⟩
  rw [heq]
  exact {
    waiting := h.waiting
    inFlight := herase
    results := by simp only [record, h.results]
    failures := by simp only [record, h.failures]
    trace := by simp only [record, h.results, h.trace] }

/-- With nothing left to start and nothing under way there is no difference. -/
theorem Ahead.eq_of_pending {early : List Path} (h : Ahead s e early) (hs : s.pending = 0) :
    s = e := by
  obtain ⟨hflight, hwaiting⟩ := pending_eq_zero_iff.mp hs
  have hw := h.waiting
  have hf := h.inFlight
  rw [hwaiting, List.nil_eq, List.append_eq_nil_iff] at hw
  rw [hflight, hw.1] at hf
  cases s
  cases e
  obtain ⟨-, -, hr, hfail, ht⟩ := h
  simp only [mk.injEq]
  exact ⟨hwaiting.trans hw.2.symm, hflight.trans hf.eq_nil.symm, hr, hfail, ht⟩

theorem refill_of_pending (limit : Nat) (h : s.pending = 0) : s.refill limit = s := by
  obtain ⟨hflight, hwaiting⟩ := pending_eq_zero_iff.mp h
  cases s
  subst hflight hwaiting
  rw [refill, List.drop_nil, List.take_nil, List.append_nil]

/-- Whatever order of steps leads from `s` to the end, a schedule leads there
from a state that is ahead of `s`. -/
theorem exists_schedule_of_ahead (hreach : Reaches limit total analyze s t) (ht : t.pending = 0)
    {early : List Path} (h : Ahead s (e.refill limit) early) :
    ∃ schedule, run limit total analyze schedule e.pending e = t := by
  induction hreach using Relation.ReflTransGen.head_induction_on generalizing e early with
  | refl =>
      have heq := h.eq_of_pending ht
      have he : e.pending = 0 := by
        rw [← pending_refill limit e, ← heq]
        exact ht
      refine ⟨inOrder, ?_⟩
      rw [he, heq, refill_of_pending limit he]
      rfl
  | head hstep _ ih =>
      cases hstep with
      | launch next room =>
          obtain ⟨early', h'⟩ := h.launch next room
          exact ih h'
      | complete underWay =>
          obtain ⟨place, hpos, h'⟩ := h.complete underWay
          obtain ⟨later, hlater⟩ := ih (h'.refill limit)
          have hone := pending_completeAt total analyze place hpos
          rw [pending_refill] at hone
          -- the places that `later` uses are smaller than the number of calls left
          let left := ((e.refill limit).completeAt total analyze place).pending
          refine ⟨fun k => if k = left then place else later k, ?_⟩
          rw [← hone, run, if_pos rfl, ← hlater]
          exact run_congr (fun k hk => if_neg (Nat.ne_of_lt hk)) _

/-- Every final state is the end of a schedule. -/
theorem exists_schedule {workers : Nat} (h : Reachable workers analyze paths s)
    (hs : s.pending = 0) : ∃ schedule, finish workers analyze schedule paths = s := by
  have hstart : Ahead { waiting := paths : Fanout } { waiting := paths } [] := Ahead.rfl
  exact exists_schedule_of_ahead h hs (hstart.refill (concurrency workers paths.length))

end Fanout

/-! ## What an analysis answers -/

/-- The answer of an analysis that has come to the final state `s`: its
results, and its events between the first and the last one. -/
structure Fanout.IsAnswer (workers : Nat) (paths : List Path) (s : Fanout)
    (answer : AnalysisResults × Trace) : Prop where
  results : answer.1 = s.results
  events : answer.2.progress =
    if paths = [] then []
    else
      .analysisStarted paths.length (concurrency workers paths.length) ::
        s.trace.progress ++
          [.analysisComplete paths.length (s.results.values.countP Outcome.isFailure)]

open Fanout

section

variable {workers : Nat} {analyze : Path → Analysis} {schedule : Nat → Nat} {paths : List Path}

/-- An analysis answers what its schedule comes to. -/
theorem isAnswer_finish (hd : PathMap.DistinctKeys paths) :
    IsAnswer workers paths (finish workers analyze schedule paths)
      (analyzeAll workers analyze schedule paths) := by
  obtain ⟨ended, hinv⟩ := (reachable_finish workers analyze schedule paths).invariant hd
  have hleft := pending_eq_zero_iff.mp (pending_finish workers analyze schedule paths)
  have hcomplete := hinv.isComplete hd hleft
  have hsize : (finish workers analyze schedule paths).results.size = paths.length := by
    rw [← hcomplete.nothingElse.length_eq, PathMap.keys, List.length_map]
    rfl
  by_cases hnone : paths = []
  · subst hnone
    exact ⟨rfl, rfl⟩
  · refine ⟨?_, ?_⟩
    · rw [analyzeAll, if_neg hnone]
    · simp only [analyzeAll, if_neg hnone, hsize, hinv.failures_eq hd, Trace.progress,
        List.cons_append, List.filterMap_cons, List.filterMap_append, List.filterMap_nil,
        Occurrence.progress?]

/-- Results are those of the paths, whatever the schedule. -/
theorem analyzeAll_results (hd : PathMap.DistinctKeys paths) :
    (analyzeAll workers analyze schedule paths).1 = PathMap.ofList (answers analyze paths) := by
  obtain ⟨ended, hinv⟩ := (reachable_finish workers analyze schedule paths).invariant hd
  have hleft := pending_eq_zero_iff.mp (pending_finish workers analyze schedule paths)
  rw [(isAnswer_finish hd).results]
  exact (hinv.isComplete hd hleft).canonical

end

/-- A fan-out over distinct paths, in every order in which its calls may
start and end. On the way no path is lost and the bound is kept; the end
can be reached from everywhere; at the end every path has the outcome of its
own call, one event and a right count of failures; and these are the ends
that `analyzeAll` comes to, one schedule or other for each. -/
theorem fanout_every_order (workers : Nat) (analyze : Path → Analysis) (paths : List Path)
    (hd : PathMap.DistinctKeys paths) :
    let limit := concurrency workers paths.length
    (∀ s, Reachable workers analyze paths s →
      IsSound workers paths s ∧
        ∃ t, Reaches limit paths.length analyze s t ∧ IsFinal limit paths.length analyze t) ∧
    (∀ s, Reachable workers analyze paths s → IsFinal limit paths.length analyze s →
      IsComplete analyze paths s ∧
        ∃ schedule, IsAnswer workers paths s (analyzeAll workers analyze schedule paths)) ∧
    ∀ schedule, ∃ s, Reachable workers analyze paths s ∧ IsFinal limit paths.length analyze s ∧
      IsAnswer workers paths s (analyzeAll workers analyze schedule paths) := by
  refine ⟨fun s hs => ?_, fun s hs hfinal => ?_, fun schedule => ?_⟩
  · obtain ⟨ended, hinv⟩ := hs.invariant hd
    exact ⟨hinv.isSound hd, exists_final _ _ _ s⟩
  · obtain ⟨ended, hinv⟩ := hs.invariant hd
    have hleft := hs.nothing_left hd hfinal
    obtain ⟨schedule, rfl⟩ := exists_schedule hs (pending_eq_zero_iff.mpr hleft)
    exact ⟨hinv.isComplete hd hleft, schedule, isAnswer_finish hd⟩
  · have hpending := pending_finish workers analyze schedule paths
    exact ⟨_, reachable_finish workers analyze schedule paths, isFinal_of_pending hpending,
      isAnswer_finish hd⟩

/-- Two fragments, the second of which cannot be analyzed, and no worker asked
for: one call is under way at a time, and one of the two outcomes is a
failure. -/
theorem fanout_every_order_two :
    let paths : List Path := [⟨"a/race_write.c"⟩, ⟨"a/race_read.c"⟩]
    let analyze : Path → Analysis := fun path =>
      if path = ⟨"a/race_read.c"⟩ then { outcome := .failed (.decode "no verdict") }
      else { outcome := .analyzed true none }
    PathMap.DistinctKeys paths ∧ concurrency 0 paths.length = 1 ∧
      (analyzeAll 0 analyze inOrder paths).1.values =
        [.failed (.decode "no verdict"), .analyzed true none] ∧
      ∃ s, Reachable 0 analyze paths s ∧ IsFinal 1 2 analyze s ∧ IsComplete analyze paths s ∧
        s.failures = 1 := by
  intro paths analyze
  have hd : PathMap.DistinctKeys paths := by
    decide
  refine ⟨hd, rfl, by decide, ?_⟩
  obtain ⟨-, hcomplete, hanswers⟩ := fanout_every_order 0 analyze paths hd
  obtain ⟨s, hs, hfinal, -⟩ := hanswers inOrder
  have hc := (hcomplete s hs hfinal).1
  refine ⟨s, hs, hfinal, hc, ?_⟩
  rw [((fanout_every_order 0 analyze paths hd).1 s hs).1.failures, hc.canonical]
  decide

end RaceSkeletons
