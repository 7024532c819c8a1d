import Mathlib.Logic.Relation
import RaceSkeletons.Analyzer.Fanout
import RaceSkeletons.Proofs.Path.Map

/-!
# Every interleaving of a fan-out

A fan-out is followed through all orders in which calls may start and end.
The invariant (`Fanout.Invariant`) names the one thing that the order
decides: the list of paths in the order their calls ended. Results, failure
count and events are functions of that list, and the paths that are not in
it are waiting or under way. One step keeps the invariant
(`Fanout.Invariant.step`), so every reachable state has it
(`Fanout.Reaches.invariant`).

No fan-out runs for ever (`Fanout.wellFounded_step`), and one that has room
for a call only stops when nothing is left to do
(`Fanout.IsFinal.nothing_left`).
-/

namespace RaceSkeletons

namespace Trace

@[simp] theorem progress_append (t u : Trace) : (t ++ u).progress = t.progress ++ u.progress :=
  List.filterMap_append

@[simp] theorem progress_ofNotices (notices : List Notice) : (ofNotices notices).progress = [] := by
  induction notices with
  | nil => rfl
  | cons notice rest ih => exact ih

@[simp] theorem progress_nil : Trace.progress [] = [] :=
  rfl

@[simp] theorem progress_cons_notice (n : Notice) (t : Trace) :
    Trace.progress (.notice n :: t) = t.progress :=
  rfl

@[simp] theorem progress_cons_progress (p : Progress) (t : Trace) :
    Trace.progress (.progress p :: t) = p :: t.progress :=
  rfl

end Trace

namespace Fanout

variable {limit total : Nat} {analyze : Path → Analysis} {paths ended : List Path} {s t : Fanout}

/-! ## The invariant -/

/-- The associations of paths with the outcomes of their own calls. -/
def answers (analyze : Path → Analysis) (paths : List Path) : List (Path × Outcome) :=
  paths.map fun path => (path, (analyze path).outcome)

/-- Whether the call for a path fails. -/
def fails (analyze : Path → Analysis) (path : Path) : Bool :=
  (analyze path).outcome.isFailure

/-- The events for calls that ended in the order of the list. -/
def endings (total : Nat) (analyze : Path → Analysis) (ended : List Path) : List Progress :=
  ended.mapIdx fun i path => .fragmentAnalyzed path (i + 1) total (!fails analyze path)

/-- The state of a fan-out over `paths` in which the calls for `ended` have
ended, in that order. -/
structure Invariant (limit total : Nat) (analyze : Path → Analysis) (paths ended : List Path)
    (s : Fanout) : Prop where
  bounded : s.inFlight.length ≤ limit
  partition : (ended ++ s.inFlight ++ s.waiting).Perm paths
  results : s.results = PathMap.ofList (answers analyze ended)
  failures : s.failures = ended.countP (fails analyze)
  events : s.trace.progress = endings total analyze ended

theorem answers_keys (analyze : Path → Analysis) (paths : List Path) :
    (answers analyze paths).map (·.1) = paths := by
  rw [answers, List.map_map]
  exact List.map_id paths

theorem answers_append (analyze : Path → Analysis) (paths others : List Path) :
    answers analyze (paths ++ others) = answers analyze paths ++ answers analyze others :=
  List.map_append

theorem failures_answers (hd : PathMap.DistinctKeys paths) :
    (PathMap.ofList (answers analyze paths)).values.countP Outcome.isFailure =
      paths.countP (fails analyze) := by
  rw [← answers_keys analyze paths] at hd
  have hvalues := ((PathMap.ofList_perm hd).map (·.2)).countP_eq Outcome.isFailure
  rw [PathMap.values, hvalues, answers, List.map_map, List.countP_map]
  rfl

theorem get?_answers (hd : PathMap.DistinctKeys paths) {path : Path} (h : path ∈ paths) :
    (PathMap.ofList (answers analyze paths)).get? path = some (analyze path).outcome := by
  rw [← answers_keys analyze paths] at hd
  have hentry : (path, (analyze path).outcome) ∈ answers analyze paths :=
    List.mem_map.mpr ⟨path, h, rfl⟩
  have hown := PathMap.get?_ofList_of_mem hd hentry
  exact hown

theorem size_answers (hd : PathMap.DistinctKeys paths) :
    (PathMap.ofList (answers analyze paths)).size = paths.length := by
  rw [← answers_keys analyze paths] at hd
  rw [PathMap.size_ofList hd, answers, List.length_map]

/-- Calls that end are calls for different keys. -/
theorem Invariant.distinct_ended (h : Invariant limit total analyze paths ended s)
    (hd : PathMap.DistinctKeys paths) : PathMap.DistinctKeys ended := by
  have hall := hd.perm h.partition.symm
  rw [PathMap.DistinctKeys, List.append_assoc, List.map_append] at hall
  exact (List.nodup_append.mp hall).1

theorem Invariant.size_results (h : Invariant limit total analyze paths ended s)
    (hd : PathMap.DistinctKeys paths) : s.results.size = ended.length := by
  rw [h.results, size_answers (h.distinct_ended hd)]

theorem Invariant.start : Invariant limit total analyze paths [] { waiting := paths } where
  bounded := Nat.zero_le limit
  partition := .refl paths
  results := rfl
  failures := rfl
  events := rfl

/-- What one step does to the invariant: a call that starts changes nothing
that has ended, and a call that ends is the next in the list. -/
theorem Invariant.step (h : Invariant limit total analyze paths ended s)
    (hd : PathMap.DistinctKeys paths) (hs : Step limit total analyze s t) :
    ∃ ended', Invariant limit total analyze paths ended' t := by
  cases hs with
  | @launch path rest next room =>
      refine ⟨ended, ?_, ?_, h.results, h.failures, h.events⟩
      · rw [List.length_append]
        exact room
      · have hp := h.partition
        rw [next] at hp
        simpa only [List.append_assoc, List.singleton_append] using hp
  | @complete before after path underWay =>
      refine ⟨ended ++ [path], ?_, ?_, ?_, ?_, ?_⟩
      · have hb := h.bounded
        rw [underWay, List.length_append, List.length_cons] at hb
        rw [record, List.length_append]
        omega
      · have hp := h.partition
        rw [underWay] at hp
        have hmiddle : (path :: (before ++ after)).Perm (before ++ path :: after) :=
          List.perm_middle.symm
        have hended := (hmiddle.append_left ended).append_right s.waiting
        rw [List.append_cons ended path] at hended
        exact hended.trans hp
      · have hlast := PathMap.ofList_append_singleton (answers analyze ended)
          (path, (analyze path).outcome)
        rw [answers_append, record, h.results]
        exact hlast.symm
      · rw [record, h.failures, List.countP_append, List.countP_singleton, fails]
        cases (analyze path).outcome.isFailure <;> rfl
      · rw [record, Trace.progress_append, Trace.progress_append, h.events,
          Trace.progress_ofNotices, List.append_nil, h.size_results hd]
        exact List.mapIdx_concat.symm

/-! ## Runs -/

/-- Any number of steps. -/
def Reaches (limit total : Nat) (analyze : Path → Analysis) : Fanout → Fanout → Prop :=
  Relation.ReflTransGen (Step limit total analyze)

/-- The states that a fan-out over `paths` can come to. -/
def Reachable (workers : Nat) (analyze : Path → Analysis) (paths : List Path) : Fanout → Prop :=
  Reaches (concurrency workers paths.length) paths.length analyze { waiting := paths }

theorem Reaches.invariant (h : Invariant limit total analyze paths ended s)
    (hd : PathMap.DistinctKeys paths) (hs : Reaches limit total analyze s t) :
    ∃ ended', Invariant limit total analyze paths ended' t := by
  induction hs with
  | refl => exact ⟨ended, h⟩
  | tail _ hstep ih =>
      obtain ⟨ended', h'⟩ := ih
      exact h'.step hd hstep

/-- How much is left to do: each path has to be started and has to end. -/
def remaining (s : Fanout) : Nat :=
  2 * s.waiting.length + s.inFlight.length

theorem Step.remaining_lt (hs : Step limit total analyze s t) : t.remaining < s.remaining := by
  cases hs with
  | launch next room =>
      simp only [remaining, next, List.length_append, List.length_cons, List.length_nil]
      omega
  | complete underWay =>
      simp only [remaining, record, underWay, List.length_append, List.length_cons]
      omega

/-- No order of steps goes on for ever. -/
theorem wellFounded_step (limit total : Nat) (analyze : Path → Analysis) :
    WellFounded fun t s => Step limit total analyze s t :=
  Subrelation.wf Step.remaining_lt (measure remaining).wf

/-! ## Final states -/

/-- Nothing more can happen. -/
def IsFinal (limit total : Nat) (analyze : Path → Analysis) (s : Fanout) : Prop :=
  ∀ t, ¬ Step limit total analyze s t

/-- Whatever has happened, a state without further steps is still ahead. -/
theorem exists_final (limit total : Nat) (analyze : Path → Analysis) (s : Fanout) :
    ∃ t, Reaches limit total analyze s t ∧ IsFinal limit total analyze t := by
  induction s using (wellFounded_step limit total analyze).induction with
  | _ s ih =>
      by_cases hfinal : IsFinal limit total analyze s
      · exact ⟨s, .refl, hfinal⟩
      · obtain ⟨t, hstep⟩ := Classical.not_forall_not.mp hfinal
        obtain ⟨u, hreach, hu⟩ := ih t hstep
        exact ⟨u, .head hstep hreach, hu⟩

/-- A fan-out that may have a call under way stops only when all have ended. -/
theorem IsFinal.nothing_left (h : IsFinal limit total analyze s)
    (hroom : 0 < limit ∨ s.waiting = []) : s.inFlight = [] ∧ s.waiting = [] := by
  have hflight : s.inFlight = [] := by
    cases hf : s.inFlight with
    | nil => rfl
    | cons path rest =>
        have hfirst : s.inFlight = [] ++ path :: rest := hf
        exact absurd (.complete hfirst) (h _)
  refine ⟨hflight, ?_⟩
  cases hw : s.waiting with
  | nil => rfl
  | cons path rest =>
      rcases hroom with hlimit | hnone
      · have hlength : s.inFlight.length < limit := by
          rw [hflight]
          exact hlimit
        exact absurd (.launch hw hlength) (h _)
      · rw [hw] at hnone
        cases hnone

theorem concurrency_pos (workers : Nat) {fragments : Nat} (h : 0 < fragments) :
    0 < concurrency workers fragments := by
  rw [concurrency]
  omega

/-- There is room for a call unless there is none to make. -/
theorem room_of_length (workers : Nat) (paths : List Path) :
    0 < concurrency workers paths.length ∨ paths = [] := by
  cases paths with
  | nil => exact Or.inr rfl
  | cons path rest => exact Or.inl (concurrency_pos workers (Nat.succ_pos _))

/-! ## What a state accounts for -/

/-- A state of a fan-out over distinct paths that has lost no path and
counts its failures right. -/
structure IsSound (workers : Nat) (paths : List Path) (s : Fanout) : Prop where
  /-- No more calls are under way than may be. -/
  bounded : s.inFlight.length ≤ concurrency workers paths.length
  /-- Each path is recorded, under way or waiting, and only one of these. -/
  partition : (s.results.keys ++ s.inFlight ++ s.waiting).Perm paths
  failures : s.failures = s.results.values.countP Outcome.isFailure

/-- A state of a fan-out over distinct paths in which every path has its
outcome. -/
structure IsComplete (analyze : Path → Analysis) (paths : List Path) (s : Fanout) : Prop where
  ownOutcome : ∀ path ∈ paths, s.results.get? path = some (analyze path).outcome
  nothingElse : s.results.keys.Perm paths
  /-- The results are the same whatever the order and the number of workers. -/
  canonical : s.results = PathMap.ofList (answers analyze paths)
  /-- One event for each path, counted from one in the order of the events. -/
  events : ∃ order, order.Perm paths ∧ s.trace.progress = endings paths.length analyze order

/-- What is recorded are the paths whose calls have ended. -/
theorem Invariant.keys_perm (h : Invariant limit total analyze paths ended s)
    (hd : PathMap.DistinctKeys paths) : s.results.keys.Perm ended := by
  have hdone := h.distinct_ended hd
  rw [← answers_keys analyze ended] at hdone
  have hkeys := (PathMap.ofList_perm hdone).map (·.1)
  rwa [answers_keys, ← h.results] at hkeys

theorem Invariant.failures_eq (h : Invariant limit total analyze paths ended s)
    (hd : PathMap.DistinctKeys paths) :
    s.failures = s.results.values.countP Outcome.isFailure := by
  rw [h.failures, h.results, failures_answers (h.distinct_ended hd)]

theorem Invariant.isSound {workers : Nat}
    (h : Invariant (concurrency workers paths.length) total analyze paths ended s)
    (hd : PathMap.DistinctKeys paths) : IsSound workers paths s where
  bounded := h.bounded
  partition := (((h.keys_perm hd).append_right _).append_right _).trans h.partition
  failures := h.failures_eq hd

/-- When nothing is left, all paths have ended and none was lost. -/
theorem Invariant.isComplete (h : Invariant limit paths.length analyze paths ended s)
    (hd : PathMap.DistinctKeys paths) (hleft : s.inFlight = [] ∧ s.waiting = []) :
    IsComplete analyze paths s := by
  have hended : ended.Perm paths := by
    have hp := h.partition
    rwa [hleft.1, hleft.2, List.append_nil, List.append_nil] at hp
  have hresults : s.results = PathMap.ofList (answers analyze paths) := by
    have hkeys := h.distinct_ended hd
    rw [← answers_keys analyze ended] at hkeys
    rw [h.results]
    exact PathMap.ofList_eq_of_perm (hended.map _) hkeys
  refine ⟨fun path hmem => ?_, (h.keys_perm hd).trans hended, hresults, ended, hended, h.events⟩
  rw [hresults]
  exact get?_answers hd hmem

theorem Reachable.invariant {workers : Nat} (h : Reachable workers analyze paths s)
    (hd : PathMap.DistinctKeys paths) :
    ∃ ended, Invariant (concurrency workers paths.length) paths.length analyze paths ended s :=
  Reaches.invariant .start hd h

theorem Reachable.nothing_left {workers : Nat} (h : Reachable workers analyze paths s)
    (hd : PathMap.DistinctKeys paths)
    (hfinal : IsFinal (concurrency workers paths.length) paths.length analyze s) :
    s.inFlight = [] ∧ s.waiting = [] := by
  refine hfinal.nothing_left ((room_of_length workers paths).imp_right fun hnone => ?_)
  obtain ⟨ended, hinv⟩ := h.invariant hd
  have hp := hinv.partition
  rw [hnone] at hp
  exact (List.append_eq_nil_iff.mp hp.eq_nil).2

end Fanout

end RaceSkeletons
