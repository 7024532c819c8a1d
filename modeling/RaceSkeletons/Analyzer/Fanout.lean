import RaceSkeletons.Analyzer.Basic
import RaceSkeletons.Report.Row

/-!
# Fanning out

The analyzer is called once per fragment, with a bounded number of calls
under way at a time. Calls end in any order. An outcome is stored under the
path of its call, so the order leaves no trace in the results.

`Fanout.Step` says what may happen next; `analyzeAll` performs it, with a
schedule that says which of the calls under way ends next.
-/

namespace RaceSkeletons

/-- How many calls may be under way: at least one worker, and no more than
there are fragments. -/
def concurrency (workers fragments : Nat) : Nat :=
  min (max workers 1) fragments

/-- The state between two steps of a fan-out. -/
structure Fanout where
  /-- Paths whose calls have not been started. -/
  waiting : List Path
  /-- Paths whose calls are under way. -/
  inFlight : List Path := []
  results : AnalysisResults := .empty
  failures : Nat := 0
  trace : Trace := []
  deriving Repr, DecidableEq

namespace Fanout

/-- The state after the call for `path` has ended, when `inFlight` are the
calls that are still under way. -/
def record (total : Nat) (s : Fanout) (path : Path) (inFlight : List Path) (a : Analysis) :
    Fanout :=
  { s with
    inFlight
    results := s.results.insert path a.outcome
    failures := if a.outcome.isFailure then s.failures + 1 else s.failures
    trace := s.trace ++ Trace.ofNotices a.notices ++
      [.progress (.fragmentAnalyzed path (s.results.size + 1) total (!a.outcome.isFailure))] }

/-- What may happen next: a call is started while fewer than `limit` are
under way, or any call under way ends. -/
inductive Step (limit total : Nat) (analyze : Path → Analysis) : Fanout → Fanout → Prop where
  | launch {s : Fanout} {path : Path} {rest : List Path}
      (next : s.waiting = path :: rest) (room : s.inFlight.length < limit) :
      Step limit total analyze s
        { s with waiting := rest, inFlight := s.inFlight ++ [path] }
  | complete {s : Fanout} {before after : List Path} {path : Path}
      (underWay : s.inFlight = before ++ path :: after) :
      Step limit total analyze s (s.record total path (before ++ after) (analyze path))

/-- Starts calls as long as fewer than `limit` are under way. -/
def refill (limit : Nat) (s : Fanout) : Fanout :=
  let free := limit - s.inFlight.length
  { s with
    waiting := s.waiting.drop free
    inFlight := s.inFlight ++ s.waiting.take free }

/-- Ends the call at a place of the list of calls under way, counting on from
the start behind the last one. -/
def completeAt (total : Nat) (analyze : Path → Analysis) (place : Nat) (s : Fanout) : Fanout :=
  let i := place % s.inFlight.length
  match s.inFlight[i]? with
  | none => s
  | some path => s.record total path (s.inFlight.eraseIdx i) (analyze path)

/-- Starts and ends calls until `n` more have ended. -/
def run (limit total : Nat) (analyze : Path → Analysis) (schedule : Nat → Nat) :
    (n : Nat) → Fanout → Fanout
  | 0, s => s
  | n + 1, s =>
    run limit total analyze schedule n
      ((s.refill limit).completeAt total analyze (schedule n))

/-- The state after all calls have ended. -/
def finish (workers : Nat) (analyze : Path → Analysis) (schedule : Nat → Nat)
    (paths : List Path) : Fanout :=
  run (concurrency workers paths.length) paths.length analyze schedule paths.length
    { waiting := paths }

end Fanout

/-- The results for all fragments, and what happened on the way. -/
def analyzeAll (workers : Nat) (analyze : Path → Analysis) (schedule : Nat → Nat)
    (paths : List Path) : AnalysisResults × Trace :=
  if paths = [] then (.empty, [.notice .nothingToAnalyze])
  else
    let s := Fanout.finish workers analyze schedule paths
    (s.results,
      .progress (.analysisStarted paths.length (concurrency workers paths.length)) ::
        s.trace ++ [.progress (.analysisComplete s.results.size s.failures)])

/-- The schedule in which calls end in the order they were started. -/
def inOrder : Nat → Nat := fun _ => 0

end RaceSkeletons
