import RaceSkeletons.Log.Notice
import RaceSkeletons.Run.Progress

/-!
# Traces

What happens in a run, in order: notices of the stages and progress events.
The two are kept in one list because a log shows them in one sequence.
-/

namespace RaceSkeletons

/-- Something that happens in a run. -/
inductive Occurrence where
  | notice (n : Notice)
  | progress (p : Progress)
  deriving Repr, DecidableEq

/-- What happened, first to last. -/
abbrev Trace := List Occurrence

namespace Occurrence

/-- The notice, if it is one. -/
def notice? : Occurrence → Option Notice
  | .notice n => some n
  | .progress _ => none

/-- The progress event, if it is one. -/
def progress? : Occurrence → Option Progress
  | .notice _ => none
  | .progress p => some p

/-- The log record, without times. -/
def record : Occurrence → LogRecord
  | .notice n => n.record
  | .progress p => p.record none

end Occurrence

namespace Trace

def ofNotices (notices : List Notice) : Trace :=
  notices.map .notice

def notices (t : Trace) : List Notice :=
  t.filterMap Occurrence.notice?

def progress (t : Trace) : List Progress :=
  t.filterMap Occurrence.progress?

end Trace

end RaceSkeletons
