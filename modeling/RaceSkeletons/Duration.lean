/-!
# Durations

Lengths of time as clocks report them: whole seconds and the nanoseconds of
a begun one.
-/

namespace RaceSkeletons

/-- A length of time. -/
structure Duration where
  secs : Nat := 0
  nanos : Nat := 0
  deriving Repr, DecidableEq, Inhabited

def Duration.millis (d : Duration) : Nat :=
  d.secs * 1000 + d.nanos / 1000000

def Duration.ofMillis (n : Nat) : Duration :=
  ⟨n / 1000, n % 1000 * 1000000⟩

end RaceSkeletons
