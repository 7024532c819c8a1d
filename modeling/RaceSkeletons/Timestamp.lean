/-!
# Points in time

A point in time is a number of seconds since the start of 1970 in universal
time. It is written as a calendar date and a time of day, with as many
decimals of a second as the value needs: none, three, six or nine.
-/

namespace RaceSkeletons

/-- A point in time. Nanoseconds from a second on stand for a leap second. -/
structure Timestamp where
  secs : Int
  nanos : Nat
  deriving Repr, DecidableEq, Inhabited

/-- A day of the calendar. -/
structure CalendarDay where
  year : Int
  month : Nat
  day : Nat
  deriving Repr, DecidableEq

/-- The day that is `n` days after the first of January 1970. The calendar
repeats every 400 years; within such a span years are counted from March,
so that a leap day is the last day of its year. -/
def CalendarDay.ofDays (n : Int) : CalendarDay :=
  let z := n + 719468
  let era := z / 146097
  let dayOfEra := (z % 146097).toNat
  let yearOfEra := (dayOfEra - dayOfEra / 1460 + dayOfEra / 36524 - dayOfEra / 146096) / 365
  let dayOfYear := dayOfEra - (365 * yearOfEra + yearOfEra / 4 - yearOfEra / 100)
  let shifted := (5 * dayOfYear + 2) / 153
  let day := dayOfYear - (153 * shifted + 2) / 5 + 1
  let month := if shifted < 10 then shifted + 3 else shifted - 9
  let year : Int := yearOfEra + era * 400
  ⟨if month ≤ 2 then year + 1 else year, month, day⟩

/-- A number with at least `width` digits. -/
def padded (width n : Nat) : String :=
  let digits := toString n
  String.ofList (List.replicate (width - digits.length) '0') ++ digits

/-- The year, with a sign when it has not exactly four digits. -/
def yearText (year : Int) : String :=
  if 0 ≤ year ∧ year ≤ 9999 then padded 4 year.toNat
  else (if year < 0 then "-" else "+") ++ padded 4 year.natAbs

def fractionText (nanos : Nat) : String :=
  if nanos = 0 then ""
  else if nanos % 1000000 = 0 then "." ++ padded 3 (nanos / 1000000)
  else if nanos % 1000 = 0 then "." ++ padded 6 (nanos / 1000)
  else "." ++ padded 9 nanos

/-- The date and time of day of a point in time. -/
def Timestamp.text (t : Timestamp) : String :=
  let day := CalendarDay.ofDays (t.secs / 86400)
  let second := (t.secs % 86400).toNat
  let leap := if 1000000000 ≤ t.nanos then 1 else 0
  yearText day.year ++ "-" ++ padded 2 day.month ++ "-" ++ padded 2 day.day ++ "T" ++
    padded 2 (second / 3600) ++ ":" ++ padded 2 (second / 60 % 60) ++ ":" ++
    padded 2 (second % 60 + leap) ++ fractionText (t.nanos % 1000000000) ++ "Z"

end RaceSkeletons
