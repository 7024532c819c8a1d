import RaceSkeletons.Number.Binary64

/-!
# Shortest decimal text

A double-precision value is shown with the fewest decimal digits that read
back as the same value, and among those with the digits nearest to it.
-/

namespace RaceSkeletons.Binary64

/-- The number `digits * 10 ^ power`. -/
structure Decimal where
  digits : Nat
  power : Int
  deriving Repr, DecidableEq

/-- Whether the fraction `num / den` is rounded to `x`. -/
def readsBack (x : Binary64) (num den : Nat) : Bool :=
  ofRatio? num den == some x

/-- A decimal number as a fraction. -/
def Decimal.ratio (d : Decimal) : Nat × Nat :=
  if 0 ≤ d.power then (d.digits * Nat.pow 10 d.power.toNat, 1)
  else (d.digits, Nat.pow 10 (-d.power).toNat)

/-- The power of ten of the last digit when `x` is written with `count`
digits. -/
def gridPower (x : Binary64) (count : Nat) : Int :=
  let (num, den) := x.ratio
  let places := (toString (num / den)).length
  if den ≤ num then (places : Int) - count
  else
    let shift := (toString (den / num)).length
    let (n, d) := (num * Nat.pow 10 shift, den)
    (if d ≤ n then 1 else 0) - (shift : Int) - count

/-- The neighbours of `x` among the decimal numbers with `count` digits that
read back as `x`, the nearer one first. -/
def candidates (x : Binary64) (count : Nat) : List Decimal :=
  let (num, den) := x.ratio
  let power := gridPower x count
  let (n, d) :=
    if 0 ≤ power then (num, den * Nat.pow 10 power.toNat)
    else (num * Nat.pow 10 (-power).toNat, den)
  let below : Decimal := ⟨n / d, power⟩
  let above : Decimal := ⟨n / d + 1, power⟩
  let ordered := if 2 * (n % d) ≤ d then [below, above] else [above, below]
  ordered.filter fun c => x.readsBack c.ratio.1 c.ratio.2

/-- The first hit when the number of digits grows from `count`. -/
def shortestFrom (x : Binary64) : (fuel count : Nat) → Decimal
  | 0, _ => ⟨x.mantissa, 0⟩
  | fuel + 1, count =>
    match candidates x count with
    | c :: _ => c
    | [] => shortestFrom x fuel (count + 1)

/-- The shortest decimal number that reads back as `x`. Seventeen digits
always do. -/
def shortest (x : Binary64) : Decimal :=
  shortestFrom x 17 1

/-- How numbers are written. -/
structure PlainRange where
  /-- The greatest number of digits before the point in plain notation. -/
  wholeDigits : Int
  /-- The greatest number of zeros right after the point in plain notation. -/
  leadingZeros : Int

/-- Plain notation reaches from `0.00001` to sixteen digits before the point. -/
def plainRange : PlainRange := ⟨16, 4⟩

/-- Digits without the zeros at their end, and how many those were. -/
def dropZeros (digits : List Char) : List Char × Nat :=
  let kept := (digits.reverse.dropWhile (· = '0')).reverse
  (kept, digits.length - kept.length)

/-- The text of a value: plain where that is short, else with an exponent. -/
def text (x : Binary64) : String :=
  if x.mantissa = 0 then "0.0"
  else
    let d := shortest x
    let (digits, zeros) := dropZeros (toString d.digits).toList
    let point : Int := digits.length + d.power + zeros
    let places := digits.length
    if 0 < point ∧ point ≤ plainRange.wholeDigits then
      let whole := point.toNat
      if places ≤ whole then
        String.ofList (digits ++ List.replicate (whole - places) '0') ++ ".0"
      else String.ofList (digits.take whole ++ '.' :: digits.drop whole)
    else if -plainRange.leadingZeros - 1 < point ∧ point ≤ 0 then
      "0." ++ String.ofList (List.replicate (-point).toNat '0' ++ digits)
    else
      let mantissa :=
        match digits with
        | [first] => [first]
        | first :: rest => first :: '.' :: rest
        | [] => []
      let exponent := point - 1
      String.ofList mantissa ++ (if 0 ≤ exponent then "e+" else "e-") ++
        toString exponent.natAbs

end RaceSkeletons.Binary64
