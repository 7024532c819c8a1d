/-!
# Binary floating point, exactly

Numbers with a fraction or an exponent are held as double-precision values.
A value is a natural number times a power of two, and all arithmetic is
exact arithmetic on fractions followed by one rounding to the nearest
value, ties to the even one. Signs are kept outside.
-/

namespace RaceSkeletons

/-- The value `mantissa * 2 ^ exponent`. -/
structure Binary64 where
  mantissa : Nat
  exponent : Int
  deriving Repr, DecidableEq

namespace Binary64

/-- The least exponent of a value. -/
def minExponent : Int := -1074

/-- The greatest exponent of a value with a full mantissa. -/
def maxExponent : Int := 971

def zero : Binary64 := ⟨0, minExponent⟩

/-- A value as a fraction. -/
def ratio (x : Binary64) : Nat × Nat :=
  if 0 ≤ x.exponent then (x.mantissa * Nat.pow 2 x.exponent.toNat, 1)
  else (x.mantissa, Nat.pow 2 (-x.exponent).toNat)

/-- The fraction `num / den` divided by `2 ^ e`. -/
def scaled (num den : Nat) (e : Int) : Nat × Nat :=
  if 0 ≤ e then (num, den * Nat.pow 2 e.toNat) else (num * Nat.pow 2 (-e).toNat, den)

/-- The natural number nearest to a fraction, the even one of two. -/
def roundHalfEven (num den : Nat) : Nat :=
  let q := num / den
  let twice := 2 * (num % den)
  if twice < den then q
  else if den < twice then q + 1
  else if q % 2 = 0 then q else q + 1

/-- The exponent that gives the fraction `num / den` a full mantissa. -/
def exponentOf (num den : Nat) : Int :=
  let guess : Int := (num.log2 : Int) - (den.log2 : Int) - 52
  let (n, d) := scaled num den guess
  if n / d < Nat.pow 2 52 then guess - 1 else guess

/-- The value nearest to the fraction `num / den`; none beyond the greatest
value. -/
def ofRatio? (num den : Nat) : Option Binary64 :=
  if num = 0 then some zero
  else
    let e := max (exponentOf num den) minExponent
    let (n, d) := scaled num den e
    let m := roundHalfEven n d
    let (m, e) := if m = Nat.pow 2 53 then (Nat.pow 2 52, e + 1) else (m, e)
    if maxExponent < e then none else some ⟨m, e⟩

/-- The value nearest to a natural number. -/
def ofNat? (n : Nat) : Option Binary64 :=
  ofRatio? n 1

/-- The product, rounded. -/
def mul? (x y : Binary64) : Option Binary64 :=
  ofRatio? (x.ratio.1 * y.ratio.1) (x.ratio.2 * y.ratio.2)

/-- The quotient, rounded. -/
def div? (x y : Binary64) : Option Binary64 :=
  ofRatio? (x.ratio.1 * y.ratio.2) (x.ratio.2 * y.ratio.1)

/-- The value nearest to a power of ten. -/
def powerOfTen? (n : Nat) : Option Binary64 :=
  ofNat? (Nat.pow 10 n)

/-- The greatest power of ten that is used in one multiplication or
division. -/
def maxPower : Nat := 308

/-- `x` divided by the greatest power of ten that is used at once. -/
def divMaxPower? (x : Binary64) : Option Binary64 :=
  (powerOfTen? maxPower).bind x.div?

/-- Divides `count` times by the greatest power of ten that is used at once.
Zero stays zero. -/
def divRepeatedly : (count : Nat) → Binary64 → Option Binary64
  | 0, x => some x
  | count + 1, x =>
    if x.mantissa = 0 then some x
    else
      match x.divMaxPower? with
      | none => none
      | some y => divRepeatedly count y

/-- `x * 10 ^ exponent`, computed with one operation per 308 places; none
when it is too great. -/
def scaleByTen (x : Binary64) (exponent : Int) : Option Binary64 :=
  if 0 ≤ exponent then
    if x.mantissa = 0 then some x
    else if maxPower < exponent.natAbs then none
    else (powerOfTen? exponent.natAbs).bind x.mul?
  else
    let count := (exponent.natAbs - 1) / maxPower
    match divRepeatedly count x, powerOfTen? (exponent.natAbs - count * maxPower) with
    | some y, some power => y.div? power
    | _, _ => none

end Binary64

end RaceSkeletons
