/-!
# Binary floating point

A finite double is a sign, a mantissa and an exponent: `± mantissa · 2^exponent`, with a
mantissa below `2^53` that is at least `2^52` unless the exponent is the least one. All
arithmetic here is exact arithmetic on natural numbers followed by one rounding to the nearest
double, of two equally near ones to the one with the even mantissa.
-/

namespace RegistryLookup

/-- A finite double. -/
structure Binary64 where
  negative : Bool
  mantissa : Nat
  exponent : Int
  deriving DecidableEq

namespace Binary64

/-- The exponent of the smallest doubles. -/
def leastExponent : Int := -1074

/-- The exponent of the largest doubles. -/
def greatestExponent : Int := 971

/-- Zero with a sign. -/
def zero (negative : Bool) : Binary64 := ⟨negative, 0, leastExponent⟩

/-- `n · 2^k` for a `k` of either sign, as a ratio. -/
def scaled (n : Nat) (k : Int) : Nat × Nat :=
  if 0 ≤ k then (n * Nat.pow 2 k.toNat, 1) else (n, Nat.pow 2 (-k).toNat)

/-- The quotient of two numbers to the nearest integer, of two to the even one. -/
def nearestQuotient (num den : Nat) : Nat :=
  let q := num / den
  let r := num % den
  if 2 * r < den then q
  else if den < 2 * r then q + 1
  else if q % 2 = 0 then q else q + 1

/-- `num / den` in units of `2^e`, to the nearest. -/
def mantissaAt (num den : Nat) (e : Int) : Nat :=
  if 0 ≤ e then nearestQuotient num (den * Nat.pow 2 e.toNat)
  else nearestQuotient (num * Nat.pow 2 (-e).toNat) den

/-- The exponent at which `num / den` has 53 binary digits, or the least one. -/
def exponentFor (num den : Nat) : Int :=
  let guess : Int := (Nat.log2 num : Int) - (Nat.log2 den : Int) - 53
  let below : Int → Bool := fun e =>
    if 0 ≤ e then num < den * Nat.pow 2 e.toNat * Nat.pow 2 53
    else num * Nat.pow 2 (-e).toNat < den * Nat.pow 2 53
  max leastExponent (if below guess then guess else guess + 1)

/-- The double nearest to `num / den`, or nothing if that is beyond the largest one. -/
def roundRatio (negative : Bool) (num den : Nat) : Option Binary64 :=
  if num = 0 then some (zero negative)
  else
    let e := exponentFor num den
    let m := mantissaAt num den e
    let (m, e) := if m = Nat.pow 2 53 then (Nat.pow 2 52, e + 1) else (m, e)
    if greatestExponent < e then none else some ⟨negative, m, e⟩

/-- The double nearest to a natural number. -/
def ofNat (negative : Bool) (n : Nat) : Option Binary64 := roundRatio negative n 1

/-- The double nearest to `10^k`. -/
def powerOfTen (k : Nat) : Option Binary64 := roundRatio false (Nat.pow 10 k) 1

/-- The product of two doubles, rounded. -/
def mul (x y : Binary64) : Option Binary64 :=
  let (num, den) := scaled (x.mantissa * y.mantissa) (x.exponent + y.exponent)
  roundRatio (x.negative != y.negative) num den

/-- The quotient of two doubles, rounded; the divisor is not zero. -/
def div (x y : Binary64) : Option Binary64 :=
  let (num, den) := scaled x.mantissa (x.exponent - y.exponent)
  roundRatio (x.negative != y.negative) num (den * y.mantissa)

/-- Whether a double is one of the two zeros. -/
def isZero (x : Binary64) : Bool := x.mantissa = 0

end Binary64

end RegistryLookup
