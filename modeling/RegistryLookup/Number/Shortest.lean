import RegistryLookup.Number.Binary64

/-!
# The shortest decimal of a double

A double stands for all reals that round to it: the reals between the midpoints to its two
neighbours, midpoints included when its mantissa is even. The shortest decimal is the one of
fewest digits in that interval, and of those the one nearest to the double.
-/

namespace RegistryLookup.Binary64

/-- A positive decimal `digits · 10^exponent`. -/
structure Decimal where
  digits : Nat
  exponent : Int
  deriving DecidableEq

/-- The interval of reals that round to a positive double, in units of `2^exponent`: both ends
and the double itself, and whether the ends belong. -/
structure Interval where
  low : Nat
  mid : Nat
  high : Nat
  exponent : Int
  closed : Bool

/-- The interval of a positive double. Below a power of two the neighbour is half as far. -/
def interval (x : Binary64) : Interval :=
  let half := x.mantissa = Nat.pow 2 52 ∧ leastExponent < x.exponent
  { low := if half then 4 * x.mantissa - 1 else 4 * x.mantissa - 2
    mid := 4 * x.mantissa
    high := 4 * x.mantissa + 2
    exponent := x.exponent - 2
    closed := x.mantissa % 2 = 0 }

/-- `d · 10^k` against `n · 2^e`, on a common scale of whole numbers. -/
def onScale (d : Nat) (k : Int) (n : Nat) (e : Int) : Nat × Nat :=
  (d * Nat.pow 10 k.toNat * Nat.pow 2 (-e).toNat, n * Nat.pow 2 e.toNat * Nat.pow 10 (-k).toNat)

/-- Whether a decimal lies in an interval. -/
def Interval.holds (i : Interval) (d : Nat) (k : Int) : Bool :=
  let (a, low) := onScale d k i.low i.exponent
  let (_, high) := onScale d k i.high i.exponent
  if i.closed then low ≤ a && a ≤ high else low < a && a < high

/-- The two decimals next to the middle of an interval among the multiples of `10^k`. -/
def Interval.neighbours (i : Interval) (k : Int) : Nat × Nat :=
  let (unit, value) := onScale 1 k i.mid i.exponent
  (value / unit, value / unit + 1)

/-- Whether the lower of two neighbouring multiples of `10^k` is the nearer one to the middle;
of two equally near ones the even one is taken. -/
def Interval.lowerIsNearer (i : Interval) (d : Nat) (k : Int) : Bool :=
  let (twice, value) := onScale (2 * d + 1) k (2 * i.mid) i.exponent
  value < twice || (value = twice && d % 2 = 0)

/-- A multiple of `10^k` in the interval, the nearest to its middle, if there is one. -/
def Interval.onGrid (i : Interval) (k : Int) : Option Decimal :=
  let (d, u) := i.neighbours k
  match 0 < d && i.holds d k, i.holds u k with
  | true, true => some ⟨if i.lowerIsNearer d k then d else u, k⟩
  | true, false => some ⟨d, k⟩
  | false, true => some ⟨u, k⟩
  | false, false => none

/-- The exponent of the leading decimal digit of a positive double. -/
def leadingExponent (x : Binary64) : Int :=
  let atLeast : Int → Bool := fun k =>
    let (a, b) := onScale 1 k x.mantissa x.exponent
    a ≤ b
  let guess : Int := ((Nat.log2 x.mantissa : Int) + x.exponent) * 30103 / 100000
  if atLeast (guess + 1) then guess + 1 else if atLeast guess then guess else guess - 1

/-- A decimal without trailing zeros. -/
def Decimal.trim : Nat → Decimal → Decimal
  | 0, d => d
  | fuel + 1, d =>
    if d.digits % 10 = 0 ∧ d.digits ≠ 0 then trim fuel ⟨d.digits / 10, d.exponent + 1⟩ else d

/-- The shortest decimal of a positive double: the first grid with a hit among those of one,
two, … seventeen digits. -/
def shortest (x : Binary64) : Decimal :=
  let i := x.interval
  let top := leadingExponent x
  match (List.range 17).findSome? (fun (n : Nat) => i.onGrid (top - (n : Int))) with
  | some d => d.trim 400
  | none => ⟨x.mantissa, x.exponent⟩

end RegistryLookup.Binary64
