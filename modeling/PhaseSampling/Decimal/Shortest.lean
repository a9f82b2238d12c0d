import PhaseSampling.Decimal.Binary64

/-!
# The fewest digits that read back

A binary number stands for every real that rounds to it: an interval around it whose ends belong
to it when the mantissa is even. `shortest` looks on the grids of 1, 2, 3, … digits for a point in
that interval and takes the first grid that has one, and of two points there the nearer.
-/

namespace PhaseSampling

/-- The decimal `digits * 10 ^ exponent`. -/
structure Decimal where
  digits : Nat
  exponent : Int
  deriving DecidableEq, Repr

namespace Decimal

/-- Which of two neighbours stands for a number that is halfway between them. -/
inductive Tie where
  | upper
  | even
  deriving DecidableEq, Repr

/-- A positive binary number `mantissa * 2 ^ exponent` with the reals that round to it. All three
bounds are in units of `2 ^ (exponent - 2)`. -/
structure Interval where
  low : Nat
  value : Nat
  high : Nat
  /-- The exponent of the unit. -/
  unit : Int
  /-- Whether the bounds belong to it. -/
  closed : Bool

/-- Above a power of two the gap to the number below is half as wide, save at the bottom. -/
def Interval.of (mantissa : Nat) (exponent : Int) : Interval where
  low :=
    if mantissa = Binary64.leadingOne ∧ exponent > Binary64.minExponent then 4 * mantissa - 1
    else 4 * mantissa - 2
  value := 4 * mantissa
  high := 4 * mantissa + 2
  unit := exponent - 2
  closed := mantissa % 2 == 0

/-- Factors that bring multiples of the unit and of `10 ^ p` to one scale. -/
def Interval.scales (i : Interval) (p : Int) : Nat × Nat :=
  (Nat.pow 10 (-p).toNat <<< i.unit.toNat, Nat.pow 10 p.toNat <<< (-i.unit).toNat)

/-- Whether `d * 10 ^ p` lies in the interval. -/
def Interval.holds (i : Interval) (p : Int) (d : Nat) : Bool :=
  let (u, g) := i.scales p
  if i.closed then i.low * u ≤ d * g && d * g ≤ i.high * u
  else i.low * u < d * g && d * g < i.high * u

/-- The point of the grid of multiples of `10 ^ p` that stands for the number, if there is one:
one of its two neighbours on the grid. -/
def Interval.point? (i : Interval) (tie : Tie) (p : Int) : Option Nat :=
  let (u, g) := i.scales p
  let d := i.value * u / g
  let twice := 2 * (i.value * u % g)
  match i.holds p d, i.holds p (d + 1) with
  | true, true =>
    let down := twice < g || (twice == g && tie == .even && d % 2 == 0)
    some (if down then d else d + 1)
  | true, false => some d
  | false, true => some (d + 1)
  | false, false => none

/-- The least `k` with the number below `10 ^ k`, searched upwards from a lower estimate. -/
def Interval.magnitude (i : Interval) : Int :=
  let start := ((Nat.log2 i.value : Int) + i.unit) * 30103 / 100000 - 1
  let below (k : Int) : Bool :=
    let (u, g) := i.scales k
    i.value * u < g
  let rec up : Nat → Int → Int
    | 0, k => k
    | n + 1, k => if below k then k else up n (k + 1)
  up 4 start

/-- A decimal without zeros at its end; the fuel is the number of digits. -/
def strip : Nat → Decimal → Decimal
  | 0, d => d
  | n + 1, d =>
    if d.digits ≠ 0 ∧ d.digits % 10 = 0 then strip n ⟨d.digits / 10, d.exponent + 1⟩ else d

/-- The shortest decimal that reads back as the positive number `mantissa * 2 ^ exponent`. With 17
digits the grid is finer than the interval, so the search ends. -/
def shortest (tie : Tie) (mantissa : Nat) (exponent : Int) : Decimal :=
  let i := Interval.of mantissa exponent
  let k := i.magnitude
  let rec search : Nat → Nat → Decimal
    | 0, _ => ⟨mantissa, exponent⟩
    | fuel + 1, n =>
      match i.point? tie (k - n) with
      | some d => strip n ⟨d, k - n⟩
      | none => search fuel (n + 1)
  search 20 1

end Decimal

end PhaseSampling
