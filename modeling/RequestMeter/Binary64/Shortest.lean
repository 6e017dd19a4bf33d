import RequestMeter.Binary64

/-! # Shortest decimals

The decimal with the fewest digits that reads back as a given binary64 number; of several with that
many digits, the one nearest to the number, and of two equally near, the one with the even last
digit.  A decimal reads back when it lies between the midpoints to the neighbouring numbers, the
midpoints included when the mantissa is even.
-/
namespace RequestMeter

/-- The number `coefficient * 10 ^ scale`. -/
structure Decimal where
  coefficient : Nat
  scale : Int
  deriving DecidableEq, Repr

namespace Binary64

/-- The numbers that read back as one number, in quarters of the unit of its last mantissa bit. -/
structure Readback where
  low : Nat
  value : Nat
  high : Nat
  closed : Bool
  deriving DecidableEq, Repr

/-- Below a power of two the neighbour is only half a unit away. -/
def readback (x : Binary64) : Readback where
  low := if x.mantissa = Nat.pow 2 52 then 4 * x.mantissa - 1 else 4 * x.mantissa - 2
  value := 4 * x.mantissa
  high := 4 * x.mantissa + 2
  closed := x.mantissa % 2 = 0

def power (base : Nat) (e : Int) : Nat × Nat :=
  if 0 ≤ e then (Nat.pow base e.toNat, 1) else (1, Nat.pow base (-e).toNat)

/-- Units of the grid `10 ^ p` in the smallest common part of grid and quarter unit, and quarter
units in it. -/
def scales (x : Binary64) (p : Int) : Nat × Nat :=
  let (a, b) := power 2 (x.exponent - 2)
  let (s, t) := power 10 p
  (s * b, a * t)

/-- The point of the grid `10 ^ p` that reads back as `x` and is nearest to it, if there is one. -/
def onGrid? (x : Binary64) (p : Int) : Option Nat :=
  let (g, u) := x.scales p
  let r := x.readback
  let c := r.value * u / g
  let within (k : Nat) : Bool :=
    if r.closed then r.low * u ≤ k * g ∧ k * g ≤ r.high * u
    else r.low * u < k * g ∧ k * g < r.high * u
  match within c, within (c + 1) with
  | true, true =>
    let twice := 2 * (r.value * u)
    let middle := (2 * c + 1) * g
    if twice < middle ∨ (twice = middle ∧ c % 2 = 0) then some c else some (c + 1)
  | true, false => some c
  | false, true => some (c + 1)
  | false, false => none

/-- The first grid, coarse ones first, that holds a point which reads back. -/
def search (x : Binary64) : Nat → Int → Decimal
  | 0, p => ⟨(x.readback.value * (x.scales p).2) / (x.scales p).1, p⟩
  | fuel + 1, p => match x.onGrid? p with
    | some c => ⟨c, p⟩
    | none => search x fuel (p - 1)

def coarsest (x : Binary64) : Int :=
  let top : Int := x.mantissa.log2 + x.exponent + 1
  max (top / 3) (3 * top / 10) + 1

/-- A power of ten so small that its grid has a point which reads back. -/
def finest (x : Binary64) : Int := min ((x.exponent - 2) / 3) 0

def shortest (x : Binary64) : Decimal :=
  if x.mantissa = 0 then ⟨0, 0⟩
  else x.search (x.coarsest - x.finest + 1).toNat x.coarsest

end Binary64

end RequestMeter
