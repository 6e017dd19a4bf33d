/-! # Nonnegative binary64 numbers

Report values are nonnegative and finite, so a value is kept exactly, as a mantissa and a power of
two.  Conversion, division and multiplication round to the nearest 53-bit mantissa, ties to the even one, and all
of it is integer arithmetic.  The exponent is not bounded here; values between 2⁻¹⁰²² and 2¹⁰²³
have the bits that `bits` gives.
-/
namespace RequestMeter

/-- The number `mantissa * 2 ^ exponent`.  Zero has exponent 0; any other number made by `ofRatio`
has a mantissa from 2⁵² up to 2⁵³ - 1. -/
structure Binary64 where
  mantissa : Nat
  exponent : Int
  deriving DecidableEq, Repr

namespace Binary64

def zero : Binary64 := ⟨0, 0⟩

instance : Inhabited Binary64 := ⟨zero⟩

def shift (n d : Nat) (e : Int) : Nat × Nat :=
  if 0 ≤ e then (n, d * Nat.pow 2 e.toNat) else (n * Nat.pow 2 (-e).toNat, d)

/-- The exponent at which a positive ratio has a 53-bit whole part. -/
def exponentOf (n d : Nat) : Int :=
  let e : Int := n.log2 - d.log2 - 52
  let (a, b) := shift n d e
  if a / b < Nat.pow 2 52 then e - 1 else e

/-- The whole number nearest to `n / d`, the even one of two. -/
def nearest (n d : Nat) : Nat :=
  let q := n / d
  let r := n % d
  if d < 2 * r ∨ (2 * r = d ∧ q % 2 = 1) then q + 1 else q

/-- The number nearest to `n / d`; zero when `n` is zero. -/
def ofRatio (n d : Nat) : Binary64 :=
  if n = 0 then zero
  else
    let e := exponentOf n d
    let (a, b) := shift n d e
    let m := nearest a b
    if m = Nat.pow 2 53 then ⟨Nat.pow 2 52, e + 1⟩ else ⟨m, e⟩

def ofNat (n : Nat) : Binary64 := ofRatio n 1

def div (x y : Binary64) : Binary64 :=
  let (a, b) := shift x.mantissa y.mantissa (y.exponent - x.exponent)
  ofRatio a b

def mul (x y : Binary64) : Binary64 :=
  let (a, b) := shift (x.mantissa * y.mantissa) 1 (-(x.exponent + y.exponent))
  ofRatio a b

/-- Whether the number is at most the largest of 64 bits. -/
def isFinite (x : Binary64) : Bool := x.exponent ≤ 971

/-- The 64 bits of the number: biased exponent, then the mantissa without its leading bit. -/
def bits (x : Binary64) : Nat :=
  if x.mantissa = 0 then 0 else (x.exponent + 1075).toNat * Nat.pow 2 52 + (x.mantissa - Nat.pow 2 52)

@[simp] theorem ofRatio_zero (d : Nat) : ofRatio 0 d = zero := if_pos rfl

@[simp] theorem ofNat_zero : ofNat 0 = zero := ofRatio_zero 1

end Binary64

end RequestMeter
