import RequestMeter.Json.Basic
import RequestMeter.Binary64
import RequestMeter.Count
import RequestMeter.Numeral

/-! # Numbers out of range

A number literal that is no integer is read as a 64-bit count, made of its leading digits, times a
power of ten.  The count and the power are each rounded to binary64 and then multiplied, and a
product beyond the largest binary64 number is out of range.
-/
namespace RequestMeter.Json.Number

/-- Appends digits to a count for as long as it stays a 64-bit count, and says how many. -/
def join (n : Nat) : List Nat → Nat × Nat
  | [] => (n, 0)
  | d :: ds =>
    if n * 10 + d ≤ maxCount then
      let (m, joined) := join (n * 10 + d) ds
      (m, joined + 1)
    else (n, 0)

/-- The count and the exponent of ten that a literal is read as.  A digit of the whole part that does
not fit still counts as a factor of ten; one of the fraction is dropped. -/
def reading (n : Number) : Nat × Int :=
  let whole := Numeral.digits 10 n.whole
  let (m, joined) := join 0 whole
  let (m, places) := join m n.fraction
  (m, n.exponent.getD 0 + ((whole.length - joined : Nat) : Int) - places)

def maxPower : Nat := 308

def overflows (n : Number) : Bool :=
  let (m, e) := n.reading
  if m = 0 ∨ e < 0 then false
  else if (maxPower : Int) < e then true
  else !((Binary64.ofNat m).mul (Binary64.ofNat (Nat.pow 10 e.toNat))).isFinite

end RequestMeter.Json.Number
