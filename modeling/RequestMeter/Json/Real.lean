import RequestMeter.Json.Basic
import RequestMeter.Numeral
import RequestMeter.Binary64.Shortest

/-! # Binary64 numbers as JSON

A binary64 number is written with the shortest decimal that reads back.  Numbers from 10⁻⁵ up to
10¹⁶ are written by place value, with at least one digit after the point; others have one digit
before the point and an exponent.
-/
namespace RequestMeter.Json

/-- The literal of a decimal with digits `ds` whose leading digit has weight `10 ^ e`. -/
def Number.ofDigits (ds : List Nat) (e : Int) : Number :=
  if e < -5 ∨ 16 ≤ e then
    ⟨false, Numeral.value 10 (ds.take 1), ds.drop 1, some e⟩
  else if e < 0 then
    ⟨false, 0, List.replicate (-e - 1).toNat 0 ++ ds, none⟩
  else
    let places := (e + 1).toNat
    let whole := ds.take places ++ List.replicate (places - ds.length) 0
    let fraction := ds.drop places
    ⟨false, Numeral.value 10 whole, if fraction = [] then [0] else fraction, none⟩

def Number.ofBinary64 (x : Binary64) : Number :=
  let d := x.shortest
  let ds := Numeral.digits 10 d.coefficient
  if d.coefficient = 0 then ⟨false, 0, [0], none⟩
  else Number.ofDigits ds (d.scale + ds.length - 1)

def real (x : Binary64) : Json := number (Number.ofBinary64 x)

end RequestMeter.Json
