/-! # JSON values

Values keep what a reader of strict JSON can see: numbers are whole part, fraction digits and
exponent, so that `1`, `1.0` and `1e0` differ, and objects keep their fields in order, repeated
names included.
-/
namespace RequestMeter

namespace Json

/-- A number literal.  The whole part has no leading zeros and so is a natural number; `-0` is the
negative number with whole part 0. -/
structure Number where
  negative : Bool
  whole : Nat
  fraction : List Nat
  exponent : Option Int
  deriving DecidableEq, Repr

/-- The content of a string literal, or `none` when an escape names half of a surrogate pair:
such a literal is grammatical but stands for no text. -/
abbrev Text := Option String

end Json

inductive Json where
  | null
  | bool (b : Bool)
  | number (n : Json.Number)
  | string (s : Json.Text)
  | array (items : List Json)
  | object (fields : List (Json.Text × Json))
  deriving Repr

namespace Json

instance : Inhabited Json := ⟨null⟩

def Number.ofNat (n : Nat) : Number := ⟨false, n, [], none⟩

/-- The natural number that a literal without sign, fraction and exponent stands for. -/
def Number.natural? (n : Number) : Option Nat :=
  if n.negative = false ∧ n.fraction = [] ∧ n.exponent = none then some n.whole else none

def Number.integer? (n : Number) : Option Int :=
  if n.fraction = [] ∧ n.exponent = none then
    some (if n.negative then -(n.whole : Int) else n.whole)
  else none

def nat (n : Nat) : Json := number (Number.ofNat n)

def str (s : String) : Json := string (some s)

def record (fields : List (String × Json)) : Json := object (fields.map fun f => (some f.1, f.2))

@[simp] theorem Number.natural?_ofNat (n : Nat) : (Number.ofNat n).natural? = some n := by
  simp [Number.natural?, Number.ofNat]

end Json

end RequestMeter
