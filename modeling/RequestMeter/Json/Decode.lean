import RequestMeter.Json.Basic
import RequestMeter.Count

/-! # Decoding JSON values

A structure is written as an object, whose unknown fields are ignored and whose known fields occur
once each, or as an array of the fields in their order.  A name out of a closed set is written as a
string or as an object with that one name and the value `null`.
-/
namespace RequestMeter.Json

def text? : Json → Option String
  | string s => s
  | _ => none

def natural? (bound : Nat) : Json → Option Nat
  | number n => n.natural?.filter (· ≤ bound)
  | _ => none

def count? (j : Json) : Option Nat := j.natural? maxCount

def name? : Json → Option String
  | string s => s
  | object [(s, null)] => s
  | _ => none

def names? (fields : List (Text × Json)) : Option (List String) := fields.mapM (·.1)

/-- Whether no name of `known` occurs twice. -/
def once (known names : List String) : Bool :=
  known.all fun k => names.count k ≤ 1

/-- The fields of a structure, found by name; a missing one is `none`. -/
def members? (known : List String) : Json → Option (String → Option Json)
  | object fields => do
    let names ← names? fields
    if once known names then return fun k => (fields.find? (·.1 = some k)).map (·.2) else none
  | array items =>
    if items.length ≤ known.length then
      some fun k => ((known.zip items).find? (·.1 = k)).map (·.2)
    else none
  | _ => none

def optional {α : Type} (default : α) (decode : Json → Option α) : Option Json → Option α
  | none => some default
  | some j => decode j

end RequestMeter.Json
