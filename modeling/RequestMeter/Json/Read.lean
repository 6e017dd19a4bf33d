import RequestMeter.Json.Token

/-! # Reading JSON

The grammar over tokens.  A reader takes the tokens of one value from the front and leaves the
rest; a text is one value when nothing is left.
-/
namespace RequestMeter.Json

/-- The shared step of both containers: after an element stands a comma or the closing token. -/
inductive Separator where
  | more
  | done
  deriving DecidableEq, Repr

def separator? (closing : Token) : List Token → Option (Separator × List Token)
  | .comma :: ts => some (.more, ts)
  | t :: ts => if t = closing then some (.done, ts) else none
  | [] => none

mutual

/-- One value from the front of the tokens.  The fuel bounds the nesting and the number of elements
together; as many as there are tokens suffice. -/
def value? : Nat → List Token → Option (Json × List Token)
  | 0, _ => none
  | _ + 1, .null :: ts => some (.null, ts)
  | _ + 1, .bool b :: ts => some (.bool b, ts)
  | _ + 1, .number n :: ts => some (.number n, ts)
  | _ + 1, .string s :: ts => some (.string s, ts)
  | fuel + 1, .openBracket :: ts => match ts with
    | .closeBracket :: ts => some (.array [], ts)
    | ts => (items? fuel ts).map fun (js, ts) => (.array js, ts)
  | fuel + 1, .openBrace :: ts => match ts with
    | .closeBrace :: ts => some (.object [], ts)
    | ts => (fields? fuel ts).map fun (fs, ts) => (.object fs, ts)
  | _ + 1, _ => none

def items? : Nat → List Token → Option (List Json × List Token)
  | 0, _ => none
  | fuel + 1, ts => do
    let (j, ts) ← value? fuel ts
    match ← separator? .closeBracket ts with
    | (.done, ts) => return ([j], ts)
    | (.more, ts) =>
      let (js, ts) ← items? fuel ts
      return (j :: js, ts)

def fields? : Nat → List Token → Option (List (Text × Json) × List Token)
  | 0, _ => none
  | fuel + 1, .string name :: .colon :: ts => do
    let (j, ts) ← value? fuel ts
    match ← separator? .closeBrace ts with
    | (.done, ts) => return ([(name, j)], ts)
    | (.more, ts) =>
      let (fs, ts) ← fields? fuel ts
      return ((name, j) :: fs, ts)
  | _ + 1, _ => none

end

def ofTokens? (ts : List Token) : Option Json :=
  match value? (ts.length + 1) ts with
  | some (j, []) => some j
  | _ => none

def parse? (s : String) : Option Json := ofTokens? (tokens s.toList)

end RequestMeter.Json
