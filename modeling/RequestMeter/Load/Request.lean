import RequestMeter.Json.Read
import RequestMeter.Json.Magnitude

/-! # Load requests

The body that asks for synthetic load.  It is read token by token and the first fault decides: a
text that is no JSON is malformed, JSON of another shape is mistyped.  What follows the first value
is not read.
-/
namespace RequestMeter

open Json

structure LoadRequest where
  workers : Nat := 10
  durationSecs : Nat := 30
  /-- The share of transactions that fail, in percent. -/
  errorPct : Nat := 2
  deriving DecidableEq, Repr

inductive BodyFault where
  | malformed
  | mistyped
  deriving DecidableEq, Repr

namespace LoadRequest

inductive Setting where
  | workers
  | durationSecs
  | errorPct
  deriving DecidableEq, Repr

def Setting.ofName? : Text → Option Setting
  | some "workers" => some .workers
  | some "duration_secs" => some .durationSecs
  | some "error_pct" => some .errorPct
  | _ => none

def Setting.bound : Setting → Nat
  | .workers => UInt32.size - 1
  | .durationSecs => UInt64.size - 1
  | .errorPct => 255

def set (r : LoadRequest) (n : Nat) : Setting → LoadRequest
  | .workers => { r with workers := n }
  | .durationSecs => { r with durationSecs := n }
  | .errorPct => { r with errorPct := n }

/-- The fault of a token where a natural number up to a bound, or a structure, should stand. -/
def faultOf : Option Token → BodyFault
  | some (.number n) => if n.overflows then .malformed else .mistyped
  | some (.string (some _)) => .mistyped
  | some .null => .mistyped
  | some (.bool _) => .mistyped
  | some .openBrace => .mistyped
  | some .openBracket => .mistyped
  | _ => .malformed

def value (s : Setting) : List Token → Except BodyFault (Nat × List Token)
  | .number n :: ts => match n.natural? with
    | some v => if v ≤ s.bound then .ok (v, ts) else .error (faultOf (some (.number n)))
    | none => .error (faultOf (some (.number n)))
  | ts => .error (faultOf ts.head?)

def colon : List Token → Except BodyFault (List Token)
  | .colon :: ts => .ok ts
  | _ => .error .malformed

/-- Any one value, which is not kept. -/
def skipped (ts : List Token) : Except BodyFault (List Token) :=
  match value? (ts.length + 1) ts with
  | some (_, ts) => .ok ts
  | none => .error .malformed

/-- One field: a setting must not be among those that are set; another name is skipped, unless its
literal stands for no text. -/
def member (r : LoadRequest) (seen : List Setting) (name : Text) (ts : List Token) :
    Except BodyFault (LoadRequest × List Setting × List Token) :=
  match Setting.ofName? name with
  | some s =>
    if s ∈ seen then .error .mistyped
    else do
      let (n, ts) ← value s (← colon ts)
      return (r.set n s, s :: seen, ts)
  | none => do
    if name = none then throw .malformed
    return (r, seen, ← skipped (← colon ts))

def members : Nat → LoadRequest → List Setting → List Token → Except BodyFault LoadRequest
  | fuel + 1, r, seen, .string name :: ts => do
    let (r, seen, ts) ← member r seen name ts
    match separator? .closeBrace ts with
    | some (.done, _) => return r
    | some (.more, ts) => members fuel r seen ts
    | none => .error .malformed
  | _, _, _, _ => .error .malformed

def elements : LoadRequest → List Setting → List Token → Except BodyFault LoadRequest
  | _, [], _ => .error .malformed
  | r, s :: ss, ts => do
    let (n, ts) ← value s ts
    match separator? .closeBracket ts with
    | some (.done, _) => return r.set n s
    | some (.more, ts) => elements (r.set n s) ss ts
    | none => .error .malformed

def ofTokens : List Token → Except BodyFault LoadRequest
  | .openBrace :: .closeBrace :: _ => .ok {}
  | .openBrace :: ts => members ts.length {} [] ts
  | .openBracket :: .closeBracket :: _ => .ok {}
  | .openBracket :: ts => elements {} [.workers, .durationSecs, .errorPct] ts
  | ts => .error (faultOf ts.head?)

/-- The request in a body. -/
def read (body : String) : Except BodyFault LoadRequest := ofTokens (tokens body.toList)

end LoadRequest

end RequestMeter
