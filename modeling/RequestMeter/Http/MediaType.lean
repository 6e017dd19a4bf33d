import RequestMeter.Http.Token

/-! # Media types

A media type is `type/subtype`, where the subtype may have a suffix after a plus sign, and parameters
`name=value` may follow, each after a semicolon.
-/
namespace RequestMeter.Http

/-! ## Parameters -/

/-- The characters of a quoted value.  There are no escapes. -/
def isQuotedChar (c : Char) : Bool := 0x20 ≤ c.toNat && c.toNat ≤ 0x7E

/-- What follows a value.  A quoted value has at least one character, the first of which may be a
quote as well, and blanks may follow it; an unquoted one is empty only at the end. -/
def afterValue? : List Char → Option (List Char)
  | '"' :: c :: cs =>
    let (quoted, rest) := cs.span (· ≠ '"')
    match rest with
    | _ :: rest =>
      if isQuotedChar c && quoted.all isQuotedChar then some (rest.dropWhile (· = ' ')) else none
    | [] => none
  | cs =>
    let (value, rest) := cs.span isTokenChar
    if value = [] ∧ rest ≠ [] then none else some rest

/-- Whether a text is a list of parameters with semicolons between them; blanks may stand before each.
The fuel bounds their number. -/
def areParameters : Nat → List Char → Bool
  | 0, _ => false
  | fuel + 1, cs =>
    match cs.dropWhile (· = ' ') with
    | [] => true
    | cs =>
      let (name, rest) := cs.span isTokenChar
      match name, rest with
      | _ :: _, '=' :: rest => match afterValue? rest with
        | some [] => true
        | some (';' :: rest) => areParameters fuel rest
        | _ => false
      | _, _ => false

/-! ## Types -/

structure MediaType where
  type : List Char
  /-- The subtype without its suffix. -/
  subtype : List Char
  suffix : Option (List Char) := none
  deriving DecidableEq, Repr

namespace MediaType

/-- A subtype without its suffix, and the suffix after its last plus sign.  A plus sign in front
starts no suffix. -/
def splitSuffix (subtype : List Char) : List Char × Option (List Char) :=
  let suffix := (subtype.reverse.takeWhile (· ≠ '+')).reverse
  let name := subtype.take (subtype.length - suffix.length - 1)
  if name = [] then (subtype, none) else (name, some suffix)

def ofParts (type subtype : List Char) : MediaType :=
  let (subtype, suffix) := splitSuffix subtype
  { type, subtype, suffix }

def lower (cs : List Char) : List Char :=
  cs.map fun c => if 'A' ≤ c ∧ c ≤ 'Z' then Char.ofNat (c.toNat + 32) else c

/-- The media type that a text spells, in lower case.  Its parameters are checked and not kept. -/
def read? (text : String) : Option MediaType :=
  let (type, rest) := (lower text.toList).span isTokenChar
  match type, rest with
  | _ :: _, '/' :: rest =>
    let (subtype, rest) := rest.span isTokenChar
    match rest with
    | [] => some (ofParts type subtype)
    | ';' :: parameters =>
      if subtype ≠ [] && areParameters (parameters.length + 1) parameters then
        some (ofParts type subtype)
      else none
    | _ => none
  | _, _ => none

/-- Whether a media type is `application/json`, or some other application type with the suffix
`+json`. -/
def isJson (t : MediaType) : Bool :=
  t.type = "application".toList && (t.subtype = "json".toList || t.suffix = some "json".toList)

end MediaType

end RequestMeter.Http
