import RequestMeter.Http.Token

/-! # Request targets

A target is a path, `*`, a whole URI with scheme and host, or a host alone.  A path may be followed
by a query and a fragment; only the path counts.
-/
namespace RequestMeter.Http

/-! ## Paths -/

/-- The characters of a path; any character beyond ASCII is one. -/
def isPathChar (c : Char) : Bool :=
  let n := c.toNat
  n = 0x21 || n = 0x22 || (0x24 ≤ n && n ≤ 0x3B) || n = 0x3D || (0x40 ≤ n && n ≤ 0x5F) ||
    (0x61 ≤ n && n ≤ 0x7E) || 0x80 ≤ n

def isQueryChar (c : Char) : Bool :=
  let n := c.toNat
  n = 0x21 || (0x24 ≤ n && n ≤ 0x3B) || n = 0x3D || (0x3F ≤ n && n ≤ 0x7E) || 0x80 ≤ n

/-- The path in front of a query and a fragment.  A fragment may hold any characters. -/
def pathAndQuery? (cs : List Char) : Option (List Char) :=
  let (path, rest) := cs.span fun c => c ≠ '?' ∧ c ≠ '#'
  if path.all isPathChar then
    match rest with
    | '?' :: query =>
      if (query.takeWhile (· ≠ '#')).all isQueryChar then some path else none
    | _ => some path
  else none

/-! ## Authorities -/

/-- What has been read of an authority: user information that ends with `@`, a host that may stand
in brackets, and a port. -/
structure Authority where
  /-- Colons after the last `@` or `]`. -/
  colons : Nat := 0
  opened : Bool := false
  closed : Bool := false
  /-- Whether a percent sign stands after the last `@` or `]`. -/
  percent : Bool := false
  /-- Whether the last character is `@`. -/
  hostMissing : Bool := false
  deriving DecidableEq, Repr

namespace Authority

/-- The most colons that may follow one another with neither `@` nor `]` between them. -/
def maxColons : Nat := 8

def isPlainChar (c : Char) : Bool := isAlphanumeric c || "-._~!$&'()*+,;=".toList.contains c

def read? (a : Authority) (c : Char) : Option Authority :=
  match c with
  | ':' =>
    if a.colons < maxColons then some { a with colons := a.colons + 1, hostMissing := false }
    else none
  | '[' =>
    if a.percent || a.opened then none else some { a with opened := true, hostMissing := false }
  | ']' =>
    if a.opened && !a.closed then
      some { a with closed := true, colons := 0, percent := false, hostMissing := false }
    else none
  | '@' => some { a with colons := 0, percent := false, hostMissing := true }
  | '%' => some { a with percent := true, hostMissing := false }
  | c => if isPlainChar c then some { a with hostMissing := false } else none

/-- Whether an authority may end here: brackets are closed, a port is all that follows the host, and
only user information and a bracketed host hold percent signs. -/
def isComplete (a : Authority) : Bool :=
  a.opened = a.closed && a.colons ≤ 1 && !a.percent && !a.hostMissing

end Authority

def isAuthority (cs : List Char) : Bool :=
  cs ≠ [] && match cs.foldlM Authority.read? {} with
    | some a => a.isComplete
    | none => false

/-! ## Targets -/

def maxSchemeLength : Nat := 64

def isSchemeChar (c : Char) : Bool := isAlphanumeric c || "+-.~".toList.contains c

/-- The rest of a text after `://`, if only characters of a scheme come before it. -/
def afterScheme? (cs : List Char) : Option (List Char) :=
  let (scheme, rest) := cs.span isSchemeChar
  match rest with
  | ':' :: '/' :: '/' :: rest => if scheme.length ≤ maxSchemeLength then some rest else none
  | _ => none

/-- The path of a URI after its scheme; without one it is the root. -/
def pathOfUri? (cs : List Char) : Option (List Char) :=
  let (authority, rest) := cs.span fun c => c ≠ '/' ∧ c ≠ '?' ∧ c ≠ '#'
  if isAuthority authority then
    (pathAndQuery? rest).map fun path => if path = [] then ['/'] else path
  else none

def maxTargetSize : Nat := 65534

/-- The path that a target names; a host alone names none and has the empty path. -/
def path? (target : String) : Option (List Char) :=
  if maxTargetSize < target.utf8ByteSize then none
  else match target.toList with
    | ['*'] => some ['*']
    | '/' :: cs => pathAndQuery? ('/' :: cs)
    | cs => match afterScheme? cs with
      | some rest => pathOfUri? rest
      | none => if isAuthority cs then some [] else none

end RequestMeter.Http
