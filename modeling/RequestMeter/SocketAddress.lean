import RequestMeter.Numeral

/-! # Socket addresses as text

An address is `a.b.c.d:port`, `[groups]:port` or `[groups%scope]:port`.  Octets have no leading
zeros.  Groups are written with small letters, the longest run of two or more zero groups (the first
of equal ones) as `::`, and addresses that stand for an IPv4 address with that address at the end.
-/
namespace RequestMeter

inductive Host where
  /-- Four octets. -/
  | v4 (octets : List Nat)
  /-- Eight groups of 16 bits, and the scope, 0 for none. -/
  | v6 (groups : List Nat) (scope : Nat)
  deriving DecidableEq, Repr

structure SocketAddress where
  host : Host
  port : Nat
  deriving DecidableEq, Repr

namespace SocketAddress

/-! ## Reading -/

def someDigits (digitOf : Char → Option Nat) (cs : List Char) : Option (List Nat × List Char) :=
  match Numeral.run digitOf none cs with
  | ([], _) => none
  | (ds, rest) => some (ds, rest)

def number? (bound : Nat) (cs : List Char) : Option (Nat × List Char) := do
  let (ds, rest) ← someDigits Numeral.digit? cs
  let n := Numeral.value 10 ds
  if n ≤ bound then return (n, rest) else none

/-- An octet: one to three digits without a leading zero. -/
def octet? (cs : List Char) : Option (Nat × List Char) := do
  let (ds, rest) ← someDigits Numeral.digit? cs
  let n := Numeral.value 10 ds
  if ds.length ≤ 3 ∧ ¬ (ds.head? = some 0 ∧ 1 < ds.length) ∧ n ≤ 255 then return (n, rest) else none

def group? (cs : List Char) : Option (Nat × List Char) := do
  let (ds, rest) ← someDigits Numeral.hexDigit? cs
  if ds.length ≤ 4 then return (Numeral.value 16 ds, rest) else none

def skip? (c : Char) : List Char → Option (List Char)
  | d :: rest => if d = c then some rest else none
  | [] => none

def dotted? (cs : List Char) : Option (List Nat × List Char) := do
  let (a, cs) ← octet? cs
  let (b, cs) ← octet? (← skip? '.' cs)
  let (c, cs) ← octet? (← skip? '.' cs)
  let (d, cs) ← octet? (← skip? '.' cs)
  return ([a, b, c, d], cs)

def groupsOfOctets : List Nat → List Nat
  | [a, b, c, d] => [a * 256 + b, c * 256 + d]
  | _ => []

/-- Groups with colons between them, as many as there are up to a limit.  Four octets may take the
place of two groups and then are the last; the flag says whether they did. -/
def groups : Nat → Bool → List Char → List Nat × Bool × List Char
  | 0, _, cs => ([], false, cs)
  | limit + 1, first, cs =>
    match if first then some cs else skip? ':' cs with
    | none => ([], false, cs)
    | some body =>
      match if 1 ≤ limit then dotted? body else none with
      | some (octets, rest) => (groupsOfOctets octets, true, rest)
      | none => match group? body with
        | none => ([], false, cs)
        | some (g, rest) =>
          let (gs, dotted, rest) := groups limit false rest
          (g :: gs, dotted, rest)

/-- Eight groups, or fewer with `::` for one zero group at least. -/
def ipv6? (cs : List Char) : Option (List Nat × List Char) :=
  let (head, dotted, rest) := groups 8 true cs
  if head.length = 8 then some (head, rest)
  else if dotted then none
  else match rest with
    | ':' :: ':' :: rest =>
      let (tail, _, rest) := groups (7 - head.length) true rest
      some (head ++ List.replicate (8 - head.length - tail.length) 0 ++ tail, rest)
    | _ => none

def scope (cs : List Char) : Nat × List Char :=
  match ((skip? '%' cs).bind (number? 4294967295)) with
  | some (n, rest) => (n, rest)
  | none => (0, cs)

def port? (cs : List Char) : Option (Nat × List Char) := do number? 65535 (← skip? ':' cs)

def host? (cs : List Char) : Option (Host × List Char) :=
  match dotted? cs with
  | some (octets, rest) => some (.v4 octets, rest)
  | none => do
    let (gs, rest) ← ipv6? (← skip? '[' cs)
    let (scope, rest) := scope rest
    return (.v6 gs scope, ← skip? ']' rest)

def read? (cs : List Char) : Option SocketAddress := do
  let (host, rest) ← host? cs
  match ← port? rest with
  | (port, []) => some { host, port }
  | _ => none

/-! ## Writing -/

def joined (c : Char) : List (List Char) → List Char
  | [] => []
  | [t] => t
  | t :: ts => t ++ c :: joined c ts

def writeOctets (octets : List Nat) : List Char := joined '.' (octets.map Numeral.decimal)

def writeGroups (gs : List Nat) : List Char := joined ':' (gs.map Numeral.hexadecimal)

/-- Start and length of the longest run of zeros, the first of equal ones. -/
def longestZeros : List Nat → Nat × Nat
  | [] => (0, 0)
  | g :: gs =>
    let here := ((g :: gs).takeWhile (· = 0)).length
    let (start, length) := longestZeros gs
    if length ≤ here then (0, here) else (start + 1, length)

def writeHost : Host → List Char
  | .v4 octets => writeOctets octets
  | .v6 gs scope =>
    let body := match gs with
      | [0, 0, 0, 0, 0, 0xffff, a, b] =>
        [':', ':', 'f', 'f', 'f', 'f', ':'] ++ writeOctets [a / 256, a % 256, b / 256, b % 256]
      | gs =>
        let (start, length) := longestZeros gs
        if 2 ≤ length then
          writeGroups (gs.take start) ++ [':', ':'] ++ writeGroups (gs.drop (start + length))
        else writeGroups gs
    '[' :: body ++ (if scope = 0 then [] else '%' :: Numeral.decimal scope) ++ [']']

def write (a : SocketAddress) : List Char := writeHost a.host ++ ':' :: Numeral.decimal a.port

end SocketAddress

end RequestMeter
