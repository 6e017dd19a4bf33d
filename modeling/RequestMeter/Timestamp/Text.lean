import RequestMeter.Timestamp.Basic
import RequestMeter.Numeral

/-! # Timestamps as text

A timestamp is written in UTC with the fewest groups of three fraction digits that are exact.  What
is read may have short fields, blanks before fields, a fraction of any length and an offset.
-/
namespace RequestMeter.Timestamp

/-! ## Writing -/

/-- Four digits; years outside 0 to 9999 have a sign as well. -/
def writeYear (year : Int) : List Char :=
  (if 0 ≤ year ∧ year ≤ 9999 then [] else [if year < 0 then '-' else '+']) ++
    Numeral.decimalPadded 4 year.natAbs

/-- No fraction, or a point and three, six or nine digits. -/
def writeFraction (nano : Nat) : List Char :=
  if nano = 0 then []
  else if nano % 1000000 = 0 then '.' :: Numeral.decimalPadded 3 (nano / 1000000)
  else if nano % 1000 = 0 then '.' :: Numeral.decimalPadded 6 (nano / 1000)
  else '.' :: Numeral.decimalPadded 9 nano

/-- Date, `T`, time of day and `Z`; a leap second is one second further, which is second 60 at the
end of a minute. -/
def write (t : Timestamp) : List Char :=
  let date := Date.ofDayNumber t.day
  let second := t.second % 60 + if t.isLeapSecond then 1 else 0
  writeYear date.year ++ '-' :: Numeral.decimalPadded 2 date.month ++
    '-' :: Numeral.decimalPadded 2 date.day ++
    'T' :: Numeral.decimalPadded 2 (t.second / 3600) ++
    ':' :: Numeral.decimalPadded 2 (t.second / 60 % 60) ++
    ':' :: Numeral.decimalPadded 2 second ++
    writeFraction (t.nano % 1000000000) ++ ['Z']

/-! ## Reading -/

def isSpace (c : Char) : Bool :=
  let n := c.toNat
  (9 ≤ n && n ≤ 13) || n = 0x20 || n = 0x85 || n = 0xA0 || n = 0x1680 ||
    (0x2000 ≤ n && n ≤ 0x200A) || n = 0x2028 || n = 0x2029 || n = 0x202F || n = 0x205F || n = 0x3000

def skipSpace (cs : List Char) : List Char := cs.dropWhile isSpace

def number? (limit : Option Nat) (cs : List Char) : Option (Nat × List Char) :=
  match Numeral.run Numeral.digit? limit cs with
  | ([], _) => none
  | (ds, rest) => some (Numeral.value 10 ds, rest)

def field? (cs : List Char) : Option (Nat × List Char) := number? (some 2) (skipSpace cs)

/-- A year after blanks: up to four digits, or a sign and any number of digits. -/
def year? (cs : List Char) : Option (Int × List Char) :=
  match skipSpace cs with
  | '-' :: rest => (number? none rest).map fun (n, r) => (-(n : Int), r)
  | '+' :: rest => (number? none rest).map fun (n, r) => ((n : Int), r)
  | rest => (number? (some 4) rest).map fun (n, r) => ((n : Int), r)

def mark? (c : Char) (cs : List Char) : Option (List Char) :=
  match skipSpace cs with
  | d :: rest => if d = c then some rest else none
  | [] => none

/-- The mark between date and time of day, with no blank before it. -/
def dateEnd? : List Char → Option (List Char)
  | c :: rest => if c = 'T' ∨ c = 't' ∨ c = ' ' then some rest else none
  | [] => none

/-- Nanoseconds after a point; digits after the ninth are dropped.  No point means none. -/
def fraction? : List Char → Option (Nat × List Char)
  | '.' :: rest => match Numeral.run Numeral.digit? (some 9) rest with
    | ([], _) => none
    | (ds, rest) =>
      some (Numeral.value 10 ds * Nat.pow 10 (9 - ds.length),
        rest.dropWhile fun c => (Numeral.digit? c).isSome)
  | cs => some (0, cs)

/-- Hours and minutes of an offset, in seconds; colons and blanks may stand between. -/
def clock? : List Char → Option (Nat × List Char)
  | a :: b :: rest => do
    let hours := 10 * (← Numeral.digit? a) + (← Numeral.digit? b)
    match rest.dropWhile fun c => c = ':' || isSpace c with
    | c :: d :: rest =>
      let minutes := 10 * (← Numeral.digit? c) + (← Numeral.digit? d)
      if minutes < 60 then return (hours * 3600 + minutes * 60, rest) else none
    | _ => none
  | _ => none

/-- The offset from UTC in seconds: `Z`, the letters `UTC` in either case, or a sign and a clock
reading under a day.  U+2212 is a minus sign too. -/
def offset? : List Char → Option (Int × List Char)
  | [] => none
  | c :: rest =>
    if c = 'Z' ∨ c = 'z' then some (0, rest)
    else if c = 'U' ∨ c = 'u' then
      match rest with
      | d :: e :: rest =>
        if (d = 'T' ∨ d = 't') ∧ (e = 'C' ∨ e = 'c') then some (0, rest) else none
      | _ => none
    else if c = '+' ∨ c = '-' ∨ c = '\u2212' then do
      let (seconds, rest) ← clock? rest
      if seconds < 86400 then return (if c = '+' then (seconds : Int) else -seconds, rest) else none
    else none

/-- The moment that a date, a time of day and an offset name.  Second 60 is a leap second. -/
def ofClock? (date : Date) (hour minute second nano : Nat) (offset : Int) : Option Timestamp :=
  if date.isValid ∧ -262143 ≤ date.year ∧ date.year ≤ 262142 ∧
      hour ≤ 23 ∧ minute ≤ 59 ∧ second ≤ 60 then
    let shown := if second = 60 then 59 else second
    let nano := if second = 60 then nano + 1000000000 else nano
    let utc := (hour * 3600 + minute * 60 + shown : Nat) - offset
    ofParts? (date.toDayNumber + utc / 86400) (utc % 86400).toNat nano
  else none

/-- The moment that a text names. -/
def read? (cs : List Char) : Option Timestamp := do
  let (year, cs) ← year? cs
  let (month, cs) ← field? (← mark? '-' cs)
  let (day, cs) ← field? (← mark? '-' cs)
  let (hour, cs) ← field? (← dateEnd? cs)
  let (minute, cs) ← field? (← mark? ':' cs)
  let (second, cs) ← field? (← mark? ':' cs)
  let (nano, cs) ← fraction? cs
  let (offset, cs) ← offset? (skipSpace cs)
  if skipSpace cs = [] then ofClock? ⟨year, month, day⟩ hour minute second nano offset else none

end RequestMeter.Timestamp
