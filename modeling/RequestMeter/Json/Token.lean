import RequestMeter.Json.Basic
import RequestMeter.Numeral

/-! # JSON tokens

A text is cut into tokens, blanks between them dropped.  Where no token can be cut the list ends
with `Token.fault`, so a reader that stops earlier never notices the fault.
-/
namespace RequestMeter.Json

inductive Token where
  | openBrace
  | closeBrace
  | openBracket
  | closeBracket
  | colon
  | comma
  | null
  | bool (b : Bool)
  | number (n : Number)
  | string (s : Text)
  /-- No token starts here. -/
  | fault
  deriving DecidableEq, Repr

def isBlank (c : Char) : Bool := c = ' ' || c = '\t' || c = '\n' || c = '\r'

/-! ## Strings -/

/-- One unit of a string literal: a character, or an escape for a UTF-16 unit. -/
inductive Unit16 where
  | char (c : Char)
  | code (n : Nat)
  deriving DecidableEq, Repr

def shortEscape? : Char → Option Char
  | '"' => some '"'
  | '\\' => some '\\'
  | '/' => some '/'
  | 'b' => some '\x08'
  | 'f' => some '\x0c'
  | 'n' => some '\n'
  | 'r' => some '\r'
  | 't' => some '\t'
  | _ => none

def fourHex? (a b c d : Char) : Option Nat := do
  let ds ← [a, b, c, d].mapM Numeral.hexDigit?
  return Numeral.value 16 ds

/-- The units up to the closing quote, and what follows it.  A control character, a bad escape and
the end of the text are no units. -/
def units : List Char → Option (List Unit16 × List Char)
  | [] => none
  | '"' :: rest => some ([], rest)
  | '\\' :: 'u' :: a :: b :: c :: d :: rest => do
    let n ← fourHex? a b c d
    let (us, r) ← units rest
    return (.code n :: us, r)
  | '\\' :: e :: rest => do
    let c ← shortEscape? e
    let (us, r) ← units rest
    return (.char c :: us, r)
  | c :: rest =>
    if c.toNat < 0x20 ∨ c = '\\' then none
    else do
      let (us, r) ← units rest
      return (.char c :: us, r)

/-- The text of the units: a high surrogate and a low one after it are one character, and either
alone is none. -/
def text : List Unit16 → Option (List Char)
  | [] => some []
  | .char c :: us => (text us).map (c :: ·)
  | .code n :: us =>
    if 0xD800 ≤ n ∧ n < 0xDC00 then
      match us with
      | .code m :: vs =>
        if 0xDC00 ≤ m ∧ m < 0xE000 then
          (text vs).map (Char.ofNat (0x10000 + (n - 0xD800) * 0x400 + (m - 0xDC00)) :: ·)
        else none
      | _ => none
    else if 0xDC00 ≤ n ∧ n < 0xE000 then none
    else (text us).map (Char.ofNat n :: ·)

/-! ## Numbers -/

def someDigits (cs : List Char) : Option (List Nat × List Char) :=
  match Numeral.run Numeral.digit? none cs with
  | ([], _) => none
  | (ds, rest) => some (ds, rest)

/-- The whole part: a zero with no digit after it, or digits that start with no zero. -/
def wholePart (cs : List Char) : Option (Nat × List Char) := do
  let (ds, rest) ← someDigits cs
  if ds.head? = some 0 ∧ 1 < ds.length then none else return (Numeral.value 10 ds, rest)

def fractionPart : List Char → Option (List Nat × List Char)
  | '.' :: rest => someDigits rest
  | cs => some ([], cs)

def exponentPart : List Char → Option (Option Int × List Char)
  | [] => some (none, [])
  | c :: rest =>
    if c = 'e' ∨ c = 'E' then
      match rest with
      | '+' :: r => (someDigits r).map fun (ds, q) => (some (Numeral.value 10 ds : Int), q)
      | '-' :: r => (someDigits r).map fun (ds, q) => (some (-(Numeral.value 10 ds : Int)), q)
      | r => (someDigits r).map fun (ds, q) => (some (Numeral.value 10 ds : Int), q)
    else some (none, c :: rest)

def unsigned (negative : Bool) (cs : List Char) : Option (Number × List Char) := do
  let (whole, cs) ← wholePart cs
  let (fraction, cs) ← fractionPart cs
  let (exponent, cs) ← exponentPart cs
  return (⟨negative, whole, fraction, exponent⟩, cs)

/-! ## Tokens -/

def word? : List Char → List Char → Option (List Char)
  | [], cs => some cs
  | w :: ws, c :: cs => if w = c then word? ws cs else none
  | _ :: _, [] => none

def mark? : Char → Option Token
  | '\x7b' => some .openBrace
  | '\x7d' => some .closeBrace
  | '[' => some .openBracket
  | ']' => some .closeBracket
  | ':' => some .colon
  | ',' => some .comma
  | _ => none

def lexeme {α : Type} (f : α → Token) (part : Option (α × List Char)) :
    Option (Token × List Char) := part.map fun (a, rest) => (f a, rest)

def keyword (t : Token) (word cs : List Char) : Option (Token × List Char) :=
  (word? word cs).map (t, ·)

/-- The token that starts with `c` and goes on in `cs`, and what follows it. -/
def token? (c : Char) (cs : List Char) : Option (Token × List Char) :=
  match mark? c with
  | some t => some (t, cs)
  | none => match c with
    | 'n' => keyword .null ['u', 'l', 'l'] cs
    | 't' => keyword (.bool true) ['r', 'u', 'e'] cs
    | 'f' => keyword (.bool false) ['a', 'l', 's', 'e'] cs
    | '"' => lexeme (fun us => .string ((text us).map String.ofList)) (units cs)
    | '-' => lexeme .number (unsigned true cs)
    | _ => lexeme .number (unsigned false (c :: cs))

/-! ## What is left is shorter -/

theorem units_length {cs r : List Char} {us : List Unit16} (h : units cs = some (us, r)) :
    r.length < cs.length := by
  fun_induction units cs generalizing us r with
  | case1 => simp at h
  | case2 rest => simp at h; simp [h]
  | case3 a b c d rest ih =>
    simp only [Option.bind_eq_bind, Option.bind_eq_some_iff, Option.pure_def, Option.some.injEq,
      Prod.mk.injEq] at h
    obtain ⟨n, _, ⟨vs, q⟩, hq, _, rfl⟩ := h
    have := ih hq
    simp; omega
  | case4 e rest _ ih =>
    simp only [Option.bind_eq_bind, Option.bind_eq_some_iff, Option.pure_def, Option.some.injEq,
      Prod.mk.injEq] at h
    obtain ⟨n, _, ⟨vs, q⟩, hq, _, rfl⟩ := h
    have := ih hq
    simp; omega
  | case5 => simp at h
  | case6 c rest _ _ _ _ ih =>
    simp only [Option.bind_eq_bind, Option.bind_eq_some_iff, Option.pure_def, Option.some.injEq,
      Prod.mk.injEq] at h
    obtain ⟨⟨vs, q⟩, hq, _, rfl⟩ := h
    have := ih hq
    simp; omega

theorem someDigits_length {cs r : List Char} {ds : List Nat} (h : someDigits cs = some (ds, r)) :
    r.length < cs.length := by
  unfold someDigits at h
  split at h
  · simp at h
  · rename_i ds' rest hne hrun
    simp only [Option.some.injEq, Prod.mk.injEq] at h
    obtain ⟨rfl, rfl⟩ := h
    have := Numeral.run_length Numeral.digit? none cs
    rw [hrun] at this
    cases ds' with
    | nil => exact (hne rfl).elim
    | cons d ds => simp at this; omega

theorem wholePart_length {cs r : List Char} {n : Nat} (h : wholePart cs = some (n, r)) :
    r.length < cs.length := by
  simp only [wholePart, Option.bind_eq_bind, Option.bind_eq_some_iff] at h
  obtain ⟨⟨ds, q⟩, hq, h⟩ := h
  split at h
  · simp at h
  · simp at h; exact h.2 ▸ someDigits_length hq

theorem fractionPart_length {cs r : List Char} {ds : List Nat}
    (h : fractionPart cs = some (ds, r)) : r.length ≤ cs.length := by
  unfold fractionPart at h
  split at h
  · have := someDigits_length h; simp; omega
  · simp at h; simp [h]

theorem exponentPart_length {cs r : List Char} {e : Option Int}
    (h : exponentPart cs = some (e, r)) : r.length ≤ cs.length := by
  unfold exponentPart at h
  split at h
  · simp at h; simp [h]
  · split at h
    · split at h <;>
        (simp only [Option.map_eq_some_iff, Prod.mk.injEq] at h
         obtain ⟨⟨ds, q⟩, hq, _, rfl⟩ := h
         have := someDigits_length hq
         simp only [List.length_cons] at *
         omega)
    · simp at h; simp [h]

theorem unsigned_length {negative : Bool} {cs r : List Char} {n : Number}
    (h : unsigned negative cs = some (n, r)) : r.length < cs.length := by
  simp only [unsigned, Option.bind_eq_bind, Option.bind_eq_some_iff, Option.pure_def,
    Option.some.injEq, Prod.mk.injEq] at h
  obtain ⟨⟨w, cs₁⟩, h₁, ⟨f, cs₂⟩, h₂, ⟨e, cs₃⟩, h₃, _, rfl⟩ := h
  have := wholePart_length h₁
  have := fractionPart_length h₂
  have := exponentPart_length h₃
  simp only at *
  omega

theorem word?_length {ws cs r : List Char} (h : word? ws cs = some r) : r.length ≤ cs.length := by
  fun_induction word? ws cs with
  | case1 => simp at h; simp [h]
  | case2 ws cs c ih => have := ih h; simp; omega
  | case3 => simp at h
  | case4 => simp at h

theorem keyword_length {t u : Token} {word cs r : List Char}
    (h : keyword t word cs = some (u, r)) : r.length ≤ cs.length := by
  obtain ⟨q, hq, he⟩ := Option.map_eq_some_iff.mp h
  cases he
  exact word?_length hq

theorem lexeme_eq_some {α : Type} {f : α → Token} {part : Option (α × List Char)} {t : Token}
    {r : List Char} (h : lexeme f part = some (t, r)) : ∃ a, part = some (a, r) := by
  obtain ⟨⟨a, q⟩, hq, he⟩ := Option.map_eq_some_iff.mp h
  cases he
  exact ⟨a, hq⟩

theorem token?_length {c : Char} {cs r : List Char} {t : Token} (h : token? c cs = some (t, r)) :
    r.length ≤ cs.length := by
  unfold token? at h
  split at h
  · cases h
    exact Nat.le_refl _
  · split at h
    · exact keyword_length h
    · exact keyword_length h
    · exact keyword_length h
    · obtain ⟨us, hu⟩ := lexeme_eq_some h
      exact Nat.le_of_lt (units_length hu)
    · obtain ⟨n, hn⟩ := lexeme_eq_some h
      exact Nat.le_of_lt (unsigned_length hn)
    · obtain ⟨n, hn⟩ := lexeme_eq_some h
      exact Nat.le_of_lt_succ (unsigned_length hn)

/-- The tokens of a text, up to the first place where none starts. -/
def tokens : List Char → List Token
  | [] => []
  | c :: cs =>
    if isBlank c then tokens cs
    else match h : token? c cs with
      | none => [.fault]
      | some (t, r) =>
        have := token?_length h
        t :: tokens r
termination_by cs => cs.length

end RequestMeter.Json
