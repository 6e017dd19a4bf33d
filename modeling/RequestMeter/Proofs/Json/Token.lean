import RequestMeter.Json.Write
import RequestMeter.Proofs.Numeral
import RequestMeter.Json.Token

/-! # Written tokens

A string, a number, a word or a mark that was written is cut from the front of a text as the token that
it stands for.  Only a number has to be followed by something that does not go on with it.
-/
namespace RequestMeter.Json

/-! ## Tokens one by one -/

@[simp] theorem tokens_nil : tokens [] = [] := by rw [tokens]

/-- A blank starts no token. -/
theorem token?_of_isBlank {c : Char} (h : isBlank c = true) (cs : List Char) : token? c cs = none := by
  simp only [isBlank, Bool.or_eq_true, decide_eq_true_eq] at h
  rcases h with ((rfl | rfl) | rfl) | rfl <;> rfl

theorem tokens_of_isBlank {c : Char} (h : isBlank c = true) (cs : List Char) :
    tokens (c :: cs) = tokens cs := by
  rw [tokens, if_pos h]

theorem tokens_of_token? {c : Char} {cs r : List Char} {t : Token} (h : token? c cs = some (t, r)) :
    tokens (c :: cs) = t :: tokens r := by
  have solid : ¬ isBlank c = true := by
    intro blank
    rw [token?_of_isBlank blank] at h
    cases h
  rw [tokens, if_neg solid]
  split
  · rename_i none
    rw [none] at h
    cases h
  · rename_i t' r' some
    rw [some] at h
    cases h
    rfl

theorem tokens_of_mark? {c : Char} {t : Token} (h : mark? c = some t) (cs : List Char) :
    tokens (c :: cs) = t :: tokens cs := by
  apply tokens_of_token?
  unfold token?
  rw [h]

/-! ## Strings -/

/-- The controls with an escape of their own. -/
def isShort (c : Char) : Bool := c = '\x08' || c = '\t' || c = '\n' || c = '\x0c' || c = '\r'

def unitOf (c : Char) : Unit16 :=
  if c.toNat < 0x20 ∧ isShort c = false then .code c.toNat else .char c

theorem fourHex?_map_charOf {a b c d : Nat} (ha : a < 16) (hb : b < 16) (hc : c < 16) (hd : d < 16) :
    fourHex? (Numeral.charOf a) (Numeral.charOf b) (Numeral.charOf c) (Numeral.charOf d) =
      some (Numeral.value 16 [a, b, c, d]) := by
  simp [fourHex?, Numeral.hexDigit?_charOf, ha, hb, hc, hd]

/-- Four hexadecimal digits with zeros in front are read as the number. -/
theorem units_code {n : Nat} (h : n < 16 ^ 4) (cs : List Char) :
    units ('\\' :: 'u' :: Numeral.hexadecimalPadded 4 n ++ cs) =
      (units cs).map fun p => (.code n :: p.1, p.2) := by
  have length := Numeral.length_padLeft (Numeral.length_digits_le (by decide) (by decide) h)
  have small : ∀ d ∈ Numeral.padLeft 4 (Numeral.digits 16 n), d < 16 :=
    fun _ => Numeral.lt_of_mem_padLeft (by decide)
  have value : Numeral.value 16 (Numeral.padLeft 4 (Numeral.digits 16 n)) = n := by
    rw [Numeral.value_padLeft, Numeral.value_digits (by decide)]
  rw [Numeral.hexadecimalPadded]
  match hds : Numeral.padLeft 4 (Numeral.digits 16 n), length with
  | [a, b, c, d], _ =>
    rw [hds] at small value
    simp only [List.forall_mem_cons] at small
    obtain ⟨ha, hb, hc, hd, -⟩ := small
    simp only [List.map_cons, List.map_nil, List.cons_append, List.nil_append]
    rw [units]
    simp only [fourHex?_map_charOf ha hb hc hd, value]
    cases units cs <;> rfl

theorem units_short {e c : Char} (hu : e ≠ 'u') (h : shortEscape? e = some c) (cs : List Char) :
    units ('\\' :: e :: cs) = (units cs).map fun p => (.char c :: p.1, p.2) := by
  rw [units]
  · rw [h]
    cases units cs <;> rfl
  · rintro _ _ _ _ _ rfl
    exact absurd rfl hu

theorem units_plain {c : Char} (hq : c ≠ '"') (hb : c ≠ '\\') (h : 0x20 ≤ c.toNat) (cs : List Char) :
    units (c :: cs) = (units cs).map fun p => (.char c :: p.1, p.2) := by
  have plain : ¬ (c.toNat < 0x20 ∨ c = '\\') := by
    rintro (less | same)
    · omega
    · exact hb same
  rw [units]
  · rw [if_neg plain]
    cases units cs <;> rfl
  · exact hq
  · exact fun _ _ _ _ _ he => absurd he hb
  · exact fun _ _ he => absurd he hb

theorem units_escape (c : Char) (cs : List Char) :
    units (escape c ++ cs) = (units cs).map fun p => (unitOf c :: p.1, p.2) := by
  unfold escape
  split_ifs with quote backslash h8 h9 h10 h12 h13 control
  · subst quote
    exact units_short (by decide) rfl cs
  · subst backslash
    exact units_short (by decide) rfl cs
  · subst h8
    exact units_short (by decide) rfl cs
  · subst h9
    exact units_short (by decide) rfl cs
  · subst h10
    exact units_short (by decide) rfl cs
  · subst h12
    exact units_short (by decide) rfl cs
  · subst h13
    exact units_short (by decide) rfl cs
  · have code : unitOf c = .code c.toNat := by
      simp [unitOf, isShort, control, h8, h9, h10, h12, h13]
    rw [code]
    exact units_code (by omega) cs
  · have char : unitOf c = .char c := by
      simp only [unitOf, control, false_and, if_false]
    rw [char]
    exact units_plain quote backslash (by omega) cs

theorem units_flatMap_escape (s rest : List Char) :
    units (s.flatMap escape ++ '"' :: rest) = some (s.map unitOf, rest) := by
  induction s with
  | nil => rw [List.flatMap_nil, List.nil_append, units, List.map_nil]
  | cons c s ih =>
    rw [List.flatMap_cons, List.append_assoc, units_escape, ih]
    rfl

theorem text_unitOf (c : Char) (us : List Unit16) :
    text (unitOf c :: us) = (text us).map (c :: ·) := by
  unfold unitOf
  split
  · rename_i control
    rw [text.eq_def]
    simp only
    rw [if_neg (by omega), if_neg (by omega), Char.ofNat_toNat]
  · rw [text]

theorem text_map_unitOf (s : List Char) : text (s.map unitOf) = some s := by
  induction s with
  | nil => rw [List.map_nil, text]
  | cons c s ih =>
    rw [List.map_cons, text_unitOf, ih]
    rfl

theorem token?_quote (cs : List Char) :
    token? '"' cs = lexeme (fun us => .string ((text us).map String.ofList)) (units cs) := rfl

/-- A written string is cut off as its text, and one without text as none. -/
theorem tokens_writeText (s : Text) (rest : List Char) :
    tokens (writeText s ++ rest) = .string s :: tokens rest := by
  cases s with
  | none =>
    have half : units ('\\' :: 'u' :: 'd' :: '8' :: '0' :: '0' :: '"' :: rest) =
        some ([.code 0xD800], rest) := by
      simp [units, fourHex?, Numeral.hexDigit?, Numeral.value]
    apply tokens_of_token?
    change token? '"' ('\\' :: 'u' :: 'd' :: '8' :: '0' :: '0' :: '"' :: rest) = _
    rw [token?_quote, half]
    rfl
  | some s =>
    have literal : writeText (some s) ++ rest = '"' :: (s.toList.flatMap escape ++ '"' :: rest) := by
      simp [writeText]
    rw [literal]
    apply tokens_of_token?
    rw [token?_quote, units_flatMap_escape]
    simp only [lexeme, Option.map_some, text_map_unitOf, String.ofList_toList]

/-! ## Numbers -/

/-- A text that cannot go on with a number. -/
structure NoNumber (cs : List Char) : Prop where
  noDigit : Numeral.NoDigit cs
  noPoint : cs.head? ≠ some '.'
  noMark : cs.head? ≠ some 'e' ∧ cs.head? ≠ some 'E'

theorem someDigits_map_charOf {ds : List Nat} {rest : List Char} (hd : ∀ d ∈ ds, d < 10)
    (hn : ds ≠ []) (hr : Numeral.NoDigit rest) :
    someDigits (ds.map Numeral.charOf ++ rest) = some (ds, rest) := by
  rw [someDigits, Numeral.run_append hd (fun _ h => by cases h) (.inr hr)]
  cases ds with
  | nil => exact absurd rfl hn
  | cons d ds => rfl

theorem wholePart_decimal {n : Nat} {rest : List Char} (hr : Numeral.NoDigit rest) :
    wholePart (Numeral.decimal n ++ rest) = some (n, rest) := by
  have digits : someDigits (Numeral.decimal n ++ rest) = some (Numeral.digits 10 n, rest) :=
    someDigits_map_charOf (fun _ => Numeral.lt_of_mem_digits (by decide))
      (Numeral.digits_ne_nil 10 n) hr
  have plain : ¬ ((Numeral.digits 10 n).head? = some 0 ∧ 1 < (Numeral.digits 10 n).length) := by
    rintro ⟨zero, long⟩
    rw [Numeral.head?_digits (by decide) zero, Numeral.digits_of_lt (by decide)] at long
    exact absurd long (by decide)
  simp only [wholePart, digits, Option.bind_eq_bind, Option.bind_some, if_neg plain,
    Numeral.value_digits (show 2 ≤ 10 by decide), Option.pure_def]

def writeFraction (ds : List Nat) : List Char :=
  if ds = [] then [] else '.' :: ds.map Numeral.charOf

def writeExponent : Option Int → List Char
  | none => []
  | some e => 'e' :: (if e < 0 then '-' else '+') :: Numeral.decimal e.natAbs

theorem writeNumber_eq (n : Number) :
    writeNumber n = (if n.negative then ['-'] else []) ++
      (Numeral.decimal n.whole ++ (writeFraction n.fraction ++ writeExponent n.exponent)) := by
  rw [writeNumber, writeFraction, List.append_assoc, List.append_assoc]
  cases n.exponent <;> rfl

theorem fractionPart_of_noPoint {cs : List Char} (h : cs.head? ≠ some '.') :
    fractionPart cs = some ([], cs) := by
  cases cs with
  | nil => rfl
  | cons c cs =>
    rw [fractionPart]
    rintro _ he
    cases he
    exact h rfl

theorem fractionPart_writeFraction {ds : List Nat} {rest : List Char} (hd : ∀ d ∈ ds, d < 10)
    (hr : Numeral.NoDigit rest) (hp : rest.head? ≠ some '.') :
    fractionPart (writeFraction ds ++ rest) = some (ds, rest) := by
  unfold writeFraction
  split
  · rename_i empty
    subst empty
    exact fractionPart_of_noPoint hp
  · rename_i some
    exact someDigits_map_charOf hd some hr

theorem exponentPart_of_noMark {cs : List Char}
    (h : cs.head? ≠ some 'e' ∧ cs.head? ≠ some 'E') : exponentPart cs = some (none, cs) := by
  cases cs with
  | nil => rfl
  | cons c cs =>
    unfold exponentPart
    exact if_neg (by simpa using h)

theorem exponentPart_writeExponent {e : Option Int} {rest : List Char} (hr : NoNumber rest) :
    exponentPart (writeExponent e ++ rest) = some (e, rest) := by
  cases e with
  | none => exact exponentPart_of_noMark hr.noMark
  | some e =>
    have digits : someDigits (Numeral.decimal e.natAbs ++ rest) =
        some (Numeral.digits 10 e.natAbs, rest) :=
      someDigits_map_charOf (fun _ => Numeral.lt_of_mem_digits (by decide))
        (Numeral.digits_ne_nil 10 _) hr.noDigit
    by_cases negative : e < 0
    · have value : -((Numeral.value 10 (Numeral.digits 10 e.natAbs) : Nat) : Int) = e := by
        rw [Numeral.value_digits (by decide)]
        omega
      simp [writeExponent, exponentPart, negative, digits, value]
    · have value : ((Numeral.value 10 (Numeral.digits 10 e.natAbs) : Nat) : Int) = e := by
        rw [Numeral.value_digits (by decide)]
        omega
      simp [writeExponent, exponentPart, negative, digits, value]

theorem noDigit_writeExponent {e : Option Int} {rest : List Char} (hr : Numeral.NoDigit rest) :
    Numeral.NoDigit (writeExponent e ++ rest) := by
  cases e with
  | none => exact hr
  | some e => exact Numeral.noDigit_cons.mpr (by decide)

theorem noDigit_writeFraction {ds : List Nat} {rest : List Char} (hr : Numeral.NoDigit rest) :
    Numeral.NoDigit (writeFraction ds ++ rest) := by
  unfold writeFraction
  split
  · exact hr
  · exact Numeral.noDigit_cons.mpr (by decide)

theorem noPoint_writeExponent {e : Option Int} {rest : List Char} (hr : rest.head? ≠ some '.') :
    (writeExponent e ++ rest).head? ≠ some '.' := by
  cases e with
  | none => exact hr
  | some e => exact fun he => absurd (Option.some.inj he) (by decide)

/-- What is written after the sign is read as the number. -/
theorem unsigned_write {n : Number} (h : ∀ d ∈ n.fraction, d < 10) {rest : List Char}
    (hr : NoNumber rest) :
    unsigned n.negative
      (Numeral.decimal n.whole ++ (writeFraction n.fraction ++ (writeExponent n.exponent ++ rest))) =
      some (n, rest) := by
  have exponent := noDigit_writeExponent (e := n.exponent) hr.noDigit
  have point := noPoint_writeExponent (e := n.exponent) hr.noPoint
  rw [unsigned, wholePart_decimal (noDigit_writeFraction exponent)]
  simp only [Option.bind_eq_bind, Option.bind_some, fractionPart_writeFraction h exponent point,
    exponentPart_writeExponent hr, Option.pure_def]

theorem token?_minus (cs : List Char) : token? '-' cs = lexeme .number (unsigned true cs) := rfl

theorem token?_charOf {d : Nat} (h : d < 10) (cs : List Char) :
    token? (Numeral.charOf d) cs =
      lexeme .number (unsigned false (Numeral.charOf d :: cs)) := by
  interval_cases d <;> rfl

/-- A written number is cut off where the text cannot go on with it. -/
theorem tokens_writeNumber {n : Number} (h : ∀ d ∈ n.fraction, d < 10) {rest : List Char}
    (hr : NoNumber rest) : tokens (writeNumber n ++ rest) = .number n :: tokens rest := by
  have read := unsigned_write h hr
  have literal : writeNumber n ++ rest = (if n.negative then ['-'] else []) ++
      (Numeral.decimal n.whole ++ (writeFraction n.fraction ++ (writeExponent n.exponent ++ rest))) := by
    simp [writeNumber_eq]
  rw [literal]
  cases negative : n.negative with
  | true =>
    rw [negative] at read
    apply tokens_of_token?
    change token? '-' (Numeral.decimal n.whole ++ _) = _
    rw [token?_minus, read]
    rfl
  | false =>
    rw [negative] at read
    obtain ⟨d, cs, hd, head⟩ := Numeral.exists_map_charOf_append (Numeral.digits_ne_nil 10 n.whole)
      (fun _ => Numeral.lt_of_mem_digits (by decide))
      (writeFraction n.fraction ++ (writeExponent n.exponent ++ rest))
    change tokens (Numeral.decimal n.whole ++ _) = _
    rw [Numeral.decimal, head] at read ⊢
    apply tokens_of_token?
    rw [token?_charOf hd, read]
    rfl

end RequestMeter.Json
