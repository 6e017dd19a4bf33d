import RequestMeter.Json.Read
import RequestMeter.Proofs.Json.Token

/-! # Blanks between tokens

Blanks between tokens change nothing.  A token is cut off by looking at its own characters and, at most,
at the one that comes next, and that one may as well be a blank.
-/
namespace RequestMeter.Json

/-! ## What comes next -/

/-- A text that goes on as another one does, or with a blank. -/
def Alike (r r' : List Char) : Prop := r'.head? = r.head? ∨ ∃ c ∈ r'.head?, isBlank c = true

theorem Alike.refl (r : List Char) : Alike r r := .inl rfl

theorem Alike.append {r r' : List Char} (h : Alike r r') (l : List Char) :
    Alike (l ++ r) (l ++ r') := by
  cases l with
  | nil => exact h
  | cons c l => exact .inl rfl

theorem Alike.forall_head {r r' : List Char} (h : Alike r r') {p : Char → Prop}
    (hb : ∀ c, isBlank c = true → p c) (hr : ∀ c ∈ r.head?, p c) : ∀ c ∈ r'.head?, p c := by
  rintro c hc
  rcases h with same | ⟨b, hb', blank⟩
  · exact hr c (same ▸ hc)
  · cases Option.mem_unique hb' hc
    exact hb _ blank

theorem isBlank_not_number {c : Char} (h : isBlank c = true) :
    Numeral.digit? c = none ∧ c ≠ '.' ∧ ¬ (c = 'e' ∨ c = 'E') ∧ c ≠ '+' ∧ c ≠ '-' := by
  simp only [isBlank, Bool.or_eq_true, decide_eq_true_eq] at h
  rcases h with ((rfl | rfl) | rfl) | rfl <;> decide

/-! ## Readers -/

/-- A reader that takes the same from the front of a text whatever alike comes after it. -/
def Local {α : Type} (read : List Char → Option (α × List Char)) : Prop :=
  ∀ cs a r, read cs = some (a, r) →
    ∃ l, cs = l ++ r ∧ ∀ r', Alike r r' → read (l ++ r') = some (a, r')

section
variable {α β : Type}

theorem Local.pure (a : α) : Local fun cs => some (a, cs) := by
  rintro cs _ _ ⟨⟩
  exact ⟨[], rfl, fun r' _ => rfl⟩

theorem Local.none : Local fun _ => (none : Option (α × List Char)) := by
  rintro cs a r ⟨⟩

/-- Two readers one after the other. -/
theorem Local.bind {read : List Char → Option (α × List Char)}
    {next : α → List Char → Option (β × List Char)} (h : Local read) (hn : ∀ a, Local (next a)) :
    Local fun cs => (read cs).bind fun p => next p.1 p.2 := by
  intro cs b r eq
  obtain ⟨⟨a, m⟩, first, second⟩ := Option.bind_eq_some_iff.mp eq
  obtain ⟨l, rfl, again⟩ := h cs a m first
  obtain ⟨k, rfl, after⟩ := hn a m b r second
  refine ⟨l ++ k, (List.append_assoc l k r).symm, fun r' alike => ?_⟩
  rw [List.append_assoc]
  simp only [again (k ++ r') (alike.append k), Option.bind_some, after r' alike]

theorem Local.map {read : List Char → Option (α × List Char)} (h : Local read) (f : α → β) :
    Local fun cs => (read cs).map fun p => (f p.1, p.2) := by
  intro cs b r eq
  obtain ⟨⟨a, m⟩, first, same⟩ := Option.map_eq_some_iff.mp eq
  cases same
  obtain ⟨l, rfl, again⟩ := h cs a m first
  exact ⟨l, rfl, fun r' alike => by simp only [again r' alike, Option.map_some]⟩

theorem Local.after {read whole : List Char → Option (α × List Char)} (h : Local read)
    (front : List Char) (hw : ∀ cs, whole (front ++ cs) = read cs) {cs r : List Char} {a : α}
    (eq : whole (front ++ cs) = some (a, r)) :
    ∃ l, front ++ cs = l ++ r ∧ ∀ r', Alike r r' → whole (l ++ r') = some (a, r') := by
  obtain ⟨l, rfl, again⟩ := h cs a r (hw cs ▸ eq)
  refine ⟨front ++ l, (List.append_assoc front l r).symm, fun r' alike => ?_⟩
  rw [List.append_assoc, hw]
  exact again r' alike

end

/-! ## Numbers -/

/-- A run of digits ends at the first other character. -/
theorem run_none_split (cs : List Char) :
    ∃ l, cs = l ++ (Numeral.run Numeral.digit? none cs).2 ∧
      Numeral.NoDigit (Numeral.run Numeral.digit? none cs).2 ∧
      ∀ r', Numeral.NoDigit r' → Numeral.run Numeral.digit? none (l ++ r') =
        ((Numeral.run Numeral.digit? none cs).1, r') := by
  induction cs with
  | nil => exact ⟨[], rfl, Numeral.noDigit_nil, fun r' h => Numeral.run_of_noDigit h⟩
  | cons c cs ih =>
    cases hc : Numeral.digit? c with
    | none =>
      have stop : Numeral.NoDigit (c :: cs) := Numeral.noDigit_cons.mpr hc
      rw [Numeral.run_of_noDigit stop]
      exact ⟨[], rfl, stop, fun r' h => Numeral.run_of_noDigit h⟩
    | some d =>
      have step (rest : List Char) : Numeral.run Numeral.digit? none (c :: rest) =
          (d :: (Numeral.run Numeral.digit? none rest).1, (Numeral.run Numeral.digit? none rest).2) := by
        rw [Numeral.run]
        · rw [hc]
          rfl
        · exact fun h => by cases h
      obtain ⟨l, split, stop, again⟩ := ih
      rw [step]
      refine ⟨c :: l, congrArg (c :: ·) split, stop, fun r' h => ?_⟩
      rw [List.cons_append, step, again r' h]

theorem local_someDigits : Local someDigits := by
  intro cs ds r eq
  obtain ⟨l, split, stop, again⟩ := run_none_split cs
  have digits : Numeral.run Numeral.digit? none cs = (ds, r) ∧ ds ≠ [] := by
    unfold someDigits at eq
    split at eq
    · cases eq
    · rename_i some run
      cases eq
      exact ⟨run, fun empty => some (by rw [empty])⟩
  rw [digits.1] at split stop again
  refine ⟨l, split, fun r' alike => ?_⟩
  have stop' : Numeral.NoDigit r' := alike.forall_head (fun c hb => (isBlank_not_number hb).1) stop
  rw [someDigits, again r' stop']
  cases ds with
  | nil => exact absurd rfl digits.2
  | cons d ds => rfl

theorem local_wholePart : Local wholePart := by
  have value (ds : List Nat) : Local fun cs =>
      if ds.head? = some 0 ∧ 1 < ds.length then none else some (Numeral.value 10 ds, cs) := by
    by_cases zero : ds.head? = some 0 ∧ 1 < ds.length
    · simp only [if_pos zero]
      exact .none
    · simp only [if_neg zero]
      exact .pure _
  exact local_someDigits.bind value

theorem local_fractionPart : Local fractionPart := by
  intro cs ds r eq
  by_cases point : ∃ rest, cs = '.' :: rest
  · obtain ⟨rest, rfl⟩ := point
    exact local_someDigits.after ['.'] (fun _ => rfl) eq
  · have noPoint : cs.head? ≠ some '.' := by
      intro head
      obtain ⟨rest, rfl⟩ := List.head?_eq_some_iff.mp head
      exact point ⟨rest, rfl⟩
    rw [fractionPart_of_noPoint noPoint] at eq
    cases eq
    refine ⟨[], rfl, fun r' alike => fractionPart_of_noPoint fun head => ?_⟩
    exact alike.forall_head (fun c hb => (isBlank_not_number hb).2.1)
      (fun c hc he => noPoint (he ▸ hc)) '.' head rfl

theorem exponentPart_unsigned {c : Char} {rest : List Char} (hc : c = 'e' ∨ c = 'E')
    (h : ∀ d ∈ rest.head?, d ≠ '+' ∧ d ≠ '-') : exponentPart (c :: rest) =
      (someDigits rest).map fun p => (some (Numeral.value 10 p.1 : Int), p.2) := by
  refine (if_pos hc).trans ?_
  split
  · exact absurd rfl (h _ rfl).1
  · exact absurd rfl (h _ rfl).2
  · rfl

theorem exponentPart_plus {c : Char} (hc : c = 'e' ∨ c = 'E') (rest : List Char) :
    exponentPart ([c, '+'] ++ rest) =
      (someDigits rest).map fun p => (some (Numeral.value 10 p.1 : Int), p.2) :=
  if_pos hc

theorem exponentPart_minus {c : Char} (hc : c = 'e' ∨ c = 'E') (rest : List Char) :
    exponentPart ([c, '-'] ++ rest) =
      (someDigits rest).map fun p => (some (-(Numeral.value 10 p.1 : Int)), p.2) :=
  if_pos hc

theorem local_exponentPart : Local exponentPart := by
  intro cs e r eq
  by_cases noMark : ∀ c ∈ cs.head?, ¬ (c = 'e' ∨ c = 'E')
  · have none (cs : List Char) (h : ∀ c ∈ cs.head?, ¬ (c = 'e' ∨ c = 'E')) :
        exponentPart cs = some (none, cs) :=
      exponentPart_of_noMark ⟨fun he => h _ he (.inl rfl), fun he => h _ he (.inr rfl)⟩
    rw [none cs noMark] at eq
    cases eq
    exact ⟨[], rfl, fun r' alike =>
      none r' (alike.forall_head (fun c hb => (isBlank_not_number hb).2.2.1) noMark)⟩
  · push Not at noMark
    obtain ⟨c, head, mark⟩ := noMark
    obtain ⟨rest, rfl⟩ := List.head?_eq_some_iff.mp head
    by_cases noSign : ∀ d ∈ rest.head?, d ≠ '+' ∧ d ≠ '-'
    · rw [exponentPart_unsigned mark noSign] at eq
      obtain ⟨l, rfl, again⟩ :=
        local_someDigits.map (fun ds => some (Numeral.value 10 ds : Int)) rest e r eq
      refine ⟨c :: l, rfl, fun r' alike => ?_⟩
      have noSign' := (alike.append l).forall_head (fun c hb => (isBlank_not_number hb).2.2.2) noSign
      exact (exponentPart_unsigned mark noSign').trans (again r' alike)
    · push Not at noSign
      obtain ⟨d, next, sign⟩ := noSign
      obtain ⟨rest, rfl⟩ := List.head?_eq_some_iff.mp next
      by_cases plus : d = '+'
      · subst plus
        exact (local_someDigits.map fun ds => some (Numeral.value 10 ds : Int)).after [c, '+']
          (exponentPart_plus mark) eq
      · rw [sign plus] at eq ⊢
        exact (local_someDigits.map fun ds => some (-(Numeral.value 10 ds : Int))).after [c, '-']
          (exponentPart_minus mark) eq

theorem local_unsigned (negative : Bool) : Local (unsigned negative) := by
  have number (w : Nat) (f : List Nat) (e : Option Int) :
      Local fun cs => some (Number.mk negative w f e, cs) := .pure _
  exact local_wholePart.bind fun w => local_fractionPart.bind fun f =>
    local_exponentPart.bind fun e => number w f e

/-! ## Strings and words -/

theorem units_code_of_fourHex? {a b c d : Char} {n : Nat} (h : fourHex? a b c d = some n)
    (cs : List Char) : units ('\\' :: 'u' :: a :: b :: c :: d :: cs) =
      (units cs).map fun p => (.code n :: p.1, p.2) := by
  rw [units, h]
  cases units cs <;> rfl

/-- A string ends at its quote, whatever comes after it. -/
theorem local_units : Local units := by
  intro cs us r eq
  fun_induction units cs generalizing us r with
  | case1 => cases eq
  | case2 rest =>
    cases eq
    exact ⟨['"'], rfl, fun r' _ => by rw [List.cons_append, List.nil_append, units]⟩
  | case3 a b c d rest ih =>
    obtain ⟨n, code, eq⟩ := Option.bind_eq_some_iff.mp eq
    obtain ⟨⟨vs, q⟩, units, same⟩ := Option.bind_eq_some_iff.mp eq
    cases same
    obtain ⟨l, rfl, again⟩ := ih vs r units
    refine ⟨'\\' :: 'u' :: a :: b :: c :: d :: l, rfl, fun r' alike => ?_⟩
    simp only [List.cons_append, units_code_of_fourHex? code, again r' alike, Option.map_some]
  | case4 e rest _ ih =>
    obtain ⟨c, short, eq⟩ := Option.bind_eq_some_iff.mp eq
    obtain ⟨⟨vs, q⟩, units, same⟩ := Option.bind_eq_some_iff.mp eq
    cases same
    obtain ⟨l, rfl, again⟩ := ih vs r units
    have noCode : e ≠ 'u' := by
      rintro rfl
      cases short
    refine ⟨'\\' :: e :: l, rfl, fun r' alike => ?_⟩
    simp only [List.cons_append, units_short noCode short, again r' alike, Option.map_some]
  | case5 => cases eq
  | case6 c rest noQuote _ _ plain ih =>
    obtain ⟨⟨vs, q⟩, units, same⟩ := Option.bind_eq_some_iff.mp eq
    cases same
    obtain ⟨l, rfl, again⟩ := ih vs r units
    rw [not_or] at plain
    refine ⟨c :: l, rfl, fun r' alike => ?_⟩
    simp only [List.cons_append, units_plain noQuote plain.2 (Nat.le_of_not_lt plain.1),
      again r' alike, Option.map_some]

theorem word?_eq_some_iff {word cs r : List Char} : word? word cs = some r ↔ cs = word ++ r := by
  fun_induction word? word cs with
  | case1 cs => simp
  | case2 word cs c ih => simp [ih]
  | case3 w word c cs h => simp [Ne.symm h]
  | case4 => simp

theorem local_keyword (t : Token) (word : List Char) : Local (keyword t word) := by
  intro cs _ r eq
  obtain ⟨r, rest, same⟩ := Option.map_eq_some_iff.mp eq
  cases same
  refine ⟨word, word?_eq_some_iff.mp rest, fun r' _ => ?_⟩
  rw [keyword, word?_eq_some_iff.mpr rfl, Option.map_some]

/-! ## Tokens -/

theorem Local.lexeme {α : Type} {read : List Char → Option (α × List Char)} (h : Local read)
    (f : α → Token) : Local fun cs => lexeme f (read cs) := h.map f

/-- Whatever starts with no other token is taken for a number. -/
theorem token?_number {c : Char} (hm : mark? c = none)
    (hc : c ≠ 'n' ∧ c ≠ 't' ∧ c ≠ 'f' ∧ c ≠ '"' ∧ c ≠ '-') (cs : List Char) :
    token? c cs = lexeme .number (unsigned false (c :: cs)) := by
  unfold token?
  rw [hm]
  dsimp only
  split <;> simp_all

/-- A token is cut off by its own characters and the first one after it. -/
theorem local_token? (c : Char) : Local (token? c) := by
  cases hm : mark? c with
  | some t =>
    have mark : token? c = fun cs => some (t, cs) := by
      funext cs
      unfold token?
      rw [hm]
    rw [mark]
    exact .pure t
  | none =>
    by_cases hc : c ≠ 'n' ∧ c ≠ 't' ∧ c ≠ 'f' ∧ c ≠ '"' ∧ c ≠ '-'
    · intro cs t r eq
      rw [token?_number hm hc] at eq
      obtain ⟨l, split, again⟩ := (local_unsigned false).lexeme .number (c :: cs) t r eq
      -- the number has a digit, so it is the character that is taken first
      obtain ⟨n, number⟩ := lexeme_eq_some eq
      cases l with
      | nil =>
        have := unsigned_length number
        rw [split] at this
        exact absurd this (Nat.lt_irrefl _)
      | cons d l =>
        cases split
        exact ⟨l, rfl, fun r' alike => (token?_number hm hc (l ++ r')).trans (again r' alike)⟩
    · have first : c = 'n' ∨ c = 't' ∨ c = 'f' ∨ c = '"' ∨ c = '-' := by
        simpa only [← not_or, Classical.not_not] using hc
      rcases first with rfl | rfl | rfl | rfl | rfl
      · exact local_keyword .null ['u', 'l', 'l']
      · exact local_keyword (.bool true) ['r', 'u', 'e']
      · exact local_keyword (.bool false) ['a', 'l', 's', 'e']
      · exact local_units.lexeme fun us => .string ((text us).map String.ofList)
      · exact (local_unsigned true).lexeme .number

theorem token?_append {c : Char} {l r r' : List Char} {t : Token}
    (h : token? c (l ++ r) = some (t, r)) (alike : Alike r r') :
    token? c (l ++ r') = some (t, r') := by
  obtain ⟨k, split, again⟩ := local_token? c _ t r h
  rw [List.append_cancel_right split]
  exact again r' alike

/-! ## Texts -/

/-- The second text is the first one with blanks put in between tokens, up to some place. -/
inductive Spread : List Char → List Char → Prop where
  | same (cs : List Char) : Spread cs cs
  | insert {c : Char} {cs ds : List Char} (blank : isBlank c = true) (h : Spread cs ds) :
    Spread cs (c :: ds)
  | blank {c : Char} {cs ds : List Char} (blank : isBlank c = true) (h : Spread cs ds) :
    Spread (c :: cs) (c :: ds)
  | token {c : Char} {l r ds : List Char} {t : Token} (cut : token? c (l ++ r) = some (t, r))
    (h : Spread r ds) : Spread (c :: (l ++ r)) (c :: (l ++ ds))

theorem Spread.alike {cs ds : List Char} (h : Spread cs ds) : Alike cs ds := by
  cases h with
  | same => exact .refl cs
  | insert blank => exact .inr ⟨_, rfl, blank⟩
  | blank => exact .inl rfl
  | token => exact .inl rfl

/-- Blanks put in between tokens change no token. -/
theorem Spread.tokens_eq {cs ds : List Char} (h : Spread cs ds) : tokens ds = tokens cs := by
  induction h with
  | same => rfl
  | insert blank _ ih => rw [tokens_of_isBlank blank, ih]
  | blank blank _ ih => rw [tokens_of_isBlank blank, tokens_of_isBlank blank, ih]
  | token cut spread ih =>
    rw [tokens_of_token? cut, tokens_of_token? (token?_append cut spread.alike), ih]

theorem Spread.parse?_eq {s s' : String} (h : Spread s.toList s'.toList) : parse? s' = parse? s := by
  rw [parse?, parse?, h.tokens_eq]

end RequestMeter.Json
