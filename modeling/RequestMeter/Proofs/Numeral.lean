import RequestMeter.Numeral
import Mathlib.Data.List.Induction
import Mathlib.Tactic.IntervalCases

/-! # Reading numerals back

What is written as digits is read as the same digits, wherever the run of digits ends: at a limit, or
before something that is no digit.  Zeros in front do not change the value.
-/
namespace RequestMeter.Numeral

/-! ## Digits -/

theorem hexDigit?_charOf {d : Nat} (h : d < 16) : hexDigit? (charOf d) = some d := by
  interval_cases d <;> rfl

/-- The number of digits is at most `width` for a number with a value below that. -/
theorem length_digits_le {base n width : Nat} (hb : 2 ≤ base) (hw : 0 < width)
    (h : n < base ^ width) : (digits base n).length ≤ width := by
  induction width generalizing n with
  | zero => omega
  | succ width ih =>
    by_cases hn : base ≤ n
    · rw [digits_of_le hb hn, List.length_append, List.length_singleton]
      have less : n / base < base ^ width :=
        Nat.div_lt_of_lt_mul (by rwa [Nat.mul_comm, ← Nat.pow_succ])
      have positive : 0 < width := by
        rcases Nat.eq_zero_or_pos width with rfl | hw
        · simp at h
          omega
        · exact hw
      have := ih positive less
      omega
    · rw [digits_of_lt (by omega)]
      simp

/-- The first digit is zero only for zero itself. -/
theorem head?_digits {base n : Nat} (hb : 2 ≤ base) (h : (digits base n).head? = some 0) : n = 0 := by
  induction n using Nat.strongRecOn with
  | ind n ih =>
    by_cases hn : base ≤ n
    · have less : n / base < n := Nat.div_lt_self (by omega) (by omega)
      have positive : 0 < n / base := Nat.div_pos hn (by omega)
      have leading : (digits base (n / base)).head? = some 0 := by
        rw [digits_of_le hb hn, List.head?_append] at h
        cases hd : digits base (n / base) with
        | nil => exact absurd hd (digits_ne_nil _ _)
        | cons d ds => simpa [hd] using h
      have := ih _ less leading
      omega
    · rw [digits_of_lt (by omega)] at h
      simpa using h

theorem lt_of_digit? {c : Char} {d : Nat} (h : digit? c = some d) : d < 10 := by
  rw [digit?, Option.ite_none_right_eq_some, Option.some.injEq] at h
  omega

/-- Digits of a base stand for less than the power with their number. -/
theorem value_lt {base : Nat} {ds : List Nat} (h : ∀ d ∈ ds, d < base) :
    value base ds < base ^ ds.length := by
  induction ds using List.reverseRecOn with
  | nil => simp [value]
  | append_singleton ds d ih =>
    have front := ih fun x hx => h x (List.mem_append_left _ hx)
    have last := h d (List.mem_append_right _ List.mem_cons_self)
    rw [value_append_singleton, List.length_append, List.length_singleton, Nat.pow_succ]
    calc value base ds * base + d < (value base ds + 1) * base := by rw [Nat.succ_mul]; omega
      _ ≤ base ^ ds.length * base := Nat.mul_le_mul_right _ front

/-! ## Zeros in front -/

theorem length_padLeft {width : Nat} {ds : List Nat} (h : ds.length ≤ width) :
    (padLeft width ds).length = width := by
  simp [padLeft]
  omega

theorem value_padLeft (base width : Nat) (ds : List Nat) :
    value base (padLeft width ds) = value base ds := by
  have zeros (n : Nat) : (List.replicate n 0).foldl (fun m d => m * base + d) 0 = 0 := by
    induction n with
    | zero => rfl
    | succ n ih => simpa [List.replicate_succ] using ih
  rw [value, padLeft, List.foldl_append, zeros, value]

theorem lt_of_mem_padLeft {base width n d : Nat} (hb : 2 ≤ base)
    (h : d ∈ padLeft width (digits base n)) : d < base := by
  rcases List.mem_append.mp h with h | h
  · rw [List.eq_of_mem_replicate h]
    omega
  · exact lt_of_mem_digits hb h

theorem padLeft_digits_ne_nil (base width n : Nat) : padLeft width (digits base n) ≠ [] :=
  List.append_ne_nil_of_right_ne_nil _ (digits_ne_nil base n)

/-! ## Runs of digits -/

theorem exists_map_charOf_append {ds : List Nat} (hn : ds ≠ []) (hd : ∀ d ∈ ds, d < 10)
    (rest : List Char) : ∃ d cs, d < 10 ∧ ds.map charOf ++ rest = charOf d :: cs := by
  cases ds with
  | nil => exact absurd rfl hn
  | cons d ds => exact ⟨d, ds.map charOf ++ rest, hd d List.mem_cons_self, rfl⟩

/-- The text does not go on with a digit. -/
def NoDigit (cs : List Char) : Prop := ∀ c ∈ cs.head?, digit? c = none

theorem noDigit_nil : NoDigit [] := fun _ h => by cases h

theorem noDigit_cons {c : Char} {cs : List Char} : NoDigit (c :: cs) ↔ digit? c = none := by
  simp [NoDigit]

theorem run_of_noDigit {limit : Option Nat} {cs : List Char} (h : NoDigit cs) :
    run digit? limit cs = ([], cs) := by
  fun_cases run digit? limit cs with
  | case1 => rfl
  | case2 => rfl
  | case3 => rfl
  | case4 _ c cs _ d hd =>
    rw [noDigit_cons.mp h] at hd
    cases hd

/-- Digits are read up to the limit, or up to something that is no digit. -/
theorem run_append {ds : List Nat} {limit : Option Nat} {rest : List Char} (hd : ∀ d ∈ ds, d < 10)
    (hl : ∀ k ∈ limit, ds.length ≤ k) (hr : limit = some ds.length ∨ NoDigit rest) :
    run digit? limit (ds.map charOf ++ rest) = (ds, rest) := by
  induction ds generalizing limit with
  | nil =>
    rcases hr with rfl | hr
    · rw [List.map_nil, List.nil_append, List.length_nil, run]
    · exact run_of_noDigit hr
  | cons d ds ih =>
    rw [List.forall_mem_cons] at hd
    have next := @ih (limit.map (· - 1)) hd.2 (by
      intro k hk
      obtain ⟨m, hm, rfl⟩ := Option.map_eq_some_iff.mp hk
      have := hl m hm
      simp only [List.length_cons] at this
      omega) (by
      refine hr.imp_left fun he => ?_
      rw [he]
      rfl)
    have positive : limit ≠ some 0 := by
      rintro rfl
      simpa using hl 0 rfl
    rw [List.map_cons, List.cons_append, run]
    · simp only [digit?_charOf hd.1, next]
    · exact positive

/-- Whatever is read, it is decimal digits, and no more of them than the limit. -/
theorem run_decimal (limit : Option Nat) (cs : List Char) :
    (∀ d ∈ (run digit? limit cs).1, d < 10) ∧ ∀ k ∈ limit, (run digit? limit cs).1.length ≤ k := by
  fun_induction run digit? limit cs with
  | case1 | case2 | case3 => simp
  | case4 limit c cs positive d hd ds rest next ih =>
    rw [next] at ih
    refine ⟨List.forall_mem_cons.mpr ⟨lt_of_digit? hd, ih.1⟩, fun k hk => ?_⟩
    have more := ih.2 (k - 1) (Option.mem_map_of_mem (· - 1) hk)
    have one : k ≠ 0 := by
      rintro rfl
      exact positive hk
    rw [List.length_cons]
    simp only at more
    omega

theorem run_decimalPadded {width n : Nat} {rest : List Char} (hw : 0 < width) (h : n < 10 ^ width) :
    run digit? (some width) (decimalPadded width n ++ rest) = (padLeft width (digits 10 n), rest) := by
  have length := length_padLeft (length_digits_le (by decide) hw h)
  apply run_append (fun _ => lt_of_mem_padLeft (by decide))
  · intro k hk
    cases hk
    exact length.le
  · exact .inl (congrArg some length.symm)

end RequestMeter.Numeral
