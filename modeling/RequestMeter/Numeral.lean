/-! # Numerals

Digits, and natural numbers written with them.  A numeral is a list of digits, the leading one
first; reading skips nothing and leaves what follows the last digit.
-/
namespace RequestMeter.Numeral

/-- The character of a digit; ten and above are the small letters from `a`. -/
def charOf (d : Nat) : Char :=
  if d < 10 then Char.ofNat (d + 48) else Char.ofNat (d + 87)

def digit? (c : Char) : Option Nat :=
  if 48 ≤ c.toNat ∧ c.toNat ≤ 57 then some (c.toNat - 48) else none

def hexDigit? (c : Char) : Option Nat :=
  if 48 ≤ c.toNat ∧ c.toNat ≤ 57 then some (c.toNat - 48)
  else if 97 ≤ c.toNat ∧ c.toNat ≤ 102 then some (c.toNat - 87)
  else if 65 ≤ c.toNat ∧ c.toNat ≤ 70 then some (c.toNat - 55)
  else none

def value (base : Nat) (ds : List Nat) : Nat := ds.foldl (fun n d => n * base + d) 0

/-- The digits of a number, none of them a leading zero unless the number is zero. -/
def digits (base : Nat) (n : Nat) : List Nat :=
  if _h : 2 ≤ base ∧ base ≤ n then
    digits base (n / base) ++ [n % base]
  else [n]
termination_by n
decreasing_by exact Nat.div_lt_self (by omega) (by omega)

def padLeft (width : Nat) (ds : List Nat) : List Nat :=
  List.replicate (width - ds.length) 0 ++ ds

def decimal (n : Nat) : List Char := (digits 10 n).map charOf

def decimalPadded (width n : Nat) : List Char := (padLeft width (digits 10 n)).map charOf

def hexadecimal (n : Nat) : List Char := (digits 16 n).map charOf

def hexadecimalPadded (width n : Nat) : List Char := (padLeft width (digits 16 n)).map charOf

/-- The longest run of digits at the front, at most `limit` of them when a limit is given, and what
follows it. -/
def run (digitOf : Char → Option Nat) : Option Nat → List Char → List Nat × List Char
  | some 0, cs => ([], cs)
  | _, [] => ([], [])
  | limit, c :: cs => match digitOf c with
    | none => ([], c :: cs)
    | some d =>
      let (ds, rest) := run digitOf (limit.map (· - 1)) cs
      (d :: ds, rest)

/-! ## Laws -/

theorem digits_of_lt {base n : Nat} (h : n < base) : digits base n = [n] := by
  rw [digits, dif_neg (by omega)]

theorem digits_of_le {base n : Nat} (hb : 2 ≤ base) (h : base ≤ n) :
    digits base n = digits base (n / base) ++ [n % base] := by
  rw [digits, dif_pos ⟨hb, h⟩]

theorem value_append_singleton (base : Nat) (ds : List Nat) (d : Nat) :
    value base (ds ++ [d]) = value base ds * base + d := by simp [value]

theorem value_digits {base : Nat} (hb : 2 ≤ base) (n : Nat) : value base (digits base n) = n := by
  induction n using Nat.strongRecOn with
  | ind n ih =>
    by_cases h : base ≤ n
    · rw [digits_of_le hb h, value_append_singleton,
        ih _ (Nat.div_lt_self (by omega) (by omega)), Nat.mul_comm]
      exact Nat.div_add_mod n base
    · rw [digits_of_lt (by omega)]; simp [value]

theorem digits_ne_nil (base n : Nat) : digits base n ≠ [] := by
  rw [digits]; split <;> simp

theorem digit?_charOf {d : Nat} (h : d < 10) : digit? (charOf d) = some d := by
  have : d = 0 ∨ d = 1 ∨ d = 2 ∨ d = 3 ∨ d = 4 ∨ d = 5 ∨ d = 6 ∨ d = 7 ∨ d = 8 ∨ d = 9 := by omega
  rcases this with rfl | rfl | rfl | rfl | rfl | rfl | rfl | rfl | rfl | rfl <;> rfl

theorem lt_of_mem_digits {base n : Nat} (hb : 2 ≤ base) {d : Nat} (h : d ∈ digits base n) :
    d < base := by
  induction n using Nat.strongRecOn with
  | ind n ih =>
    by_cases hn : base ≤ n
    · rw [digits_of_le hb hn, List.mem_append, List.mem_singleton] at h
      rcases h with h | rfl
      · exact ih _ (Nat.div_lt_self (by omega) (by omega)) h
      · exact Nat.mod_lt _ (by omega)
    · rw [digits_of_lt (by omega), List.mem_singleton] at h; omega

theorem run_length (digitOf : Char → Option Nat) (limit : Option Nat) (cs : List Char) :
    (run digitOf limit cs).1.length + (run digitOf limit cs).2.length = cs.length := by
  fun_induction run digitOf limit cs with
  | case1 => simp
  | case2 => simp
  | case3 => simp
  | case4 _ _ _ _ _ _ _ _ h ih => rw [h] at ih; simp at *; omega

end RequestMeter.Numeral
