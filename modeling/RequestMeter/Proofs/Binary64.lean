import RequestMeter.Binary64

/-! # Binary64 numbers of natural numbers

Rounding a positive number to 53 bits never gives zero.
-/
namespace RequestMeter.Binary64

theorem exponentOf_le (n : Nat) : exponentOf n 1 ≤ n.log2 := by
  have one : Nat.log2 1 = 0 := rfl
  simp only [exponentOf, one]
  split <;> omega

theorem shift_pos (n : Nat) (e : Int) : 0 < (shift n 1 e).2 := by
  unfold shift
  split
  · exact Nat.mul_pos Nat.one_pos (Nat.pow_pos Nat.two_pos)
  · exact Nat.one_pos

/-- At its exponent a positive number has a positive whole part. -/
theorem shift_exponentOf_le {n : Nat} (hn : n ≠ 0) :
    (shift n 1 (exponentOf n 1)).2 ≤ (shift n 1 (exponentOf n 1)).1 := by
  have le := exponentOf_le n
  unfold shift
  split
  · calc 1 * 2 ^ (exponentOf n 1).toNat = 2 ^ (exponentOf n 1).toNat := Nat.one_mul _
      _ ≤ 2 ^ n.log2 := Nat.pow_le_pow_right Nat.two_pos (by omega)
      _ ≤ n := Nat.log2_self_le hn
  · exact Nat.mul_pos (Nat.pos_of_ne_zero hn) (Nat.pow_pos Nat.two_pos)

theorem nearest_pos {n d : Nat} (hd : 0 < d) (h : d ≤ n) : 0 < nearest n d := by
  have := Nat.div_pos h hd
  unfold nearest
  dsimp only
  split <;> omega

theorem ofNat_ne_zero {n : Nat} (hn : n ≠ 0) : ofNat n ≠ zero := by
  intro h
  have pos := nearest_pos (shift_pos n _) (shift_exponentOf_le hn)
  simp only [ofNat, ofRatio, if_neg hn] at h
  split at h
  · cases h
  · have none : nearest _ _ = 0 := congrArg mantissa h
    omega

/-! ## Quotients of exact numbers -/

/-- A number below 2⁵³ needs no rounding. -/
theorem ofNat_eq {n : Nat} (hn : n ≠ 0) (h : n < Nat.pow 2 53) :
    ofNat n = ⟨n * Nat.pow 2 (52 - n.log2), (n.log2 : Int) - 52⟩ := by
  have hl : n.log2 < 53 := (Nat.log2_lt hn).mpr h
  have shifted : shift n 1 ((n.log2 : Int) - 52) = (n * Nat.pow 2 (52 - n.log2), 1) := by
    unfold shift
    by_cases h52 : n.log2 = 52
    · simp [h52]
    · rw [if_neg (by omega), show (-((n.log2 : Int) - 52)).toNat = 52 - n.log2 by omega]
  have low : Nat.pow 2 52 ≤ n * Nat.pow 2 (52 - n.log2) := by
    calc 2 ^ 52 = 2 ^ n.log2 * 2 ^ (52 - n.log2) := by rw [← Nat.pow_add]; congr 1; omega
      _ ≤ n * 2 ^ (52 - n.log2) := Nat.mul_le_mul_right _ (Nat.log2_self_le hn)
  have high : n * Nat.pow 2 (52 - n.log2) < Nat.pow 2 53 := by
    calc n * 2 ^ (52 - n.log2) < 2 ^ (n.log2 + 1) * 2 ^ (52 - n.log2) :=
          Nat.mul_lt_mul_of_pos_right Nat.lt_log2_self (Nat.two_pow_pos _)
      _ = 2 ^ 53 := by rw [← Nat.pow_add]; congr 1; omega
  have exponent : exponentOf n 1 = (n.log2 : Int) - 52 := by
    simp only [exponentOf, show Nat.log2 1 = 0 from rfl, Int.natCast_zero, Int.sub_zero, shifted,
      Nat.div_one]
    exact if_neg (Nat.not_lt.mpr low)
  have rounded : nearest (n * Nat.pow 2 (52 - n.log2)) 1 = n * Nat.pow 2 (52 - n.log2) := by
    simp [nearest, Nat.mod_one]
  simp only [ofNat, ofRatio, if_neg hn, exponent, shifted, rounded]
  exact if_neg (Nat.ne_of_lt high)

theorem log2_mul_pow {n : Nat} (hn : n ≠ 0) (k : Nat) : (n * Nat.pow 2 k).log2 = n.log2 + k := by
  induction k with
  | zero => rw [show n * Nat.pow 2 0 = n from Nat.mul_one n]; rfl
  | succ k ih =>
    have double : n * Nat.pow 2 (k + 1) = 2 * (n * Nat.pow 2 k) := by
      calc n * 2 ^ (k + 1) = n * (2 ^ k * 2) := by rw [Nat.pow_succ]
        _ = 2 * (n * 2 ^ k) := by rw [← Nat.mul_assoc, Nat.mul_comm]
    have ne : n * Nat.pow 2 k ≠ 0 := Nat.mul_ne_zero hn (Nat.ne_of_gt (Nat.two_pow_pos k))
    rw [double, Nat.log2_two_mul ne, ih, Nat.add_assoc]

theorem shift_mul (n d : Nat) (e : Int) (c : Nat) :
    shift (n * c) (d * c) e = ((shift n d e).1 * c, (shift n d e).2 * c) := by
  unfold shift
  split
  · rw [Nat.mul_right_comm]
  · rw [Nat.mul_right_comm]

theorem nearest_mul (n d : Nat) {c : Nat} (hc : 0 < c) : nearest (n * c) (d * c) = nearest n d := by
  have quotient : n * c / (d * c) = n / d := Nat.mul_div_mul_right n d hc
  have more : d * c < 2 * (n * c % (d * c)) ↔ d < 2 * (n % d) := by
    rw [Nat.mul_mod_mul_right, ← Nat.mul_assoc]
    exact Nat.mul_lt_mul_right hc
  have half : 2 * (n * c % (d * c)) = d * c ↔ 2 * (n % d) = d := by
    rw [Nat.mul_mod_mul_right, ← Nat.mul_assoc]
    exact Nat.mul_right_cancel_iff hc
  simp only [nearest, quotient, more, half]

/-- A ratio is rounded alike when both of its terms are multiplied by a power of two. -/
theorem ofRatio_mul_pow {n d : Nat} (hn : n ≠ 0) (hd : d ≠ 0) (k : Nat) :
    ofRatio (n * Nat.pow 2 k) (d * Nat.pow 2 k) = ofRatio n d := by
  have hc : 0 < Nat.pow 2 k := Nat.two_pow_pos k
  have exponent : exponentOf (n * Nat.pow 2 k) (d * Nat.pow 2 k) = exponentOf n d := by
    have logs : ((n * Nat.pow 2 k).log2 : Int) - (d * Nat.pow 2 k).log2 - 52 =
        n.log2 - d.log2 - 52 := by
      rw [log2_mul_pow hn, log2_mul_pow hd]
      omega
    simp only [exponentOf, logs, shift_mul, Nat.mul_div_mul_right _ _ hc]
  simp only [ofRatio, if_neg hn, if_neg (Nat.mul_ne_zero hn (Nat.ne_of_gt hc)), exponent, shift_mul,
    nearest_mul _ _ hc]

/-- The quotient of two numbers below 2⁵³ is rounded once. -/
theorem div_ofNat {n d : Nat} (hd : d ≠ 0) (hn53 : n < Nat.pow 2 53) (hd53 : d < Nat.pow 2 53) :
    (ofNat n).div (ofNat d) = ofRatio n d := by
  by_cases hn : n = 0
  · have none (e : Int) (m : Nat) : (shift 0 m e).1 = 0 := by
      unfold shift
      split
      · rfl
      · exact Nat.zero_mul _
    subst hn
    rw [ofNat_zero, ofRatio_zero]
    simp only [div, show zero.mantissa = 0 from rfl, none, ofRatio_zero]
  · have hnl : n.log2 < 53 := (Nat.log2_lt hn).mpr hn53
    have hdl : d.log2 < 53 := (Nat.log2_lt hd).mpr hd53
    have join (x i j k : Nat) (h : i + j = k) : x * Nat.pow 2 i * Nat.pow 2 j = x * Nat.pow 2 k := by
      calc x * 2 ^ i * 2 ^ j = x * (2 ^ i * 2 ^ j) := Nat.mul_assoc _ _ _
        _ = x * 2 ^ k := by rw [← Nat.pow_add, h]
    rw [ofNat_eq hn hn53, ofNat_eq hd hd53]
    simp only [div, shift]
    -- the number with the larger mantissa factor decides by which power both terms are multiplied
    split
    · rw [join d _ _ (52 - n.log2) (by omega)]
      exact ofRatio_mul_pow hn hd _
    · rw [join n _ _ (52 - d.log2) (by omega)]
      exact ofRatio_mul_pow hn hd _

end RequestMeter.Binary64
