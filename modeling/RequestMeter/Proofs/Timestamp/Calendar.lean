import RequestMeter.Timestamp.Basic
import Mathlib.Algebra.BigOperators.Group.List.Basic
import Mathlib.Algebra.GroupWithZero.Nat
import Mathlib.Tactic.ByContra
import Mathlib.Tactic.SplitIfs

/-! # Days and dates

Every day number has a date that exists, and the date has that day number again.  Nothing here depends
on how many years there are: the range of years comes in only for the days that a moment can have.
-/
namespace RequestMeter

/-! ## Years -/

def yearLength (year : Int) : Nat := if isLeap year then 366 else 365

theorem daysBeforeYear_succ (year : Int) :
    daysBeforeYear (year + 1) = daysBeforeYear year + yearLength year := by
  unfold daysBeforeYear yearLength isLeap
  split <;> rename_i leap <;>
    simp only [Bool.and_eq_true, Bool.or_eq_true, decide_eq_true_eq] at leap <;> omega

theorem daysBeforeYear_mono {a b : Int} (h : a ≤ b) : daysBeforeYear a ≤ daysBeforeYear b := by
  unfold daysBeforeYear
  omega

theorem sum_monthLengths (year : Int) : (monthLengths year).sum = yearLength year := by
  unfold monthLengths yearLength
  split <;> rfl

namespace Date

/-- A day lies in its year. -/
theorem yearOf_spec (n : Int) :
    daysBeforeYear (yearOf n) ≤ n ∧ n < daysBeforeYear (yearOf n + 1) := by
  unfold yearOf
  dsimp only
  split_ifs with early late
  · refine ⟨early, ?_⟩
    unfold daysBeforeYear at *
    omega
  · refine ⟨?_, ?_⟩
    · unfold daysBeforeYear at *
      omega
    · rw [Int.sub_add_cancel]
      exact late
  · exact ⟨by omega, by omega⟩

theorem le_yearOf {year n : Int} (h : daysBeforeYear year ≤ n) : year ≤ yearOf n := by
  by_contra later
  have := daysBeforeYear_mono (show yearOf n + 1 ≤ year by omega)
  have := (yearOf_spec n).2
  omega

theorem yearOf_le {year n : Int} (h : n < daysBeforeYear (year + 1)) : yearOf n ≤ year := by
  by_contra later
  have := daysBeforeYear_mono (show year + 1 ≤ yearOf n by omega)
  have := (yearOf_spec n).1
  omega

/-! ## Months -/

/-- A day of the year falls in a month, on a day that the month has, and the months before it are the
days before. -/
theorem monthAndDay_spec {lengths : List Nat} {n : Nat} (h : n < lengths.sum) :
    (1 ≤ (monthAndDay lengths n).1 ∧ (monthAndDay lengths n).1 ≤ lengths.length) ∧
      (1 ≤ (monthAndDay lengths n).2 ∧
        (monthAndDay lengths n).2 ≤ lengths.getD ((monthAndDay lengths n).1 - 1) 0) ∧
      (lengths.take ((monthAndDay lengths n).1 - 1)).sum + (monthAndDay lengths n).2 = n + 1 := by
  induction lengths generalizing n with
  | nil => simp at h
  | cons length rest ih =>
    by_cases first : n < length
    · simp only [monthAndDay, if_pos first, List.length_cons, Nat.sub_self, List.getD_cons_zero,
        List.take_zero, List.sum_nil]
      omega
    · rw [List.sum_cons] at h
      obtain ⟨⟨low, high⟩, days, total⟩ := ih (n := n - length) (by omega)
      obtain ⟨month, next⟩ := Nat.exists_eq_add_of_le' low
      simp only [next, Nat.add_sub_cancel] at high days total
      simp only [monthAndDay, if_neg first, next, Nat.add_sub_cancel, List.length_cons,
        List.getD_cons_succ, List.take_succ_cons, List.sum_cons]
      omega

theorem sum_take_add_le (lengths : List Nat) (month : Nat) :
    (lengths.take month).sum + lengths.getD month 0 ≤ lengths.sum := by
  induction lengths generalizing month with
  | nil => simp
  | cons length rest ih =>
    cases month with
    | zero => simp
    | succ month =>
      have := ih month
      simp only [List.take_succ_cons, List.sum_cons, List.getD_cons_succ]
      omega

/-- A day that a month has falls in that month. -/
theorem monthAndDay_eq {lengths : List Nat} {month day : Nat} (first : 1 ≤ day)
    (last : day ≤ lengths.getD month 0) :
    monthAndDay lengths ((lengths.take month).sum + (day - 1)) = (month + 1, day) := by
  induction lengths generalizing month with
  | nil =>
    rw [List.getD_nil] at last
    omega
  | cons length rest ih =>
    cases month with
    | zero =>
      rw [List.getD_cons_zero] at last
      have within : day - 1 < length := by omega
      simp only [List.take_zero, List.sum_nil, Nat.zero_add, monthAndDay, if_pos within,
        Nat.sub_add_cancel first]
    | succ month =>
      have beyond : ¬ length + (rest.take month).sum + (day - 1) < length := by omega
      have rest_days : length + (rest.take month).sum + (day - 1) - length =
          (rest.take month).sum + (day - 1) := by omega
      simp only [List.take_succ_cons, List.sum_cons, monthAndDay, if_neg beyond, rest_days, ih last]

/-! ## Dates -/

section
variable (n : Int)

def dayOfYear : Nat := (n + dayZero - daysBeforeYear (yearOf (n + dayZero))).toNat

theorem dayOfYear_lt : dayOfYear n < (monthLengths (yearOf (n + dayZero))).sum := by
  have := yearOf_spec (n + dayZero)
  rw [daysBeforeYear_succ] at this
  rw [sum_monthLengths, dayOfYear]
  omega

theorem ofDayNumber_eq : ofDayNumber n =
    ⟨yearOf (n + dayZero), (monthAndDay (monthLengths (yearOf (n + dayZero))) (dayOfYear n)).1,
      (monthAndDay (monthLengths (yearOf (n + dayZero))) (dayOfYear n)).2⟩ := by
  simp only [ofDayNumber, dayOfYear]

theorem ofDayNumber_year : (ofDayNumber n).year = yearOf (n + dayZero) := by rw [ofDayNumber_eq]

/-- The date of a day exists, and the days before it in its year are as many as the date says. -/
theorem ofDayNumber_spec :
    (1 ≤ (ofDayNumber n).month ∧ (ofDayNumber n).month ≤ 12) ∧
      (1 ≤ (ofDayNumber n).day ∧
        (ofDayNumber n).day ≤
          (monthLengths (ofDayNumber n).year).getD ((ofDayNumber n).month - 1) 0) ∧
      ((monthLengths (ofDayNumber n).year).take ((ofDayNumber n).month - 1)).sum +
        (ofDayNumber n).day = dayOfYear n + 1 := by
  rw [ofDayNumber_eq]
  exact monthAndDay_spec (dayOfYear_lt n)

theorem isValid_ofDayNumber : (ofDayNumber n).isValid = true := by
  obtain ⟨⟨low, high⟩, ⟨early, late⟩, -⟩ := ofDayNumber_spec n
  simp only [isValid, Bool.and_eq_true, decide_eq_true_eq]
  exact ⟨⟨⟨low, high⟩, early⟩, late⟩

/-- The date of a day has that day's number. -/
theorem toDayNumber_ofDayNumber : (ofDayNumber n).toDayNumber = n := by
  have total := (ofDayNumber_spec n).2.2
  have first := (yearOf_spec (n + dayZero)).1
  rw [toDayNumber]
  rw [List.sum_eq_foldl] at total
  have sum (ls : List Nat) : ls.foldl Nat.add 0 = ls.foldl (· + ·) 0 := rfl
  simp only [dayOfYear, ofDayNumber_year, sum] at *
  omega

/-- A date that exists is the date of its day number. -/
theorem ofDayNumber_toDayNumber {date : Date} (h : date.isValid = true) :
    ofDayNumber date.toDayNumber = date ∧
      daysBeforeYear date.year ≤ date.toDayNumber + dayZero ∧
      date.toDayNumber + dayZero < daysBeforeYear (date.year + 1) := by
  simp only [isValid, Bool.and_eq_true, decide_eq_true_eq] at h
  obtain ⟨⟨⟨low, -⟩, early⟩, late⟩ := h
  have number : date.toDayNumber + dayZero = daysBeforeYear date.year +
      (((monthLengths date.year).take (date.month - 1)).sum + (date.day - 1) : Nat) := by
    have sum (ls : List Nat) : ls.foldl Nat.add 0 = ls.sum := List.sum_eq_foldl.symm
    rw [toDayNumber, sum]
    omega
  have within := sum_take_add_le (monthLengths date.year) (date.month - 1)
  rw [sum_monthLengths] at within
  have next := daysBeforeYear_succ date.year
  have bounds : daysBeforeYear date.year ≤ date.toDayNumber + dayZero ∧
      date.toDayNumber + dayZero < daysBeforeYear (date.year + 1) := by omega
  have year : yearOf (date.toDayNumber + dayZero) = date.year :=
    Int.le_antisymm (yearOf_le bounds.2) (le_yearOf bounds.1)
  have days : dayOfYear date.toDayNumber =
      ((monthLengths date.year).take (date.month - 1)).sum + (date.day - 1) := by
    rw [dayOfYear, year]
    omega
  refine ⟨?_, bounds⟩
  rw [ofDayNumber_eq, year, days, monthAndDay_eq early late, Nat.sub_add_cancel low]

theorem monthLengths_le (year : Int) (month : Nat) : (monthLengths year).getD month 0 ≤ 31 := by
  have long : ∀ length ∈ monthLengths year, length ≤ 31 := by
    unfold monthLengths
    split <;> decide
  rw [List.getD_eq_getElem?_getD]
  cases found : (monthLengths year)[month]? with
  | none => exact Nat.zero_le 31
  | some length => exact long length (List.mem_of_getElem? found)

theorem ofDayNumber_month_lt : (ofDayNumber n).month < 100 := by
  have := (ofDayNumber_spec n).1
  omega

theorem ofDayNumber_day_lt : (ofDayNumber n).day < 100 := by
  have := (ofDayNumber_spec n).2.1
  have := monthLengths_le (ofDayNumber n).year ((ofDayNumber n).month - 1)
  omega

end

/-- The days that a moment can have are those of the years -262143 to 262142. -/
theorem ofDayNumber_year_mem {n : Int} (first : firstDay ≤ n) (last : n ≤ lastDay) :
    -262143 ≤ (ofDayNumber n).year ∧ (ofDayNumber n).year ≤ 262142 := by
  constructor
  · apply le_yearOf
    have : daysBeforeYear (-262143) = firstDay + dayZero := by decide
    omega
  · apply yearOf_le
    have : daysBeforeYear (262142 + 1) = lastDay + 1 + dayZero := by decide
    omega

theorem exists_ofDayNumber_iff {date : Date} :
    (∃ n, (firstDay ≤ n ∧ n ≤ lastDay) ∧ ofDayNumber n = date) ↔
      date.isValid = true ∧ -262143 ≤ date.year ∧ date.year ≤ 262142 := by
  constructor
  · rintro ⟨n, ⟨first, last⟩, rfl⟩
    exact ⟨isValid_ofDayNumber n, ofDayNumber_year_mem first last⟩
  · rintro ⟨valid, low, high⟩
    obtain ⟨same, lower, upper⟩ := ofDayNumber_toDayNumber valid
    refine ⟨date.toDayNumber, ⟨?_, ?_⟩, same⟩
    · have := daysBeforeYear_mono low
      have : daysBeforeYear (-262143) = firstDay + dayZero := by decide
      omega
    · have := daysBeforeYear_mono (show date.year + 1 ≤ 262142 + 1 by omega)
      have : daysBeforeYear (262142 + 1) = lastDay + 1 + dayZero := by decide
      omega

end Date

/-- There is a moment at every second and nanosecond of the dates that exist in those years, and a
leap second at each. -/
theorem Timestamp.exists_iff {date : Date} {second nano : Nat} :
    (∃ t : Timestamp, Date.ofDayNumber t.day = date ∧ t.second = second ∧ t.nano = nano) ↔
      (date.isValid = true ∧ -262143 ≤ date.year ∧ date.year ≤ 262142) ∧ second < 86400 ∧
        nano < 2000000000 := by
  rw [← Date.exists_ofDayNumber_iff]
  constructor
  · rintro ⟨t, rfl, rfl, rfl⟩
    exact ⟨⟨t.day, ⟨t.first_le, t.le_last⟩, rfl⟩, t.second_lt, t.nano_lt⟩
  · rintro ⟨⟨n, ⟨first, last⟩, rfl⟩, hs, hn⟩
    exact ⟨⟨n, second, nano, first, last, hs, hn⟩, rfl, rfl, rfl⟩

end RequestMeter
