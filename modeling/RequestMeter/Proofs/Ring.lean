import RequestMeter.Ring
import Mathlib.Data.List.DropRight

/-! # Rings as bounded queues

A ring holds the newest of the items stored in it.  Storing one more item displaces one exactly
when the ring is full.
-/
namespace RequestMeter.Ring

variable {α : Type}

/-- The newest items of a list do not depend on what was already past the capacity. -/
theorem rtake_rtake_append (n : Nat) (xs : List α) (x : α) :
    (xs.rtake n ++ [x]).rtake n = (xs ++ [x]).rtake n := by
  cases n with
  | zero => simp
  | succ n =>
    rw [List.rtake_concat_succ, List.rtake_concat_succ, List.rtake_eq_reverse_take_reverse,
      List.rtake_eq_reverse_take_reverse, List.rtake_eq_reverse_take_reverse, List.reverse_reverse,
      List.take_take, Nat.min_eq_left (Nat.le_succ n)]

theorem size_le_capacity (r : Ring α) : r.size ≤ r.capacity := r.size_le

theorem toList_store (r : Ring α) (x : α) :
    (r.store x).1.toList = (r.toList ++ [x]).rtake r.capacity := by
  by_cases h : r.size < r.capacity
  · rw [(r.store_of_lt x h).1, List.rtake, List.length_append, List.length_singleton, length_toList]
    rw [Nat.sub_eq_zero_of_le (by omega), List.drop_zero]
  · have full : r.size = r.capacity := Nat.le_antisymm r.size_le_capacity (Nat.not_lt.mp h)
    have hl : r.toList ≠ [] := by
      intro he
      have := r.length_toList
      rw [he, full] at this
      exact absurd this (Nat.ne_of_lt r.capacity_pos)
    rw [(r.store_of_full x full).1, List.rtake, List.length_append, List.length_singleton,
      length_toList, full, Nat.add_sub_cancel_left, List.drop_one, List.tail_append_of_ne_nil hl]

theorem store_displaces_iff (r : Ring α) (x : α) :
    (r.store x).2 ≠ none ↔ r.size = r.capacity := by
  constructor
  · intro h
    refine Nat.le_antisymm r.size_le_capacity (Nat.not_lt.mp fun hlt => h ?_)
    exact (r.store_of_lt x hlt).2
  · intro full
    have hp : 0 < r.toList.length := by
      rw [length_toList, full]
      exact r.capacity_pos
    rw [(r.store_of_full x full).2, ne_eq, List.head?_eq_none_iff]
    exact List.ne_nil_of_length_pos hp

end RequestMeter.Ring
