import RequestMeter.Limit

/-! # Rings

A ring keeps the newest items, as many as its capacity.  Items are added to an array until it is
full; from then on each item takes the slot of the oldest one.
-/
namespace RequestMeter

structure Ring (α : Type) where
  capacity : Nat
  slots : Array α
  /-- The slot of the oldest item. -/
  oldest : Nat
  capacity_pos : 0 < capacity
  size_le : slots.size ≤ capacity
  oldest_lt : oldest < capacity
  /-- Until the array is full the oldest item is the first. -/
  oldest_filling : slots.size < capacity → oldest = 0

namespace Ring

variable {α : Type}

def ofCapacity (capacity : Nat) (h : 0 < capacity) : Ring α :=
  ⟨capacity, #[], 0, h, Nat.zero_le _, h, fun _ => rfl⟩

def new (capacity : Nat) : Except MeterError (Ring α) :=
  if h : 0 < capacity then .ok (ofCapacity capacity h) else .error (.invalidCapacity capacity)

/-- A ring without items whose slots, of some bytes each, are all set aside at once. -/
def allocate (slotBytes capacity : Nat) : Except SetupError (Ring α) := do
  let r ← (new capacity).mapError .meter
  (HostLimit.storage.check (slotBytes * capacity)).mapError .limit
  return r

/-- Keeps an item, and gives back the one it displaced. -/
def store (r : Ring α) (x : α) : Ring α × Option α :=
  if h : r.slots.size < r.capacity then
    ({ r with
        slots := r.slots.push x
        size_le := by rw [Array.size_push]; exact h
        oldest_filling := fun _ => r.oldest_filling h }, none)
  else
    have full : r.slots.size = r.capacity := Nat.le_antisymm r.size_le (Nat.not_lt.mp h)
    have inside : r.oldest < r.slots.size := full ▸ r.oldest_lt
    ({ r with
        slots := r.slots.set r.oldest x inside
        oldest := (r.oldest + 1) % r.capacity
        size_le := by simpa using r.size_le
        oldest_lt := Nat.mod_lt _ r.capacity_pos
        oldest_filling := fun hlt => absurd hlt (by simpa using h) },
      some r.slots[r.oldest])

def size (r : Ring α) : Nat := r.slots.size

def isEmpty (r : Ring α) : Bool := r.size = 0

def isFull (r : Ring α) : Bool := r.size = r.capacity

def toList (r : Ring α) : List α :=
  r.slots.toList.drop r.oldest ++ r.slots.toList.take r.oldest

theorem allocate_of_le {slotBytes capacity : Nat} (h : 0 < capacity)
    (fits : slotBytes * capacity ≤ HostLimit.storage.bound) :
    allocate slotBytes capacity = .ok (ofCapacity capacity h : Ring α) := by
  rw [allocate, new, dif_pos h, HostLimit.check_eq_ok_iff.mpr fits]
  rfl

@[simp] theorem toList_ofCapacity (capacity : Nat) (h : 0 < capacity) :
    (ofCapacity capacity h : Ring α).toList = [] := rfl

@[simp] theorem length_toList (r : Ring α) : r.toList.length = r.size := by
  simp [toList, size, List.length_take, List.length_drop]
  have := r.oldest_filling
  have := r.oldest_lt
  have := r.size_le
  omega

@[simp] theorem capacity_store (r : Ring α) (x : α) : (r.store x).1.capacity = r.capacity := by
  unfold store; split <;> rfl

theorem store_of_lt (r : Ring α) (x : α) (h : r.size < r.capacity) :
    (r.store x).1.toList = r.toList ++ [x] ∧ (r.store x).2 = none := by
  have h' : r.slots.size < r.capacity := h
  simp [store, h', toList, r.oldest_filling h']

theorem store_of_full (r : Ring α) (x : α) (h : r.size = r.capacity) :
    (r.store x).1.toList = r.toList.tail ++ [x] ∧ (r.store x).2 = r.toList.head? := by
  have h' : ¬ r.slots.size < r.capacity := by unfold size at h; omega
  have inside : r.oldest < r.slots.toList.length := by
    have := r.oldest_lt; unfold size at h; simp; omega
  have hd : r.slots.toList.drop r.oldest =
      r.slots.toList[r.oldest] :: r.slots.toList.drop (r.oldest + 1) :=
    List.drop_eq_getElem_cons inside
  refine ⟨?_, ?_⟩
  · by_cases hw : r.oldest + 1 < r.capacity
    · have hm : (r.oldest + 1) % r.capacity = r.oldest + 1 := Nat.mod_eq_of_lt hw
      simp only [store, dif_neg h', toList, hm, Array.toList_set, hd, List.cons_append,
        List.tail_cons, List.append_assoc]
      rw [List.drop_set_of_lt (Nat.lt_succ_self _), List.take_succ_eq_append_getElem (by simpa using inside),
        List.take_set_of_le (Nat.le_refl _)]
      simp
    · have he : r.oldest + 1 = r.capacity := by have := r.oldest_lt; omega
      have hm : (r.oldest + 1) % r.capacity = 0 := by rw [he, Nat.mod_self]
      have hl : r.oldest + 1 = r.slots.toList.length := by simp; unfold size at h; omega
      simp only [store, dif_neg h', toList, hm, Array.toList_set, hd, List.cons_append,
        List.tail_cons, List.drop_zero, List.take_zero, List.append_nil]
      rw [List.drop_eq_nil_of_le (by omega), List.nil_append,
        List.set_eq_take_append_cons_drop, if_pos inside, List.drop_eq_nil_of_le (by omega)]
  · simp [store, h', toList, hd]

end Ring

end RequestMeter
