import RequestMeter.Proofs.Ring
import Mathlib.Data.List.ReduceOption
import Mathlib.Data.Nat.ModEq

/-! # Rings slot by slot

The machine below a ring: all slots are there from the start, empty ones included, and two positions move
around them.  Each index is looked up and each remainder is taken only where it exists, so an access
outside the slots stops the machine.  It never stops, it visits no empty slot, and it answers as the ring
does: together they are a queue that gives up its oldest item only to make room.
-/
namespace RequestMeter.Ring

variable {α : Type}

/-! ## Storing a series of items -/

/-- The ring after it stored some items in their order, and what each of them displaced. -/
def storeAll (r : Ring α) (xs : List α) : Ring α × List (Option α) :=
  xs.foldl (fun (r, displaced) x => ((r.store x).1, displaced ++ [(r.store x).2])) (r, [])

theorem storeAll_concat (r : Ring α) (xs : List α) (x : α) :
    r.storeAll (xs ++ [x]) =
      (((r.storeAll xs).1.store x).1, (r.storeAll xs).2 ++ [((r.storeAll xs).1.store x).2]) :=
  List.foldl_append

theorem store_conserves (r : Ring α) (x : α) :
    (r.store x).2.toList ++ (r.store x).1.toList = r.toList ++ [x] := by
  by_cases h : r.size < r.capacity
  · obtain ⟨kept, displaced⟩ := r.store_of_lt x h
    rw [kept, displaced, Option.toList_none, List.nil_append]
  · have full : r.size = r.capacity := Nat.le_antisymm r.size_le_capacity (Nat.not_lt.mp h)
    have some : r.toList ≠ [] := by
      apply List.ne_nil_of_length_pos
      rw [length_toList, full]
      exact r.capacity_pos
    obtain ⟨kept, displaced⟩ := r.store_of_full x full
    rw [kept, displaced, List.head?_eq_some_head some, Option.toList_some, List.singleton_append,
      ← List.cons_append, List.cons_head_tail]

/-- Nothing is lost, doubled or moved past another item. -/
theorem storeAll_conserves (r : Ring α) (xs : List α) :
    (r.storeAll xs).2.reduceOption ++ (r.storeAll xs).1.toList = r.toList ++ xs := by
  induction xs using List.reverseRecOn with
  | nil => simp [storeAll, List.reduceOption_nil]
  | append_singleton xs x ih =>
    rw [storeAll_concat, List.reduceOption_append, List.reduceOption_singleton, List.append_assoc,
      store_conserves, ← List.append_assoc, ih, List.append_assoc]

theorem capacity_storeAll (r : Ring α) (xs : List α) :
    (r.storeAll xs).1.capacity = r.capacity := by
  induction xs using List.reverseRecOn with
  | nil => rfl
  | append_singleton xs x ih => rw [storeAll_concat, capacity_store, ih]

theorem toList_storeAll (capacity : Nat) (h : 0 < capacity) (xs : List α) :
    ((ofCapacity capacity h).storeAll xs).1.toList = xs.drop (xs.length - capacity) := by
  induction xs using List.reverseRecOn with
  | nil => exact List.drop_nil.symm
  | append_singleton xs x ih =>
    rw [storeAll_concat, toList_store, capacity_storeAll, ih]
    exact rtake_rtake_append capacity xs x

theorem size_storeAll (capacity : Nat) (h : 0 < capacity) (xs : List α) :
    ((ofCapacity capacity h).storeAll xs).1.size = min xs.length capacity := by
  rw [← length_toList, toList_storeAll, List.length_drop]
  omega

/-- What the item at an index gives back: the item as many places before it as there are slots. -/
def displacedAt (capacity : Nat) (xs : List α) (i : Nat) : Option α :=
  if i < capacity then none else xs[i - capacity]?

theorem displacedAt_append {capacity i : Nat} {xs : List α} (h : i - capacity < xs.length)
    (ys : List α) : displacedAt capacity (xs ++ ys) i = displacedAt capacity xs i := by
  rw [displacedAt, displacedAt, List.getElem?_append_left h]

/-- What each of some items displaces depends only on those before it. -/
theorem map_displacedAt_concat {capacity : Nat} (h : 0 < capacity) (xs : List α) (x : α) :
    (List.range (xs ++ [x]).length).map (displacedAt capacity (xs ++ [x])) =
      (List.range xs.length).map (displacedAt capacity xs) ++
        [displacedAt capacity xs xs.length] := by
  have earlier : ∀ i ∈ List.range (xs ++ [x]).length,
      displacedAt capacity (xs ++ [x]) i = displacedAt capacity xs i := by
    intro i hi
    rw [List.mem_range, List.length_append, List.length_singleton] at hi
    by_cases filling : i < capacity
    · rw [displacedAt, displacedAt, if_pos filling, if_pos filling]
    · exact displacedAt_append (by omega) [x]
  rw [List.map_congr_left earlier, List.length_append, List.length_singleton, List.range_succ,
    List.map_append, List.map_singleton]

theorem displaced_storeAll (capacity : Nat) (h : 0 < capacity) (xs : List α) :
    ((ofCapacity capacity h).storeAll xs).2 =
      (List.range xs.length).map (displacedAt capacity xs) := by
  induction xs using List.reverseRecOn with
  | nil => rfl
  | append_singleton xs x ih =>
    have size := size_storeAll capacity h xs
    have room : ((ofCapacity capacity h).storeAll xs).1.capacity = capacity :=
      capacity_storeAll _ xs
    have last : (((ofCapacity capacity h).storeAll xs).1.store x).2 =
        displacedAt capacity xs xs.length := by
      rw [displacedAt]
      by_cases filling : xs.length < capacity
      · rw [if_pos filling]
        exact (store_of_lt _ x (by omega)).2
      · rw [if_neg filling, (store_of_full _ x (by omega)).2, toList_storeAll, List.head?_drop]
    rw [storeAll_concat, ih, map_displacedAt_concat h, last]

/-! ## The machine -/

/-- All slots of a ring, with the position of the oldest item and that of the next one. -/
structure Slots (α : Type) where
  slots : List (Option α)
  start : Nat := 0
  next : Nat := 0
  size : Nat := 0

namespace Slots

def ofCapacity (capacity : Nat) : Slots α := { slots := List.replicate capacity none }

/-- A position, counted around the slots.  There is none without slots. -/
def around? (s : Slots α) (position : Nat) : Option Nat :=
  if s.slots.length = 0 then none else some (position % s.slots.length)

def store? (s : Slots α) (x : α) : Option (Slots α × Option α) := do
  let displaced ← s.slots[s.next]?
  let next ← s.around? (s.next + 1)
  if s.size = s.slots.length then
    -- The slot that was written held the oldest item.
    return ({ s with slots := s.slots.set s.next (some x), start := next, next }, displaced)
  else
    return ({ s with slots := s.slots.set s.next (some x), next, size := s.size + 1 }, displaced)

def visited? (s : Slots α) : Option (List (Option α)) :=
  (List.range s.size).mapM fun i => do s.slots[← s.around? (s.start + i)]?

/-- Stores one more item after others, which displaced what is listed. -/
def storeNext? (done : Slots α × List (Option α)) (x : α) : Option (Slots α × List (Option α)) := do
  let (s, old) ← done.1.store? x
  return (s, done.2 ++ [old])

def storeAll? (s : Slots α) (xs : List α) : Option (Slots α × List (Option α)) :=
  xs.foldlM storeNext? (s, [])

theorem storeAll?_concat {s t u : Slots α} {xs : List α} {x : α} {displaced : List (Option α)}
    {old : Option α} (before : s.storeAll? xs = some (t, displaced))
    (last : t.store? x = some (u, old)) :
    s.storeAll? (xs ++ [x]) = some (u, displaced ++ [old]) := by
  have next : storeNext? (t, displaced) x = some (u, displaced ++ [old]) := by
    rw [storeNext?, last]
    rfl
  rw [storeAll?] at before ⊢
  rw [List.foldlM_append, before, Option.bind_eq_bind, Option.bind_some, List.foldlM_cons, next]
  rfl

/-! ## Where the items are -/

/-- The slots after some items were stored, none of them before.  Item `j` is in slot `j` modulo the
capacity, until the item that displaces it comes; where no item has come yet the slot is empty. -/
structure Holds (capacity : Nat) (xs : List α) (s : Slots α) : Prop where
  length : s.slots.length = capacity
  next : s.next = xs.length % capacity
  start : s.start = (xs.length - capacity) % capacity
  size : s.size = min xs.length capacity
  items : ∀ j, xs.length - capacity ≤ j → j < xs.length - capacity + capacity →
    s.slots[j % capacity]? = some xs[j]?

theorem holds_ofCapacity (capacity : Nat) : Holds capacity ([] : List α) (ofCapacity capacity) where
  length := List.length_replicate
  next := (Nat.zero_mod _).symm
  start := by simp [ofCapacity]
  size := by simp [ofCapacity]
  items j _ hj := by
    have inside : j % capacity < capacity := Nat.mod_lt j (by omega)
    simp [ofCapacity, inside]

variable {capacity : Nat} {xs : List α} {s : Slots α}

theorem eq_of_mod_eq {i j : Nat} (h : i % capacity = j % capacity) (above : i < j + capacity)
    (below : j < i + capacity) : i = j := by
  apply Nat.ModEq.eq_of_abs_lt h
  rw [abs_lt]
  omega

/-- The next slot holds what the next item displaces. -/
theorem Holds.getElem?_next (h : Holds capacity xs s) (hc : 0 < capacity) :
    s.slots[s.next]? = some (displacedAt capacity xs xs.length) := by
  by_cases filling : xs.length < capacity
  · rw [h.next, h.items _ (by omega) (by omega), displacedAt, if_pos filling,
      List.getElem?_eq_none (Nat.le_refl _)]
  · have full : capacity ≤ xs.length := Nat.not_lt.mp filling
    rw [h.next, Nat.mod_eq_sub_mod full, h.items _ (Nat.le_refl _) (by omega), displacedAt,
      if_neg filling]

theorem Holds.items_set (h : Holds capacity xs s) (x : α) {j : Nat}
    (newest : (xs ++ [x]).length - capacity ≤ j)
    (room : j < (xs ++ [x]).length - capacity + capacity) :
    (s.slots.set s.next (some x))[j % capacity]? = some (xs ++ [x])[j]? := by
  have hc : 0 < capacity := by omega
  rw [List.length_append, List.length_singleton] at newest room
  rw [List.getElem?_set, h.next, h.length]
  by_cases same : xs.length % capacity = j % capacity
  · obtain rfl : xs.length = j := eq_of_mod_eq same (by omega) (by omega)
    rw [if_pos rfl, if_pos (Nat.mod_lt _ hc), List.getElem?_concat_length]
  · have other : xs.length ≠ j := fun he => same (he ▸ rfl)
    rw [if_neg same, h.items j (by omega) (by omega)]
    by_cases old : j < xs.length
    · rw [List.getElem?_append_left old]
    · rw [List.getElem?_eq_none (by omega), List.getElem?_eq_none (by simp; omega)]

/-- An item can always be stored, and gives back what was stored a round before. -/
theorem Holds.store (h : Holds capacity xs s) (hc : 0 < capacity) (x : α) :
    ∃ t, s.store? x = some (t, displacedAt capacity xs xs.length) ∧
      Holds capacity (xs ++ [x]) t := by
  have around : s.around? (s.next + 1) = some ((xs ++ [x]).length % capacity) := by
    rw [around?, h.length, if_neg (Nat.ne_of_gt hc), h.next, Nat.mod_add_mod, List.length_append,
      List.length_singleton]
  have length : (s.slots.set s.next (some x)).length = capacity := by
    rw [List.length_set, h.length]
  have count : (xs ++ [x]).length = xs.length + 1 := by
    rw [List.length_append, List.length_singleton]
  rw [store?, h.getElem?_next hc, Option.bind_eq_bind, Option.bind_some, around,
    Option.bind_eq_bind, Option.bind_some, h.length, h.size]
  by_cases full : min xs.length capacity = capacity
  · rw [if_pos full]
    have first : (xs.length + 1) % capacity = (xs.length + 1 - capacity) % capacity :=
      Nat.mod_eq_sub_mod (by omega)
    have size : min xs.length capacity = min (xs.length + 1) capacity := by omega
    refine ⟨_, rfl, length, rfl, ?_, ?_, fun j => h.items_set x⟩
    · rw [count, first]
    · rw [count, ← size]
  · rw [if_neg full]
    have first : xs.length - capacity = xs.length + 1 - capacity := by omega
    have size : min xs.length capacity + 1 = min (xs.length + 1) capacity := by omega
    refine ⟨_, rfl, length, rfl, ?_, ?_, fun j => h.items_set x⟩
    · rw [h.start, count, first]
    · rw [count, ← size]

theorem mapM_eq_some {β : Type} {f : α → Option β} {g : α → β} {as : List α}
    (h : ∀ a ∈ as, f a = some (g a)) : as.mapM f = some (as.map g) := by
  induction as with
  | nil => rfl
  | cons a as ih =>
    rw [List.forall_mem_cons] at h
    rw [List.mapM_cons, h.1, ih h.2]
    rfl

theorem map_getElem?_range (xs : List α) (start : Nat) :
    (List.range (xs.length - start)).map (fun i => xs[start + i]?) = (xs.drop start).map some := by
  apply List.ext_getElem?
  intro i
  by_cases inside : i < xs.length - start
  · simp [inside]
  · simp [inside]

/-- The slots that are visited hold the newest items, and none of them is empty. -/
theorem Holds.visited (h : Holds capacity xs s) (hc : 0 < capacity) :
    s.visited? = some ((xs.drop (xs.length - capacity)).map some) := by
  have visit : ∀ i ∈ List.range s.size, (do s.slots[← s.around? (s.start + i)]?) =
      some xs[xs.length - capacity + i]? := by
    intro i hi
    rw [List.mem_range, h.size] at hi
    rw [around?, h.length, if_neg (Nat.ne_of_gt hc), Option.bind_eq_bind, Option.bind_some, h.start,
      Nat.mod_add_mod]
    exact h.items _ (by omega) (by omega)
  have newest : s.size = xs.length - (xs.length - capacity) := by
    rw [h.size]
    omega
  rw [visited?, mapM_eq_some visit, newest, map_getElem?_range]

theorem storeAll?_ofCapacity (hc : 0 < capacity) (xs : List α) :
    ∃ s, (ofCapacity capacity).storeAll? xs =
        some (s, (List.range xs.length).map (displacedAt capacity xs)) ∧
      Holds capacity xs s := by
  induction xs using List.reverseRecOn with
  | nil => exact ⟨_, rfl, holds_ofCapacity capacity⟩
  | append_singleton xs x ih =>
    obtain ⟨s, stored, held⟩ := ih
    obtain ⟨t, next, after⟩ := held.store hc x
    refine ⟨t, ?_, after⟩
    rw [map_displacedAt_concat hc]
    exact storeAll?_concat stored next

/-- The slots are those of a ring: as many, and with its items in those that are visited. -/
structure Shows (s : Slots α) (r : Ring α) : Prop where
  length : s.slots.length = r.capacity
  size : s.size = r.size
  visited : s.visited? = some (r.toList.map some)

end Slots

/-! ## The queue -/

/-- Only a ring without room is refused.  Any other one, and the machine below it, takes every
series of items: an item displaces the one that came as many places before it as the ring has slots,
and nothing while there is none.  What was displaced and what is kept, one after the other, are the
items as they came.  The ring is full when there were as many items as slots, and empty when there
were none. -/
theorem storeAll_queue (capacity : Nat) (xs : List α) :
    (capacity = 0 ∧ (new capacity : Except MeterError (Ring α)) = .error (.invalidCapacity 0)) ∨
    ∃ (empty r : Ring α) (displaced : List (Option α)) (s : Slots α),
      new capacity = .ok empty ∧ empty.storeAll xs = (r, displaced) ∧
      (Slots.ofCapacity capacity).storeAll? xs = some (s, displaced) ∧ s.Shows r ∧
      displaced = (List.range xs.length).map
        (fun i => if i < capacity then none else xs[i - capacity]?) ∧
      r.toList = xs.drop (xs.length - min xs.length capacity) ∧
      displaced.reduceOption ++ r.toList = xs ∧
      r.size = min xs.length capacity ∧ r.toList.length = r.size ∧
      (r.isFull = true ↔ capacity ≤ xs.length) ∧ (r.isEmpty = true ↔ xs = []) ∧
      r.capacity = capacity := by
  rcases Nat.eq_zero_or_pos capacity with rfl | hc
  · left
    exact ⟨rfl, rfl⟩
  · right
    let r := ((ofCapacity capacity hc).storeAll xs).1
    have kept : r.toList = xs.drop (xs.length - capacity) := toList_storeAll capacity hc xs
    have size : r.size = min xs.length capacity := size_storeAll capacity hc xs
    have room : r.capacity = capacity := capacity_storeAll _ xs
    have displaced := displaced_storeAll capacity hc xs
    have conserved := storeAll_conserves (ofCapacity capacity hc) xs
    obtain ⟨s, stored, held⟩ := Slots.storeAll?_ofCapacity hc xs
    refine ⟨ofCapacity capacity hc, r, ((ofCapacity capacity hc).storeAll xs).2, s, dif_pos hc, rfl,
      ?_, ?_, displaced, ?_, conserved, size, r.length_toList, ?_, ?_, room⟩
    · rw [stored, displaced]
    · constructor
      · rw [held.length, room]
      · rw [held.size, size]
      · rw [held.visited hc, kept]
    · rw [kept]
      congr 1
      omega
    · rw [isFull, size, room, decide_eq_true_eq]
      omega
    · rw [isEmpty, size, decide_eq_true_eq, ← List.length_eq_zero_iff]
      omega

/-- Three slots and six items. -/
example : ((ofCapacity 3 (by decide)).storeAll ["0", "1", "2", "3", "4", "5"]).2 =
    [none, none, none, some "0", some "1", some "2"] := rfl

end RequestMeter.Ring
