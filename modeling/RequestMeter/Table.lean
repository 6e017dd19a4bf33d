/-! # Tables sorted by key

A table is a list of entries whose keys strictly ascend.  Every walk over it is in key order, and
two tables that answer every look-up alike are equal.
-/
namespace RequestMeter

/-- A strict linear order, as a three-way comparison. -/
class Key (κ : Type) where
  order : κ → κ → Ordering
  order_self : ∀ a, order a a = .eq
  eq_of_order : ∀ {a b}, order a b = .eq → a = b
  order_swap : ∀ a b, order b a = (order a b).swap
  order_trans : ∀ {a b c}, order a b = .lt → order b c = .lt → order a c = .lt

instance : Key Nat where
  order := instOrdNat.compare
  order_self _ := Nat.compare_eq_eq.mpr rfl
  eq_of_order h := Nat.compare_eq_eq.mp h
  order_swap a b := (Nat.compare_swap a b).symm
  order_trans hab hbc :=
    Nat.compare_eq_lt.mpr (Nat.lt_trans (Nat.compare_eq_lt.mp hab) (Nat.compare_eq_lt.mp hbc))

/-- Strings are ordered by code point, which is also the order of their bytes. -/
instance : Key String where
  order := String.instOrd.compare
  order_self _ := Std.ReflCmp.compare_self
  eq_of_order h := Std.LawfulEqOrd.eq_of_compare h
  order_swap _ _ := Std.OrientedCmp.eq_swap
  order_trans hab hbc := Std.TransCmp.lt_trans hab hbc

@[reducible] def Key.ofRank {κ : Type} (rank : κ → Nat) (inj : ∀ {a b}, rank a = rank b → a = b) : Key κ where
  order a b := Key.order (rank a) (rank b)
  order_self a := Key.order_self (rank a)
  eq_of_order h := inj (Key.eq_of_order h)
  order_swap a b := Key.order_swap (rank a) (rank b)
  order_trans := Key.order_trans

instance : Key UInt16 := Key.ofRank UInt16.toNat UInt16.toNat_inj.mp

structure Table (κ : Type) [Key κ] (α : Type) where
  entries : List (κ × α)
  ascending : entries.Pairwise (fun a b => Key.order a.1 b.1 = .lt)

namespace Table

variable {κ : Type} [Key κ] {α β : Type}

/-! ## Look-up and change on a list of entries -/

/-- The value at a key; the walk stops at the first larger key. -/
def find (k : κ) : List (κ × α) → Option α
  | [] => none
  | (j, v) :: r => match Key.order k j with
    | .lt => none
    | .eq => some v
    | .gt => find k r

/-- Puts at a key the value that `f` makes of what the key held before. -/
def alter (k : κ) (f : Option α → α) : List (κ × α) → List (κ × α)
  | [] => [(k, f none)]
  | (j, v) :: r => match Key.order k j with
    | .lt => (k, f none) :: (j, v) :: r
    | .eq => (j, f (some v)) :: r
    | .gt => (j, v) :: alter k f r

def remove (k : κ) (es : List (κ × α)) : List (κ × α) :=
  es.filter (fun e => Key.order k e.1 != .eq)

private theorem order_gt {a b : κ} (h : Key.order a b = .gt) : Key.order b a = .lt := by
  rw [Key.order_swap a b, h]; rfl

theorem forall_alter {k : κ} {f : Option α → α} {es : List (κ × α)} {p : κ → Prop}
    (hk : p k) (h : ∀ e ∈ es, p e.1) : ∀ e ∈ alter k f es, p e.1 := by
  induction es with
  | nil => simpa [alter] using hk
  | cons e r ih =>
    obtain ⟨j, v⟩ := e
    have hr : ∀ e ∈ r, p e.1 := fun e he => h e (List.mem_cons_of_mem _ he)
    have hj : p j := h (j, v) List.mem_cons_self
    rw [alter]
    split
    · intro e he
      rcases List.mem_cons.mp he with rfl | he
      · exact hk
      · exact h e he
    · intro e he
      rcases List.mem_cons.mp he with rfl | he
      · exact hj
      · exact hr e he
    · intro e he
      rcases List.mem_cons.mp he with rfl | he
      · exact hj
      · exact ih hr e he

theorem ascending_alter {k : κ} {f : Option α → α} {es : List (κ × α)}
    (h : es.Pairwise (fun a b => Key.order a.1 b.1 = .lt)) :
    (alter k f es).Pairwise (fun a b => Key.order a.1 b.1 = .lt) := by
  induction es with
  | nil => simp [alter]
  | cons e r ih =>
    obtain ⟨j, v⟩ := e
    obtain ⟨hj, hr⟩ := List.pairwise_cons.mp h
    rw [alter]
    split
    · rename_i hk
      refine List.pairwise_cons.mpr ⟨?_, h⟩
      intro e he
      rcases List.mem_cons.mp he with rfl | he
      · exact hk
      · exact Key.order_trans hk (hj e he)
    · exact List.pairwise_cons.mpr ⟨hj, hr⟩
    · rename_i hk
      exact List.pairwise_cons.mpr ⟨forall_alter (p := fun i => Key.order j i = .lt) (order_gt hk) hj, ih hr⟩

/-! ## Tables -/

def empty : Table κ α := ⟨[], List.Pairwise.nil⟩

instance : Inhabited (Table κ α) := ⟨empty⟩

def get? (t : Table κ α) (k : κ) : Option α := find k t.entries

def update (t : Table κ α) (k : κ) (f : Option α → α) : Table κ α :=
  ⟨alter k f t.entries, ascending_alter t.ascending⟩

def insert (t : Table κ α) (k : κ) (v : α) : Table κ α := t.update k (fun _ => v)

def erase (t : Table κ α) (k : κ) : Table κ α := ⟨remove k t.entries, t.ascending.filter _⟩

def size (t : Table κ α) : Nat := t.entries.length

def keys (t : Table κ α) : List κ := t.entries.map (·.1)

def values (t : Table κ α) : List α := t.entries.map (·.2)

/-- Every key of `u` goes to its value there, every other key stays. -/
def merge (t u : Table κ α) : Table κ α := u.entries.foldl (fun t e => t.insert e.1 e.2) t

def tick (t : Table κ Nat) (k : κ) : Table κ Nat := t.update k (fun n => n.getD 0 + 1)

instance [BEq κ] [BEq α] : BEq (Table κ α) := ⟨fun t u => t.entries == u.entries⟩

/-! ## Laws of look-up -/

theorem find_eq_none_of_lt {k : κ} {es : List (κ × α)}
    (h : ∀ e ∈ es, Key.order k e.1 = .lt) : find k es = none := by
  cases es with
  | nil => rfl
  | cons e r => simp [find, h e List.mem_cons_self]

theorem find_alter (k j : κ) (f : Option α → α) {es : List (κ × α)}
    (h : es.Pairwise (fun a b => Key.order a.1 b.1 = .lt)) :
    find j (alter k f es) =
      if Key.order j k = .eq then some (f (find k es)) else find j es := by
  induction es with
  | nil =>
    simp only [alter, find]
    split <;> simp_all
  | cons e r ih =>
    obtain ⟨i, v⟩ := e
    obtain ⟨hi, hr⟩ := List.pairwise_cons.mp h
    rw [alter]
    by_cases hjk : Key.order j k = .eq
    · have hjk' : j = k := Key.eq_of_order hjk
      subst hjk'
      rw [if_pos hjk]
      split
      · rename_i hk; simp [find, hk, hjk]
      · rename_i hk; simp [find, hk]
      · rename_i hk; simp [find, hk, ih hr, hjk]
    · rw [if_neg hjk]
      split
      · rename_i hk
        cases hjk' : Key.order j k with
        | lt => simp [find, hjk', Key.order_trans hjk' hk]
        | eq => exact absurd hjk' hjk
        | gt => simp [find, hjk']
      · rename_i hk
        have : k = i := Key.eq_of_order hk
        subst this
        cases hjk' : Key.order j k with
        | lt => simp [find, hjk']
        | eq => exact absurd hjk' hjk
        | gt => simp [find, hjk']
      · rename_i hk
        simp only [find, ih hr, if_neg hjk]

@[simp] theorem get?_empty (k : κ) : (empty : Table κ α).get? k = none := rfl

section

variable [DecidableEq κ]

theorem get?_update (t : Table κ α) (k j : κ) (f : Option α → α) :
    (t.update k f).get? j = if j = k then some (f (t.get? k)) else t.get? j := by
  rw [get?, update, find_alter k j f t.ascending]
  by_cases h : j = k
  · subst h; simp [Key.order_self, get?]
  · rw [if_neg (fun hc => h (Key.eq_of_order hc)), if_neg h]; rfl

theorem get?_insert (t : Table κ α) (k j : κ) (v : α) :
    (t.insert k v).get? j = if j = k then some v else t.get? j := get?_update t k j _

end

/-! ## Equal answers make equal tables -/

private theorem find_head {k : κ} {v : α} {r : List (κ × α)} :
    find k ((k, v) :: r) = some v := by simp [find, Key.order_self]

private theorem find_tail {k : κ} {e : κ × α} {r : List (κ × α)}
    (h : Key.order e.1 k = .lt) : find k (e :: r) = find k r := by
  have : Key.order k e.1 = .gt := by rw [Key.order_swap e.1 k, h]; rfl
  simp [find, this]

private theorem find_before {k : κ} {es : List (κ × α)} {e : κ × α} {r : List (κ × α)}
    (he : es = e :: r) (h : Key.order k e.1 = .lt) : find k es = none := by
  subst he; simp [find, h]

theorem entries_eq_of_find_eq {es fs : List (κ × α)}
    (he : es.Pairwise (fun a b => Key.order a.1 b.1 = .lt))
    (hf : fs.Pairwise (fun a b => Key.order a.1 b.1 = .lt))
    (h : ∀ k, find k es = find k fs) : es = fs := by
  induction es generalizing fs with
  | nil =>
    cases fs with
    | nil => rfl
    | cons e r => simpa [find, Key.order_self] using h e.1
  | cons e r ih =>
    cases fs with
    | nil => simpa [find, Key.order_self] using h e.1
    | cons g q =>
      obtain ⟨he', hr⟩ := List.pairwise_cons.mp he
      obtain ⟨hg', hq⟩ := List.pairwise_cons.mp hf
      have hkey : e.1 = g.1 := by
        cases hc : Key.order e.1 g.1 with
        | eq => exact Key.eq_of_order hc
        | lt =>
          have := h e.1
          rw [find_before rfl hc, find_head] at this
          exact absurd this (by simp)
        | gt =>
          have hc' := order_gt hc
          have := h g.1
          rw [find_before (e := e) rfl hc', find_head] at this
          exact absurd this (by simp)
      obtain ⟨k, v⟩ := e
      obtain ⟨k', w⟩ := g
      obtain rfl : k = k' := hkey
      have hv : v = w := by simpa [find_head] using h k
      subst hv
      congr 1
      refine ih hr hq fun j => ?_
      cases hj : Key.order k j with
      | lt => simpa [find_tail (e := (k, v)) hj] using h j
      | eq =>
        obtain rfl := Key.eq_of_order hj
        rw [find_eq_none_of_lt he', find_eq_none_of_lt hg']
      | gt =>
        have hj' := order_gt hj
        rw [find_eq_none_of_lt fun e he => Key.order_trans hj' (he' e he),
          find_eq_none_of_lt fun e he => Key.order_trans hj' (hg' e he)]

@[ext] theorem ext {t u : Table κ α} (h : ∀ k, t.get? k = u.get? k) : t = u := by
  obtain ⟨es, he⟩ := t
  obtain ⟨fs, hf⟩ := u
  have : es = fs := entries_eq_of_find_eq he hf h
  subst this; rfl

end Table

end RequestMeter
