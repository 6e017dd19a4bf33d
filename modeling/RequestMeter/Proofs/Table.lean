import RequestMeter.Table
import Mathlib.Data.Set.Card
import Mathlib.Algebra.BigOperators.Group.List.Basic
import Mathlib.Data.List.Induction

/-! # Tables as finite maps

An entry is in a table exactly when its key looks up to its value, so erasing, counting keys and
adding up values can be done by look-ups alone.
-/
namespace RequestMeter.Table

variable {κ : Type} [Key κ] {α : Type}

/-! ## Entries and look-ups -/

private theorem order_irrefl {a : κ} : Key.order a a ≠ .lt := by
  rw [Key.order_self]
  decide

theorem find_eq_some_iff {k : κ} {v : α} {es : List (κ × α)}
    (h : es.Pairwise (fun a b => Key.order a.1 b.1 = .lt)) :
    find k es = some v ↔ (k, v) ∈ es := by
  induction es with
  | nil => simp [find]
  | cons e r ih =>
    rcases e with ⟨j, w⟩
    rcases List.pairwise_cons.mp h with ⟨hj, hr⟩
    rw [find, List.mem_cons, Prod.mk.injEq]
    split
    · rename_i hk
      constructor
      · intro hv
        cases hv
      · rintro (⟨rfl, -⟩ | hm)
        · exact absurd hk order_irrefl
        · exact absurd (Key.order_trans hk (hj _ hm)) order_irrefl
    · rename_i hk
      obtain rfl := Key.eq_of_order hk
      constructor
      · intro hv
        exact .inl ⟨rfl, (Option.some.inj hv).symm⟩
      · rintro (⟨-, rfl⟩ | hm)
        · rfl
        · exact absurd (hj _ hm) order_irrefl
    · rename_i hk
      rw [ih hr]
      constructor
      · exact .inr
      · rintro (⟨rfl, -⟩ | hm)
        · rw [Key.order_self] at hk
          cases hk
        · exact hm

theorem mem_entries_iff {t : Table κ α} {k : κ} {v : α} :
    (k, v) ∈ t.entries ↔ t.get? k = some v := (find_eq_some_iff t.ascending).symm

theorem mem_keys_iff {t : Table κ α} {k : κ} : k ∈ t.keys ↔ t.get? k ≠ none := by
  simp only [keys, List.mem_map, Option.ne_none_iff_exists', ← mem_entries_iff]
  constructor
  · rintro ⟨⟨j, v⟩, hm, rfl⟩
    exact ⟨v, hm⟩
  · rintro ⟨v, hm⟩
    exact ⟨(k, v), hm, rfl⟩

theorem nodup_keys (t : Table κ α) : t.keys.Nodup := by
  refine List.pairwise_map.mpr (t.ascending.imp fun {a b} h he => ?_)
  rw [he] at h
  exact order_irrefl h

/-- The size of a table is the number of keys that look up to something. -/
theorem encard_keys (t : Table κ α) : {k | t.get? k ≠ none}.encard = t.size := by
  classical
  have hs : {k | t.get? k ≠ none} = (t.keys.toFinset : Set κ) := by
    ext k
    simp [mem_keys_iff]
  rw [hs, Set.encard_coe_eq_coe_finsetCard, List.toFinset_card_of_nodup t.nodup_keys, keys,
    List.length_map, size]

theorem get?_erase [DecidableEq κ] (t : Table κ α) (k j : κ) :
    (t.erase k).get? j = if j = k then none else t.get? j := by
  ext v
  rw [← mem_entries_iff]
  change (j, v) ∈ t.entries.filter _ ↔ _
  rw [List.mem_filter]
  by_cases h : j = k
  · subst h
    simp [Key.order_self]
  · have ho : Key.order k j ≠ .eq := fun he => h (Key.eq_of_order he).symm
    simp [h, ho, mem_entries_iff]

/-! ## Adding up -/

/-- The sum of a weight over all entries. -/
def sum (w : κ → α → Nat) (t : Table κ α) : Nat := (t.entries.map fun e => w e.1 e.2).sum

private theorem sum_alter (w : κ → α → Nat) (k : κ) (f : Option α → α) (es : List (κ × α)) :
    ((alter k f es).map fun e => w e.1 e.2).sum + (find k es).elim 0 (w k) =
      (es.map fun e => w e.1 e.2).sum + w k (f (find k es)) := by
  induction es with
  | nil => simp [alter, find]
  | cons e r ih =>
    rcases e with ⟨j, v⟩
    rw [alter, find]
    split
    · simp only [List.map_cons, List.sum_cons, Option.elim_none]
      omega
    · rename_i hk
      obtain rfl := Key.eq_of_order hk
      simp only [List.map_cons, List.sum_cons, Option.elim_some]
      omega
    · simp only [List.map_cons, List.sum_cons]
      omega

/-- An update takes the weight of the old value away and adds that of the new one. -/
theorem sum_update (w : κ → α → Nat) (t : Table κ α) (k : κ) (f : Option α → α) :
    (t.update k f).sum w + (t.get? k).elim 0 (w k) = t.sum w + w k (f (t.get? k)) :=
  sum_alter w k f t.entries

/-! ## Tables of counts -/

theorem get?_tick [DecidableEq κ] (t : Table κ Nat) (k j : κ) :
    (t.tick k).get? j = if j = k then some ((t.get? k).getD 0 + 1) else t.get? j :=
  get?_update t k j _

/-- One more at `k` is one more in the sum of the counts at the keys with a property, if `k` has
it. -/
theorem sum_tick (p : κ → Bool) (t : Table κ Nat) (k : κ) :
    (t.tick k).sum (fun j n => if p j then n else 0) =
      t.sum (fun j n => if p j then n else 0) + if p k then 1 else 0 := by
  have h := sum_update (fun j n => if p j then n else 0) t k fun n => n.getD 0 + 1
  rw [← tick] at h
  cases hg : t.get? k with
  | none => cases hp : p k <;> simp_all
  | some n =>
    simp only [hg, Option.elim_some, Option.getD_some] at h
    cases hp : p k
    · simpa [hp] using h
    · simp only [hp, if_true] at h ⊢
      omega

/-- A count as a table of counts shows it: zero has no entry. -/
def shown? (n : Nat) : Option Nat := if n = 0 then none else some n

theorem getD_shown? (n : Nat) : (shown? n).getD 0 = n := by
  unfold shown?
  split <;> simp [*]

theorem shown?_succ (n : Nat) : shown? (n + 1) = some (n + 1) := rfl

def counts (ks : List κ) : Table κ Nat := ks.foldl tick empty

theorem counts_concat (ks : List κ) (k : κ) : counts (ks ++ [k]) = (counts ks).tick k :=
  List.foldl_append

theorem get?_counts [DecidableEq κ] (ks : List κ) (k : κ) :
    (counts ks).get? k = shown? (ks.count k) := by
  induction ks using List.reverseRecOn generalizing k with
  | nil => rfl
  | append_singleton ks j ih =>
    rw [counts_concat, get?_tick, ih j, ih k, getD_shown?, List.count_append, List.count_singleton]
    by_cases h : k = j
    · subst h
      simp [shown?_succ]
    · simp [h, Ne.symm h]

theorem counts_perm {ks js : List κ} (h : ks.Perm js) : counts ks = counts js := by
  classical
  ext k : 1
  rw [get?_counts, get?_counts, h.count_eq]

theorem sum_counts (p : κ → Bool) (ks : List κ) :
    ((counts ks).sum fun j n => if p j then n else 0) = ks.countP p := by
  induction ks using List.reverseRecOn with
  | nil => rfl
  | append_singleton ks k ih =>
    rw [counts_concat, sum_tick, ih, List.countP_append, List.countP_singleton]

theorem sum_counts_eq_length (ks : List κ) : ((counts ks).sum fun _ n => n) = ks.length := by
  simpa using sum_counts (fun _ => true) ks

/-! ## Merging -/

private theorem find_foldl_insert [DecidableEq κ] {es : List (κ × α)} (t : Table κ α) (k : κ)
    (h : es.Pairwise (fun a b => Key.order a.1 b.1 = .lt)) :
    (es.foldl (fun t e => t.insert e.1 e.2) t).get? k = (find k es).or (t.get? k) := by
  induction es generalizing t with
  | nil => rfl
  | cons e r ih =>
    rcases e with ⟨j, v⟩
    rcases List.pairwise_cons.mp h with ⟨hj, hr⟩
    rw [List.foldl_cons, ih _ hr, get?_insert, find]
    cases hk : Key.order k j with
    | lt =>
      have ne : k ≠ j := by
        rintro rfl
        exact order_irrefl hk
      rw [if_neg ne, find_eq_none_of_lt fun e he => Key.order_trans hk (hj e he)]
    | eq =>
      obtain rfl := Key.eq_of_order hk
      rw [if_pos rfl, find_eq_none_of_lt hj]
      rfl
    | gt =>
      have ne : k ≠ j := by
        rintro rfl
        rw [Key.order_self] at hk
        cases hk
      rw [if_neg ne]

theorem get?_merge [DecidableEq κ] (t u : Table κ α) (k : κ) :
    (t.merge u).get? k = (u.get? k).or (t.get? k) :=
  find_foldl_insert t k u.ascending

/-! ## Tables of a function -/

def tabulate (f : κ → α) (ks : List κ) : Table κ α := ks.foldl (fun t k => t.insert k (f k)) empty

theorem tabulate_concat (f : κ → α) (ks : List κ) (k : κ) :
    tabulate f (ks ++ [k]) = (tabulate f ks).insert k (f k) := List.foldl_append

theorem get?_tabulate [DecidableEq κ] (f : κ → α) (ks : List κ) (k : κ) :
    (tabulate f ks).get? k = if k ∈ ks then some (f k) else none := by
  induction ks using List.reverseRecOn with
  | nil => rfl
  | append_singleton ks j ih =>
    rw [tabulate_concat, get?_insert, ih]
    by_cases h : k = j
    · subst h
      simp
    · simp [h]

theorem mem_keys_tabulate {f : κ → α} {ks : List κ} {k : κ} : k ∈ (tabulate f ks).keys ↔ k ∈ ks := by
  classical
  rw [mem_keys_iff, get?_tabulate]
  split <;> simp [*]

/-- What a table of a function holds is the function at its keys. -/
theorem values_tabulate (f : κ → α) (ks : List κ) :
    (tabulate f ks).values = (tabulate f ks).keys.map f := by
  classical
  rw [values, keys, List.map_map]
  apply List.map_congr_left
  rintro ⟨k, v⟩ he
  have hv := mem_entries_iff.mp he
  rw [get?_tabulate] at hv
  split at hv
  · exact (Option.some.inj hv).symm
  · cases hv

theorem tabulate_congr {f : κ → α} {ks js : List κ} (h : ∀ k, k ∈ ks ↔ k ∈ js) :
    tabulate f ks = tabulate f js := by
  classical
  ext k : 1
  rw [get?_tabulate, get?_tabulate]
  exact if_congr (h k) rfl rfl

theorem merge_tabulate (f : κ → α) (ks js : List κ) :
    (tabulate f ks).merge (tabulate f js) = tabulate f (ks ++ js) := by
  classical
  ext k : 1
  rw [get?_merge, get?_tabulate, get?_tabulate, get?_tabulate]
  by_cases hj : k ∈ js <;> by_cases hk : k ∈ ks <;> simp [hj, hk]

end RequestMeter.Table
