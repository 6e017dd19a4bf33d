import RequestMeter.Proofs.Report.Names

/-! # Values of a report

The first value put under a key is the one that a report shows.  So a counter always shows, and a
metric of an endpoint shows wherever no counter has its key.
-/
namespace RequestMeter.Report

def firstValue? (key : String) (slots : List (Slot × Binary64)) : Option Binary64 :=
  (slots.find? fun e => e.1.key = key).map (·.2)

@[simp] theorem firstValue?_nil (key : String) : firstValue? key [] = none := rfl

theorem firstValue?_cons (key : String) (slot : Slot) (x : Binary64)
    (rest : List (Slot × Binary64)) :
    firstValue? key ((slot, x) :: rest) =
      if slot.key = key then some x else firstValue? key rest := by
  by_cases h : slot.key = key <;> simp [firstValue?, h]

theorem firstValue?_append (key : String) (xs ys : List (Slot × Binary64)) :
    firstValue? key (xs ++ ys) = (firstValue? key xs).or (firstValue? key ys) := by
  induction xs with
  | nil => simp
  | cons e xs ih =>
    rcases e with ⟨slot, x⟩
    rw [List.cons_append, firstValue?_cons, firstValue?_cons, ih]
    split <;> rfl

/-- A value shows when no other one is put under its key. -/
theorem firstValue?_eq_some {slots : List (Slot × Binary64)} {slot : Slot} {x : Binary64}
    (hm : (slot, x) ∈ slots)
    (unique : ∀ other y, (other, y) ∈ slots → other.key = slot.key → y = x) :
    firstValue? slot.key slots = some x := by
  induction slots with
  | nil => cases hm
  | cons e slots ih =>
    rcases e with ⟨other, y⟩
    rw [firstValue?_cons]
    by_cases h : other.key = slot.key
    · rw [if_pos h, unique other y List.mem_cons_self h]
    · rw [if_neg h]
      refine ih ?_ fun o z hz => unique o z (List.mem_cons_of_mem _ hz)
      rcases List.mem_cons.mp hm with he | hm
      · cases he
        exact absurd rfl h
      · exact hm

theorem firstValue?_eq_none {slots : List (Slot × Binary64)} {key : String}
    (h : ∀ slot x, (slot, x) ∈ slots → slot.key ≠ key) : firstValue? key slots = none := by
  induction slots with
  | nil => rfl
  | cons e slots ih =>
    rcases e with ⟨slot, x⟩
    rw [firstValue?_cons, if_neg (h slot x List.mem_cons_self)]
    exact ih fun s y hy => h s y (List.mem_cons_of_mem _ hy)

/-! ## Putting values in -/

theorem get?_put (r : Report) (slot : Slot) (x : Binary64) (key : String) :
    (r.put slot x).1.get? key = (r.get? key).or (if slot.key = key then some x else none) := by
  unfold put
  split
  · rename_i h
    by_cases hk : slot.key = key
    · subst hk
      simp [get?, Table.get?_insert, h]
    · simp [get?, Table.get?_insert, hk, Ne.symm hk]
  · rename_i y h
    by_cases hk : slot.key = key
    · subst hk
      simp [get?, h]
    · simp [hk]

theorem get?_putAll (slots : List (Slot × Binary64)) (r : Report) (key : String) :
    (r.putAll slots).1.get? key = (r.get? key).or (firstValue? key slots) := by
  induction slots generalizing r with
  | nil => simp [putAll]
  | cons e slots ih =>
    rcases e with ⟨slot, x⟩
    change ((r.put slot x).1.putAll slots).1.get? key = _
    rw [ih, get?_put, firstValue?_cons, Option.or_assoc]
    by_cases hk : slot.key = key <;> simp [hk]

theorem get?_build (s : Snapshot) (t : Tally) (inFlight : Nat) (key : String) :
    (build s t inFlight).1.get? key =
      (firstValue? key (counterSlots t inFlight)).or (firstValue? key (statsSlots s)) := by
  rw [build, get?_putAll, firstValue?_append]
  rfl

/-! ## Totals -/

theorem get?_build_total (s : Snapshot) (t : Tally) (inFlight : Nat) :
    let r := (build s t inFlight).1
    r.get? "Total/count" = some (.ofNat t.total) ∧
    r.get? "Total/evicted" = some (.ofNat t.evicted) ∧
    r.get? "Total/in_flight" = some (.ofNat inFlight) := by
  have count : (⟨totalScope, "count"⟩ : Slot).key = "Total/count" := by decide
  have evicted : (⟨totalScope, "evicted"⟩ : Slot).key = "Total/evicted" := by decide
  have open_ : (⟨totalScope, "in_flight"⟩ : Slot).key = "Total/in_flight" := by decide
  simp only [get?_build, counterSlots, List.append_assoc, List.cons_append, firstValue?_cons,
    count, evicted, open_]
  exact ⟨rfl, rfl, rfl⟩

/-! ## Statistics -/

theorem mem_statsSlots {s : Snapshot} {slot : Slot} {x : Binary64} :
    (slot, x) ∈ statsSlots s ↔
      ∃ v, s.get? slot.scope = some v ∧ Metric v slot.metric x := by
  simp only [statsSlots, List.mem_flatMap, List.mem_map, Prod.exists, Table.mem_entries_iff,
    ← mem_metrics_iff]
  constructor
  · rintro ⟨k, v, hv, m, y, hm, he⟩
    cases he
    exact ⟨v, hv, hm⟩
  · rintro ⟨v, hv, hm⟩
    exact ⟨slot.scope, v, hv, slot.metric, x, hm, rfl⟩

theorem firstValue?_statsSlots {s : Snapshot} {k m : String} {v : EndpointStats} {x : Binary64}
    (hv : s.get? k = some v) (hm : Metric v m x) :
    firstValue? (Slot.key ⟨k, m⟩) (statsSlots s) = some x := by
  have hslash := slash_notMem_metricNames m hm.mem_metricNames
  refine firstValue?_eq_some (mem_statsSlots.mpr ⟨v, hv, hm⟩) fun other y hy he => ?_
  rcases mem_statsSlots.mp hy with ⟨w, hw, hmw⟩
  have same : other = ⟨k, m⟩ :=
    Slot.key_injective (slash_notMem_metricNames _ hmw.mem_metricNames) hslash he
  subst same
  cases hv.symm.trans hw
  exact hmw.functional hm

/-- A metric of an endpoint shows, unless it is a count and the endpoint is named like the totals or
like a transport. -/
theorem get?_build_metric {s : Snapshot} {k m : String} {v : EndpointStats} {x : Binary64}
    (t : Tally) (inFlight : Nat) (hv : s.get? k = some v) (hm : Metric v m x)
    (free : m = "count" → k ≠ totalScope ∧ ∀ u : Transport, k ≠ u.label) :
    (build s t inFlight).1.get? (Slot.key ⟨k, m⟩) = some x := by
  have none_before : firstValue? (Slot.key ⟨k, m⟩) (counterSlots t inFlight) = none := by
    refine firstValue?_eq_none fun slot y hy he => ?_
    rcases counter_of_mem hy with ⟨n, hc, -⟩
    rcases hc.collides hm.mem_metricNames he with ⟨rfl, hk⟩
    rcases free rfl with ⟨notTotal, notTransport⟩
    rcases hk with hk | ⟨u, hu⟩
    · exact notTotal hk
    · exact notTransport u hu
  rw [get?_build, none_before, Option.none_or, firstValue?_statsSlots hv hm]

end RequestMeter.Report
