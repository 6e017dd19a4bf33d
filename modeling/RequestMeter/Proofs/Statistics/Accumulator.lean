import RequestMeter.Proofs.Percentile
import RequestMeter.Proofs.Statistics.Measure
import RequestMeter.Proofs.Table

/-! # What accumulators gather

Adding records one by one gathers the counts, sums, extremes, samples and routes of them all, as long
as the sums fit; and merging two accumulators gathers the records of both.  So an accumulator says of
its records what their list says, however they came into it.
-/
namespace RequestMeter

/-! ## Computations that succeed -/

theorem bind_eq_ok_iff {ε α β : Type} {x : Except ε α} {f : α → Except ε β} {b : β} :
    x >>= f = .ok b ↔ ∃ a, x = .ok a ∧ f a = .ok b := by
  cases x with
  | error e => simp [bind, Except.bind]
  | ok a => simp [bind, Except.bind]

/-- A computation that begins with a sum goes on with it if it fits. -/
theorem addCounts_bind_eq_ok_iff {β : Type} {x n : Nat} {f : Nat → Except Overflow β} {b : β} :
    addCounts x n >>= f = .ok b ↔ x + n ≤ maxCount ∧ f (x + n) = .ok b := by
  rw [bind_eq_ok_iff]
  constructor
  · rintro ⟨s, hs, hf⟩
    rcases addCounts_eq_ok_iff.mp hs with ⟨fits, rfl⟩
    exact ⟨fits, hf⟩
  · rintro ⟨fits, hf⟩
    exact ⟨x + n, addCounts_of_le fits, hf⟩

theorem pure_eq_ok_iff {ε α : Type} {a b : α} : (pure a : Except ε α) = .ok b ↔ b = a := by
  constructor
  · intro h
    cases h
    rfl
  · rintro rfl
    rfl

theorem ok_eq_ok_iff_and {ε α : Type} {a b : α} {p : Prop} (h : p) :
    (.ok a : Except ε α) = .ok b ↔ p ∧ b = a := by
  constructor
  · intro hb
    cases hb
    exact ⟨h, rfl⟩
  · rintro ⟨-, rfl⟩
    rfl

/-! ## Extremes of samples -/

/-- The sample that is left when one of any two is chosen, zero for none. -/
def extreme (choose : Nat → Nat → Nat) : List Nat → Nat
  | [] => 0
  | x :: xs => xs.foldl choose x

theorem extreme_min (xs : List Nat) : extreme min xs = xs.min?.getD 0 := by cases xs <;> rfl

theorem extreme_max (xs : List Nat) : extreme max xs = xs.max?.getD 0 := by cases xs <;> rfl

@[simp] theorem extreme_singleton (choose : Nat → Nat → Nat) (x : Nat) :
    extreme choose [x] = x := rfl

section Extremes

variable {choose : Nat → Nat → Nat} [Std.Associative choose]

theorem extreme_append (xs ys : List Nat) :
    extreme choose (xs ++ ys) =
      if ys.length = 0 then extreme choose xs
      else if xs.length = 0 then extreme choose ys
      else choose (extreme choose xs) (extreme choose ys) := by
  cases ys with
  | nil => simp
  | cons y ys =>
    cases xs with
    | nil => simp
    | cons x xs =>
      rw [if_neg (by simp), if_neg (by simp), List.cons_append, extreme, List.foldl_append,
        List.foldl_cons, List.foldl_assoc]
      rfl

theorem extreme_perm [Std.Commutative choose] {xs ys : List Nat} (h : xs.Perm ys) :
    extreme choose xs = extreme choose ys := by
  induction h with
  | nil => rfl
  | cons x h => exact h.foldl_eq x
  | swap x y xs => exact congrArg (xs.foldl choose ·) (Std.Commutative.comm y x)
  | trans _ _ ih jh => exact ih.trans jh

end Extremes

/-! ## Routes -/

def Record.routes (rs : List Record) : List String := (rs.map (·.prevRoute)).filter (· ≠ "")

theorem Record.routes_append (rs qs : List Record) : routes (rs ++ qs) = routes rs ++ routes qs := by
  rw [routes, List.map_append, List.filter_append]
  rfl

theorem Record.mem_routes {rs : List Record} {p : String} :
    p ∈ routes rs ↔ p ≠ "" ∧ ∃ r ∈ rs, r.prevRoute = p := by
  simp [routes, and_comm]

namespace Accumulator

/-- The accumulator whose parts have gathered records of their own: marks, latencies, first bytes,
inbound and outbound windows. -/
def ofParts (marks times firstBytes inbound outbound : List Record) : Accumulator where
  count := (Measure.latency.values times).length
  sum := Measure.latency.total times
  low := extreme min (Measure.latency.values times)
  high := extreme max (Measure.latency.values times)
  errors := marks.countP (·.isError)
  partials := times.countP (·.latency.isNone)
  samples := (Measure.latency.values times).reverse
  ttfbSum := Measure.firstByte.total firstBytes
  ttfbCount := (Measure.firstByte.values firstBytes).length
  inBytes := Measure.inBytes.total inbound
  inSecs := Measure.inSecs.total inbound
  outBytes := Measure.outBytes.total outbound
  outSecs := Measure.outSecs.total outbound
  prevRoutes := Table.tabulate (fun _ => ()) (Record.routes marks)

def ofRecords (rs : List Record) : Accumulator := ofParts rs rs rs rs rs

theorem ofRecords_nil : ofRecords [] = {} := rfl

/-! ## One more record

Each step of an addition brings the record into one part. -/

section Parts

variable {ms ts fs is os : List Record} {r : Record} {b : Accumulator}

theorem addMarks_ofParts : (ofParts ms ts fs is os).addMarks r = ofParts (ms ++ [r]) ts fs is os := by
  have errors : (ms ++ [r]).countP (·.isError) =
      if r.isError then ms.countP (·.isError) + 1 else ms.countP (·.isError) := by
    rw [List.countP_append, List.countP_singleton]
    split <;> rfl
  have routes : Table.tabulate (fun _ => ()) (Record.routes (ms ++ [r])) =
      if r.prevRoute = "" then Table.tabulate (fun _ => ()) (Record.routes ms)
      else (Table.tabulate (fun _ => ()) (Record.routes ms)).insert r.prevRoute () := by
    rw [Record.routes_append]
    by_cases h : r.prevRoute = ""
    · rw [if_pos h, show Record.routes [r] = [] by simp [Record.routes, h], List.append_nil]
    · rw [if_neg h, show Record.routes [r] = [r.prevRoute] by simp [Record.routes, h],
        Table.tabulate_concat]
  simp only [addMarks, ofParts, errors, routes]

theorem addTimes_ofParts (h : Measure.latency.total ts ≤ maxCount) :
    (ofParts ms ts fs is os).addTimes r = .ok b ↔
      Measure.latency.total (ts ++ [r]) ≤ maxCount ∧ b = ofParts ms (ts ++ [r]) fs is os := by
  have hm : Measure.latency.of? r = r.latency := rfl
  unfold addTimes
  cases hl : r.latency with
  | none =>
    have same : ofParts ms (ts ++ [r]) fs is os =
        { ofParts ms ts fs is os with partials := ts.countP (·.latency.isNone) + 1 } := by
      simp [ofParts, Measure.total_concat, Measure.values_concat, hm, hl]
    rw [same, Measure.total_concat, hm, hl, Option.getD_none, Nat.add_zero]
    exact ok_eq_ok_iff_and h
  | some t =>
    change (ofParts ms ts fs is os).addLatency t = .ok b ↔ _
    rw [addLatency, addCounts_bind_eq_ok_iff, pure_eq_ok_iff, Measure.total_concat, hm, hl]
    apply and_congr_right
    intro _
    simp [ofParts, Measure.total_concat, Measure.values_concat, hm, hl, extreme_append]

theorem addFirstByte_ofParts (h : Measure.firstByte.total fs ≤ maxCount) :
    (ofParts ms ts fs is os).addFirstByte r = .ok b ↔
      Measure.firstByte.total (fs ++ [r]) ≤ maxCount ∧ b = ofParts ms ts (fs ++ [r]) is os := by
  have hm : Measure.firstByte.of? r = r.timeToFirstByte := rfl
  unfold addFirstByte
  cases hf : r.timeToFirstByte with
  | none =>
    have same : ofParts ms ts (fs ++ [r]) is os = ofParts ms ts fs is os := by
      simp [ofParts, Measure.total_concat, Measure.values_concat, hm, hf]
    rw [same, Measure.total_concat, hm, hf, Option.getD_none, Nat.add_zero]
    exact ok_eq_ok_iff_and h
  | some t =>
    change addCounts (ofParts ms ts fs is os).ttfbSum t >>= _ = .ok b ↔ _
    rw [addCounts_bind_eq_ok_iff, pure_eq_ok_iff, Measure.total_concat, hm, hf]
    apply and_congr_right
    intro _
    simp [ofParts, Measure.total_concat, Measure.values_concat, hm, hf]

/-- The sums over a window, if there is one.  This is one addition for the inbound and the outbound
part. -/
theorem windowSums_eq_ok_iff {α : Type} {window : Option Nat} {bytes x y : Nat} {f : Nat → Nat → α}
    {b : α} (hx : x ≤ maxCount) (hy : y ≤ maxCount) :
    (match window with
      | some secs => do return f (← addCounts x bytes) (← addCounts y secs)
      | none => .ok (f x y)) = Except.ok (ε := Overflow) b ↔
    (x + (window.map fun _ => bytes).getD 0 ≤ maxCount ∧ y + window.getD 0 ≤ maxCount) ∧
      b = f (x + (window.map fun _ => bytes).getD 0) (y + window.getD 0) := by
  cases window with
  | none =>
    simp only [Option.map_none, Option.getD_none, Nat.add_zero]
    exact ok_eq_ok_iff_and ⟨hx, hy⟩
  | some secs =>
    simp only [Option.map_some, Option.getD_some]
    rw [addCounts_bind_eq_ok_iff, addCounts_bind_eq_ok_iff, pure_eq_ok_iff, and_assoc]

theorem addInbound_ofParts (hb : Measure.inBytes.total is ≤ maxCount)
    (hs : Measure.inSecs.total is ≤ maxCount) :
    (ofParts ms ts fs is os).addInbound r = .ok b ↔
      (Measure.inBytes.total (is ++ [r]) ≤ maxCount ∧ Measure.inSecs.total (is ++ [r]) ≤ maxCount) ∧
        b = ofParts ms ts fs (is ++ [r]) os := by
  have next : ofParts ms ts fs (is ++ [r]) os =
      { ofParts ms ts fs is os with
        inBytes := Measure.inBytes.total (is ++ [r])
        inSecs := Measure.inSecs.total (is ++ [r]) } := rfl
  rw [next, Measure.total_concat, Measure.total_concat]
  exact windowSums_eq_ok_iff hb hs

theorem addOutbound_ofParts (hb : Measure.outBytes.total os ≤ maxCount)
    (hs : Measure.outSecs.total os ≤ maxCount) :
    (ofParts ms ts fs is os).addOutbound r = .ok b ↔
      (Measure.outBytes.total (os ++ [r]) ≤ maxCount ∧
        Measure.outSecs.total (os ++ [r]) ≤ maxCount) ∧
        b = ofParts ms ts fs is (os ++ [r]) := by
  have next : ofParts ms ts fs is (os ++ [r]) =
      { ofParts ms ts fs is os with
        outBytes := Measure.outBytes.total (os ++ [r])
        outSecs := Measure.outSecs.total (os ++ [r]) } := rfl
  rw [next, Measure.total_concat, Measure.total_concat]
  exact windowSums_eq_ok_iff hb hs

end Parts

/-- A record can be added as long as the sums fit, and then it is among the gathered ones. -/
theorem add_ofRecords {rs : List Record} {r : Record} {b : Accumulator} (h : Fits rs) :
    (ofRecords rs).add r = .ok b ↔ Fits (rs ++ [r]) ∧ b = ofRecords (rs ++ [r]) := by
  rw [add, ofRecords, addMarks_ofParts, fits_iff]
  constructor
  · intro hb
    obtain ⟨times, ht, hb⟩ := bind_eq_ok_iff.mp hb
    obtain ⟨latency, rfl⟩ := (addTimes_ofParts (h _)).mp ht
    obtain ⟨firstBytes, hf, hb⟩ := bind_eq_ok_iff.mp hb
    obtain ⟨firstByte, rfl⟩ := (addFirstByte_ofParts (h _)).mp hf
    obtain ⟨inbound, hi, ho⟩ := bind_eq_ok_iff.mp hb
    obtain ⟨ins, rfl⟩ := (addInbound_ofParts (h _) (h _)).mp hi
    obtain ⟨outs, rfl⟩ := (addOutbound_ofParts (h _) (h _)).mp ho
    exact ⟨⟨latency, firstByte, ins, outs⟩, rfl⟩
  · rintro ⟨⟨latency, firstByte, ins, outs⟩, rfl⟩
    apply bind_eq_ok_iff.mpr
    refine ⟨_, (addTimes_ofParts (h _)).mpr ⟨latency, rfl⟩, bind_eq_ok_iff.mpr ?_⟩
    refine ⟨_, (addFirstByte_ofParts (h _)).mpr ⟨firstByte, rfl⟩, bind_eq_ok_iff.mpr ?_⟩
    exact ⟨_, (addInbound_ofParts (h _) (h _)).mpr ⟨ins, rfl⟩,
      (addOutbound_ofParts (h _) (h _)).mpr ⟨outs, rfl⟩⟩

/-! ## Two accumulators -/

/-- Merging gathers the records of both, as long as the sums over all of them fit. -/
theorem merge_ofRecords {rs qs : List Record} {b : Accumulator} :
    (ofRecords rs).merge (ofRecords qs) = .ok b ↔ Fits (rs ++ qs) ∧ b = ofRecords (rs ++ qs) := by
  rw [merge, fits_iff]
  simp only [addCounts_bind_eq_ok_iff, pure_eq_ok_iff, ofRecords, ofParts, mergeLow, mergeHigh,
    Measure.values_append, Measure.total_append, List.length_append, List.countP_append,
    List.reverse_append, extreme_append, Record.routes_append, Table.merge_tabulate]
  constructor
  · rintro ⟨latency, firstByte, inBytes, inSecs, outBytes, outSecs, hb⟩
    exact ⟨⟨latency, firstByte, ⟨inBytes, inSecs⟩, outBytes, outSecs⟩, hb⟩
  · rintro ⟨⟨latency, firstByte, ⟨inBytes, inSecs⟩, outBytes, outSecs⟩, hb⟩
    exact ⟨latency, firstByte, inBytes, inSecs, outBytes, outSecs, hb⟩

/-- Merging any number of accumulators in turn gathers the records of them all. -/
theorem foldlM_merge_ofRecords {rs : List Record} {parts : List (List Record)} {b : Accumulator}
    (h : Fits rs) :
    (parts.map ofRecords).foldlM merge (ofRecords rs) = .ok b ↔
      Fits (rs ++ parts.flatten) ∧ b = ofRecords (rs ++ parts.flatten) := by
  induction parts generalizing rs with
  | nil =>
    rw [List.flatten_nil, List.append_nil]
    exact ok_eq_ok_iff_and h
  | cons qs parts ih =>
    rw [List.map_cons, List.foldlM_cons, List.flatten_cons, ← List.append_assoc, bind_eq_ok_iff]
    constructor
    · rintro ⟨a, ha, hb⟩
      obtain ⟨fits, rfl⟩ := merge_ofRecords.mp ha
      exact (ih fits).mp hb
    · rintro ⟨fits, rfl⟩
      have first : Fits (rs ++ qs) := fits.of_sublist (List.sublist_append_left _ _)
      exact ⟨_, merge_ofRecords.mpr ⟨first, rfl⟩, (ih first).mpr ⟨fits, rfl⟩⟩

end Accumulator

end RequestMeter
