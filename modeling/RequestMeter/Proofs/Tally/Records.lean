import RequestMeter.Record.Basic
import RequestMeter.Tally
import RequestMeter.Proofs.Table

/-! # Tallies of records

The tally of a list of records is a table of counts in every part: by status and by class for each
endpoint, and by transport.  Every part adds up to the number of records that it counts.
-/
namespace RequestMeter

/-- The status under which a record is counted; a missing one counts as 0. -/
def Record.countedStatus (r : Record) : UInt16 := r.status.getD 0

/-! ## One endpoint -/

namespace EndpointTally

@[simp] theorem total_add (t : EndpointTally) (status : Option UInt16) :
    (t.add status).total = t.total + 1 := rfl

@[simp] theorem byStatus_add (t : EndpointTally) (status : Option UInt16) :
    (t.add status).byStatus = t.byStatus.tick (status.getD 0) := rfl

@[simp] theorem byClass_add (t : EndpointTally) (status : Option UInt16) :
    (t.add status).byClass = t.byClass.tick (StatusClass.ofStatus (status.getD 0)) := rfl

def ofRecords (rs : List Record) : EndpointTally := rs.foldl (fun t r => t.add r.status) {}

theorem ofRecords_concat (rs : List Record) (r : Record) :
    ofRecords (rs ++ [r]) = (ofRecords rs).add r.status := List.foldl_append

theorem total_ofRecords (rs : List Record) : (ofRecords rs).total = rs.length := by
  induction rs using List.reverseRecOn with
  | nil => rfl
  | append_singleton rs r ih =>
    rw [ofRecords_concat, total_add, ih, List.length_append, List.length_singleton]

theorem byStatus_ofRecords (rs : List Record) :
    (ofRecords rs).byStatus = Table.counts (rs.map Record.countedStatus) := by
  induction rs using List.reverseRecOn with
  | nil => rfl
  | append_singleton rs r ih =>
    rw [ofRecords_concat, byStatus_add, ih, List.map_append, List.map_singleton,
      Table.counts_concat, Record.countedStatus]

theorem byClass_ofRecords (rs : List Record) :
    (ofRecords rs).byClass =
      Table.counts (rs.map fun r => StatusClass.ofStatus r.countedStatus) := by
  induction rs using List.reverseRecOn with
  | nil => rfl
  | append_singleton rs r ih =>
    rw [ofRecords_concat, byClass_add, ih, List.map_append, List.map_singleton,
      Table.counts_concat, Record.countedStatus]

theorem ofRecords_perm {rs qs : List Record} (h : rs.Perm qs) : ofRecords rs = ofRecords qs := by
  have total : (ofRecords rs).total = (ofRecords qs).total := by
    rw [total_ofRecords, total_ofRecords, h.length_eq]
  have byStatus : (ofRecords rs).byStatus = (ofRecords qs).byStatus := by
    rw [byStatus_ofRecords, byStatus_ofRecords, Table.counts_perm (h.map _)]
  have byClass : (ofRecords rs).byClass = (ofRecords qs).byClass := by
    rw [byClass_ofRecords, byClass_ofRecords, Table.counts_perm (h.map _)]
  cases hr : ofRecords rs
  cases hq : ofRecords qs
  simp_all

/-- A class counts what its statuses count together. -/
theorem get?_byClass_ofRecords (rs : List Record) (l : StatusClass) :
    (ofRecords rs).byClass.get? l =
      Table.shown? ((ofRecords rs).byStatus.sum fun s n =>
        if StatusClass.ofStatus s = l then n else 0) := by
  have hs := Table.sum_counts (fun s => decide (StatusClass.ofStatus s = l))
    (rs.map Record.countedStatus)
  simp only [decide_eq_true_eq] at hs
  rw [byClass_ofRecords, byStatus_ofRecords, Table.get?_counts, hs, List.countP_map, List.count,
    List.countP_map]
  rfl

end EndpointTally

/-! ## All endpoints -/

namespace Tally

section Add

variable (t : Tally) (transport : Option Transport) (endpoint : String) (status : Option UInt16)

@[simp] theorem total_add : (t.add transport endpoint status).total = t.total + 1 := rfl

@[simp] theorem evicted_add : (t.add transport endpoint status).evicted = t.evicted := rfl

@[simp] theorem byTransport_add_none :
    (t.add none endpoint status).byTransport = t.byTransport := rfl

@[simp] theorem byTransport_add_some (s : Transport) :
    (t.add (some s) endpoint status).byTransport = t.byTransport.tick s := rfl

@[simp] theorem byEndpoint_add :
    (t.add transport endpoint status).byEndpoint =
      t.byEndpoint.update endpoint fun e => (e.getD {}).add status := rfl

end Add

def ofRecords (rs : List Record) : Tally :=
  rs.foldl (fun t r => t.add r.transport r.bucket r.status) {}

theorem ofRecords_concat (rs : List Record) (r : Record) :
    ofRecords (rs ++ [r]) = (ofRecords rs).add r.transport r.bucket r.status := List.foldl_append

theorem total_ofRecords (rs : List Record) : (ofRecords rs).total = rs.length := by
  induction rs using List.reverseRecOn with
  | nil => rfl
  | append_singleton rs r ih =>
    rw [ofRecords_concat, total_add, ih, List.length_append, List.length_singleton]

theorem byTransport_ofRecords (rs : List Record) :
    (ofRecords rs).byTransport = Table.counts (rs.filterMap (·.transport)) := by
  induction rs using List.reverseRecOn with
  | nil => rfl
  | append_singleton rs r ih =>
    rw [ofRecords_concat, List.filterMap_append]
    cases ht : r.transport with
    | none => simpa [ht] using ih
    | some t => simp [ht, ih, Table.counts_concat]

/-- An endpoint has the tally of its own records, if there are any. -/
theorem get?_byEndpoint_ofRecords (rs : List Record) (k : String) :
    (ofRecords rs).byEndpoint.get? k =
      if rs.filter (·.bucket = k) = [] then none
      else some (EndpointTally.ofRecords (rs.filter (·.bucket = k))) := by
  induction rs using List.reverseRecOn with
  | nil => rfl
  | append_singleton rs r ih =>
    rw [ofRecords_concat, byEndpoint_add, Table.get?_update, List.filter_append]
    by_cases h : r.bucket = k
    · subst h
      rw [if_pos rfl, ih]
      by_cases hn : rs.filter (·.bucket = r.bucket) = []
      · simp [hn, EndpointTally.ofRecords]
      · simp [hn, EndpointTally.ofRecords_concat]
    · simpa [h, Ne.symm h] using ih

/-- A part of every endpoint's tally that counts keys of its records counts, for one endpoint, the
records of that endpoint by their keys. -/
theorem get?_part_ofRecords {κ : Type} [Key κ] [DecidableEq κ] {part : EndpointTally → Table κ Nat}
    {key : Record → κ} (h : ∀ rs, part (EndpointTally.ofRecords rs) = Table.counts (rs.map key))
    (rs : List Record) (k : String) (x : κ) :
    ((ofRecords rs).byEndpoint.get? k).bind (fun e => (part e).get? x) =
      Table.shown? (rs.countP fun r => r.bucket = k ∧ key r = x) := by
  have count : rs.countP (fun r => r.bucket = k ∧ key r = x) =
      ((rs.filter (·.bucket = k)).map key).count x := by
    rw [List.count, List.countP_map, List.countP_filter]
    congr 1
    funext r
    by_cases hk : r.bucket = k <;> simp [hk, Bool.beq_eq_decide_eq]
  rw [count, get?_byEndpoint_ofRecords]
  by_cases hn : rs.filter (·.bucket = k) = []
  · simp [hn, Table.shown?]
  · rw [if_neg hn, Option.bind_some, h, Table.get?_counts]

@[simp] theorem evicted_ofRecords (rs : List Record) : (ofRecords rs).evicted = 0 := by
  induction rs using List.reverseRecOn with
  | nil => rfl
  | append_singleton rs r ih => rw [ofRecords_concat, evicted_add, ih]

theorem ofRecords_perm {rs qs : List Record} (h : rs.Perm qs) : ofRecords rs = ofRecords qs := by
  have total : (ofRecords rs).total = (ofRecords qs).total := by
    rw [total_ofRecords, total_ofRecords, h.length_eq]
  have evicted : (ofRecords rs).evicted = (ofRecords qs).evicted := by
    rw [evicted_ofRecords, evicted_ofRecords]
  have byTransport : (ofRecords rs).byTransport = (ofRecords qs).byTransport := by
    rw [byTransport_ofRecords, byTransport_ofRecords, Table.counts_perm (h.filterMap _)]
  have byEndpoint : (ofRecords rs).byEndpoint = (ofRecords qs).byEndpoint := by
    ext k : 1
    have hk : (rs.filter (·.bucket = k)).Perm (qs.filter (·.bucket = k)) := h.filter _
    have empty : rs.filter (·.bucket = k) = [] ↔ qs.filter (·.bucket = k) = [] := by
      rw [← List.length_eq_zero_iff, hk.length_eq, List.length_eq_zero_iff]
    rw [get?_byEndpoint_ofRecords, get?_byEndpoint_ofRecords, EndpointTally.ofRecords_perm hk]
    exact if_congr empty rfl rfl
  cases hr : ofRecords rs
  cases hq : ofRecords qs
  simp_all

theorem sum_byEndpoint_ofRecords (rs : List Record) :
    ((ofRecords rs).byEndpoint.sum fun _ e => e.total) = rs.length := by
  induction rs using List.reverseRecOn with
  | nil => rfl
  | append_singleton rs r ih =>
    have hu := Table.sum_update (fun _ e => e.total) (ofRecords rs).byEndpoint r.bucket
      fun e => (e.getD {}).add r.status
    rw [ofRecords_concat, byEndpoint_add, List.length_append, List.length_singleton]
    cases hg : (ofRecords rs).byEndpoint.get? r.bucket with
    | none =>
      simp only [hg, ih, Option.elim_none, Option.getD_none, EndpointTally.total_add] at hu
      omega
    | some e =>
      simp only [hg, ih, Option.elim_some, Option.getD_some, EndpointTally.total_add] at hu
      omega

end Tally

end RequestMeter
