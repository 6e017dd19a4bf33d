import RequestMeter.Proofs.Load.Traffic
import RequestMeter.Proofs.Collector.Isolation
import Mathlib.Data.List.FinRange
import Mathlib.Data.List.Nodup

/-! # The streams of the workers

Every worker sends its transactions one after another, and stops anywhere.  However the streams of all
workers are mixed, each transaction is still sent in its order, and of the transactions of one worker at
most one has been started and not ended.
-/
namespace RequestMeter.Traffic

open Collector (eventsOf)

/-- What some workers draw, each for one transaction after another.  No two transactions have the same
id. -/
structure Load (workers errorPct : Nat) where
  draws : Fin workers → List Draw
  possible : ∀ w, ∀ d ∈ draws w, d.Possible errorPct
  distinct : (((List.finRange workers).flatMap draws).map (·.requestId)).Nodup

def Draw.started (es : List Event) (d : Draw) : Bool := es.any fun e => e.requestId = d.requestId

def Draw.ended (es : List Event) (d : Draw) : Bool :=
  es.any fun e => e.requestId = d.requestId ∧ e.stage = .ended

/-! ## Transactions one after another -/

theorem eventsOf_append (id : String) (es fs : List Event) :
    eventsOf id (es ++ fs) = eventsOf id es ++ eventsOf id fs := List.filter_append es fs

theorem eventsOf_transaction (d : Draw) : eventsOf d.requestId (transaction d) = transaction d :=
  List.filter_eq_self.mpr fun e he => by simp [requestId_of_mem_transaction he]

theorem eventsOf_eq_nil {d : Draw} {id : String} (h : d.requestId ≠ id) {es : List Event}
    (hes : es <+: transaction d) : eventsOf id es = [] :=
  List.filter_eq_nil_iff.mpr fun e he => by
    simpa [requestId_of_mem_transaction (hes.subset he)] using h

theorem eventsOf_flatMap_of_not_mem {ds : List Draw} {id : String}
    (h : id ∉ ds.map (·.requestId)) {es : List Event} (hes : es <+: ds.flatMap transaction) :
    eventsOf id es = [] := by
  apply List.filter_eq_nil_iff.mpr
  intro e he
  obtain ⟨d, hd, hed⟩ := List.mem_flatMap.mp (hes.subset he)
  have other : d.requestId ≠ id := fun same => h (same ▸ List.mem_map_of_mem hd)
  simpa [requestId_of_mem_transaction hed] using other

theorem requestId_ne {x d : Draw} {ds : List Draw} (new : x.requestId ∉ ds.map (·.requestId))
    (hd : d ∈ ds) : x.requestId ≠ d.requestId := fun same =>
  new (same ▸ List.mem_map_of_mem hd)

/-- Among draws with different ids there is one of each id. -/
theorem filter_requestId_eq {ds : List Draw} (distinct : (ds.map (·.requestId)).Nodup) {d : Draw}
    (hd : d ∈ ds) : ds.filter (fun x => x.requestId = d.requestId) = [d] := by
  induction ds with
  | nil => cases hd
  | cons x ds ih =>
    rw [List.map_cons, List.nodup_cons] at distinct
    rcases List.mem_cons.mp hd with rfl | later
    · rw [List.filter_cons_of_pos (by simp), List.filter_eq_nil_iff.mpr]
      intro c hc same
      exact distinct.1 (List.mem_map.mpr ⟨c, hc, by simpa using same⟩)
    · have other := requestId_ne distinct.1 later
      rw [List.filter_cons_of_neg (by simpa using other), ih distinct.2 later]

/-- A stream that is cut off in its first transaction, or after it. -/
theorem prefix_cons_cases {d : Draw} {ds : List Draw} {es : List Event}
    (h : es <+: (d :: ds).flatMap transaction) :
    es <+: transaction d ∨ ∃ rest, es = transaction d ++ rest ∧ rest <+: ds.flatMap transaction := by
  rw [List.flatMap_cons] at h
  rcases List.prefix_or_prefix_of_prefix h (List.prefix_append _ _) with within | ⟨rest, rfl⟩
  · exact .inl within
  · exact .inr ⟨rest, rfl, (List.prefix_append_right_inj _).mp h⟩

/-- Each transaction of a stream that is cut off is cut off itself, perhaps before its first event or
after its last one. -/
theorem eventsOf_flatMap_cut {ds : List Draw} (distinct : (ds.map (·.requestId)).Nodup)
    {es : List Event} (h : es <+: ds.flatMap transaction) {d : Draw} (hd : d ∈ ds) :
    eventsOf d.requestId es <+: transaction d := by
  induction ds generalizing es with
  | nil => cases hd
  | cons x ds ih =>
    rw [List.map_cons, List.nodup_cons] at distinct
    rcases List.mem_cons.mp hd with rfl | later
    · rcases prefix_cons_cases h with within | ⟨rest, rfl, hrest⟩
      · rw [eventsOf, List.filter_eq_self.mpr fun e he => by
          simp [requestId_of_mem_transaction (within.subset he)]]
        exact within
      · rw [eventsOf_append, eventsOf_transaction, eventsOf_flatMap_of_not_mem distinct.1 hrest,
          List.append_nil]
    · have other := requestId_ne distinct.1 later
      rcases prefix_cons_cases h with within | ⟨rest, rfl, hrest⟩
      · rw [eventsOf_eq_nil other within]
        exact List.nil_prefix
      · rw [eventsOf_append, eventsOf_eq_nil other (List.prefix_refl _), List.nil_append]
        exact ih distinct.2 hrest later

/-- At most one transaction of a stream has been started and not been sent in full. -/
theorem exists_current {ds : List Draw} (distinct : (ds.map (·.requestId)).Nodup)
    {es : List Event} (h : es <+: ds.flatMap transaction) :
    ∃ current : Option String, ∀ d ∈ ds, eventsOf d.requestId es ≠ [] →
      eventsOf d.requestId es ≠ transaction d → current = some d.requestId := by
  induction ds generalizing es with
  | nil => exact ⟨none, fun d hd => by cases hd⟩
  | cons x ds ih =>
    rw [List.map_cons, List.nodup_cons] at distinct
    rcases prefix_cons_cases h with within | ⟨rest, rfl, hrest⟩
    · refine ⟨some x.requestId, List.forall_mem_cons.mpr ⟨fun _ _ => rfl, fun d hd started => ?_⟩⟩
      exact absurd (eventsOf_eq_nil (requestId_ne distinct.1 hd) within) started
    · obtain ⟨current, only⟩ := ih distinct.2 hrest
      refine ⟨current, List.forall_mem_cons.mpr ⟨fun _ cut => ?_, fun d hd => ?_⟩⟩
      · rw [eventsOf_append, eventsOf_transaction, eventsOf_flatMap_of_not_mem distinct.1 hrest,
          List.append_nil] at cut
        exact absurd rfl cut
      · rw [eventsOf_append, eventsOf_eq_nil (requestId_ne distinct.1 hd) (List.prefix_refl _),
          List.nil_append]
        exact only d hd

namespace Load

variable {workers errorPct : Nat} (load : Load workers errorPct)

def all : List Draw := (List.finRange workers).flatMap load.draws

theorem mem_all {d : Draw} : d ∈ load.all ↔ ∃ w, d ∈ load.draws w := by
  simp [all, List.mem_flatMap, List.mem_finRange]

/-- Events that the workers send, each with its worker.  The events of one worker are its transactions
one after another, cut off anywhere. -/
def Interleaved (sent : List (Fin workers × Event)) : Prop :=
  ∀ w, (sent.filter (·.1 = w)).map (·.2) <+: (load.draws w).flatMap transaction

variable {load} {sent : List (Fin workers × Event)}

/-- What was sent up to some moment is cut off earlier. -/
theorem Interleaved.earlier (h : load.Interleaved sent) {before : List (Fin workers × Event)}
    (hb : before <+: sent) : load.Interleaved before := fun w =>
  ((hb.filter _).map _).trans (h w)

theorem distinct_draws (w : Fin workers) : ((load.draws w).map (·.requestId)).Nodup := by
  have distinct := load.distinct
  rw [List.map_flatMap, List.nodup_flatMap] at distinct
  exact distinct.1 w (List.mem_finRange w)

/-- An id is drawn by one worker only. -/
theorem worker_eq {v w : Fin workers} {c d : Draw} (hc : c ∈ load.draws v) (hd : d ∈ load.draws w)
    (same : c.requestId = d.requestId) : v = w := by
  have distinct := load.distinct
  rw [List.map_flatMap, List.nodup_flatMap] at distinct
  have symm : Std.Symm (Function.onFun List.Disjoint fun v => (load.draws v).map (·.requestId)) :=
    ⟨fun _ _ h => h.symm⟩
  by_contra apart
  have disjoint := distinct.2.forall (List.mem_finRange v) (List.mem_finRange w) apart
  exact disjoint (List.mem_map_of_mem hc) (same ▸ List.mem_map_of_mem hd)

theorem Interleaved.exists_draw (h : load.Interleaved sent) {w : Fin workers} {e : Event}
    (he : (w, e) ∈ sent) : ∃ d ∈ load.draws w, e.requestId = d.requestId := by
  have own : e ∈ (sent.filter (·.1 = w)).map (·.2) :=
    List.mem_map.mpr ⟨(w, e), List.mem_filter.mpr ⟨he, by simp⟩, rfl⟩
  obtain ⟨d, hd, hed⟩ := List.mem_flatMap.mp ((h w).subset own)
  exact ⟨d, hd, requestId_of_mem_transaction hed⟩

theorem Interleaved.eventsOf_eq (h : load.Interleaved sent) {w : Fin workers} {d : Draw}
    (hd : d ∈ load.draws w) : eventsOf d.requestId (sent.map (·.2)) =
      eventsOf d.requestId ((sent.filter (·.1 = w)).map (·.2)) := by
  rw [eventsOf, eventsOf, List.filter_map, List.filter_map, List.filter_filter]
  congr 1
  refine List.filter_congr fun x hx => ?_
  by_cases own : x.2.requestId = d.requestId
  · obtain ⟨c, hc, same⟩ := h.exists_draw hx
    have := worker_eq hc hd (same.symm.trans own)
    simp [own, this]
  · simp [own]

/-- However the streams are mixed, a transaction is sent in its order. -/
theorem Interleaved.eventsOf_cut (h : load.Interleaved sent) {d : Draw} (hd : d ∈ load.all) :
    eventsOf d.requestId (sent.map (·.2)) <+: transaction d := by
  obtain ⟨w, hw⟩ := load.mem_all.mp hd
  rw [h.eventsOf_eq hw]
  exact eventsOf_flatMap_cut (distinct_draws w) (h w) hw

theorem Interleaved.eventsOf_of_not_mem (h : load.Interleaved sent) {id : String}
    (hid : ∀ d ∈ load.all, d.requestId ≠ id) : eventsOf id (sent.map (·.2)) = [] := by
  apply List.filter_eq_nil_iff.mpr
  intro e he
  obtain ⟨⟨w, e⟩, hx, rfl⟩ := List.mem_map.mp he
  obtain ⟨d, hd, same⟩ := h.exists_draw hx
  simpa [same] using hid d (load.mem_all.mpr ⟨w, hd⟩)

end Load

end RequestMeter.Traffic
