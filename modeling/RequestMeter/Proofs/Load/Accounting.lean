import RequestMeter.Proofs.Load.Streams

/-! # Accounting for synthetic traffic

A collector that observes mixed streams of workers accounts for every transaction: what is in flight are
transactions that are under way, one for each worker at most, and what is completed are the records of
the transactions that have ended, each of them whole.
-/
namespace RequestMeter.Collector

/-! ## A transaction that is cut off -/

/-- The events of a request that goes on are its segment. -/
theorem segment_observing_of_open {id : String} {es : List Event}
    (h : ∀ e ∈ es, e.requestId = id ∧ e.stage ≠ .ended ∧ e.stage ≠ .unknown) :
    segment id (observing es) = es := by
  induction es using List.reverseRecOn with
  | nil => rfl
  | append_singleton es e ih =>
    obtain ⟨own, going, known⟩ := h e (List.mem_append_right _ List.mem_cons_self)
    rw [observing_concat, segment_concat, ih fun x hx => h x (List.mem_append_left _ hx)]
    simp [Step.gather, Draft.completes, own, going, known]

theorem endings_of_open {es : List Event} (h : ∀ e ∈ es, e.stage ≠ .ended) : endings es = [] := by
  have none : endedIds es = [] := by
    rw [endedIds, List.filter_eq_nil_iff.mpr fun e he => by simpa using h e he, List.map_nil]
  rwa [← map_fst_endings, List.map_eq_nil_iff] at none

theorem sinceClosed_sublist (id : String) (es : List Event) :
    (sinceClosed id (observing es)).Sublist (eventsOf id es) := by
  induction es using List.reverseRecOn with
  | nil => exact List.nil_sublist _
  | append_singleton es e ih =>
    have last : ((Step.observe e).event? id).toList.Sublist
        (if e.requestId = id then [e] else []) := by
      by_cases own : e.requestId = id <;> by_cases hu : e.stage = .unknown <;>
        simp [Step.event?, own, hu]
    rw [observing_concat, sinceClosed_concat, eventsOf_concat]
    split
    · exact List.nil_sublist _
    · exact ih.append last

open Traffic

theorem cut_cases {d : Draw} {es : List Event} (h : es <+: transaction d) :
    es = transaction d ∨
      ∀ e ∈ es, e.requestId = d.requestId ∧ e.stage ≠ .ended ∧ e.stage ≠ .unknown := by
  obtain ⟨front, last, split, -, going⟩ := exists_transaction_eq_concat d
  have ids : ∀ e ∈ es, e.requestId = d.requestId := fun e he =>
    requestId_of_mem_transaction (h.subset he)
  rw [split] at h ⊢
  rcases List.prefix_concat_iff.mp h with whole | cut
  · exact .inl whole
  · exact .inr fun e he => ⟨ids e he, going e (cut.subset he)⟩

/-- A transaction is in flight until its end, which is counted. -/
theorem completes_transaction {d : Draw} {front : List Event} {last : Event}
    (split : transaction d = front ++ [last]) (ended : last.stage = .ended)
    (going : ∀ e ∈ front, e.stage ≠ .ended ∧ e.stage ≠ .unknown) :
    last.requestId = d.requestId ∧ segment d.requestId (observing front) = front ∧
      (Draft.applyAll {} front).completes last = true := by
  have ids : ∀ e ∈ front ++ [last], e.requestId = d.requestId := fun e he =>
    requestId_of_mem_transaction (split ▸ he)
  refine ⟨ids last (List.mem_append_right _ List.mem_cons_self), segment_observing_of_open
    fun e he => ⟨ids e (List.mem_append_left _ he), going e he⟩, Draft.completes_iff.mpr ⟨ended, ?_⟩⟩
  have length := congrArg List.length split
  have counted := Draft.seen_applyAll_le_add {} front
  have room : 6 ≤ Draft.maxSeen := by decide
  simp only [length_transaction, List.length_append, List.length_singleton] at length
  simp only [Nat.zero_add] at counted
  omega

theorem endings_transaction (d : Draw) :
    endings (transaction d) = [(d.requestId, some (record d))] := by
  obtain ⟨front, last, split, ended, going⟩ := exists_transaction_eq_concat d
  obtain ⟨own, gathered, completes⟩ := completes_transaction split ended going
  rw [record, split, endings_concat, endings_of_open fun e he => (going e he).1, if_pos ended,
    completion?, own, gathered, if_pos completes, List.nil_append]

theorem segment_transaction (d : Draw) : segment d.requestId (observing (transaction d)) = [] := by
  obtain ⟨front, last, split, ended, going⟩ := exists_transaction_eq_concat d
  obtain ⟨own, gathered, completes⟩ := completes_transaction split ended going
  rw [split, observing_concat, segment_concat, gathered]
  simp [Step.gather, own, ended, completes]

/-! ## Transactions that have ended -/

section
variable {workers errorPct : Nat} {load : Load workers errorPct} {sent : List (Fin workers × Event)}
  {d : Draw}

theorem possible_of_mem (hd : d ∈ load.all) : d.Possible errorPct := by
  obtain ⟨w, hw⟩ := load.mem_all.mp hd
  exact load.possible w d hw

theorem started_iff {es : List Event} : d.started es = true ↔ eventsOf d.requestId es ≠ [] := by
  rw [Draw.started, List.any_eq_true, eventsOf, ne_eq, List.filter_eq_nil_iff]
  simp

/-- A transaction has ended when all its events were sent. -/
theorem ended_iff (h : load.Interleaved sent) (hd : d ∈ load.all) :
    d.ended (sent.map (·.2)) = true ↔ eventsOf d.requestId (sent.map (·.2)) = transaction d := by
  rw [Draw.ended, List.any_eq_true]
  constructor
  · rintro ⟨e, he, last⟩
    simp only [decide_eq_true_eq] at last
    refine (cut_cases (h.eventsOf_cut hd)).resolve_right fun going => ?_
    exact (going e (List.mem_filter.mpr ⟨he, by simp [last.1]⟩)).2.1 last.2
  · intro whole
    obtain ⟨front, last, split, ended, -⟩ := exists_transaction_eq_concat d
    have sentLast : last ∈ eventsOf d.requestId (sent.map (·.2)) := by
      rw [whole, split]
      exact List.mem_append_right _ List.mem_cons_self
    obtain ⟨he, own⟩ := List.mem_filter.mp sentLast
    exact ⟨last, he, by simpa [ended] using own⟩

/-- What is in flight are the transactions that have been started and not ended. -/
theorem segment_ne_nil_iff (h : load.Interleaved sent) {id : String} :
    segment id (observing (sent.map (·.2))) ≠ [] ↔
      ∃ d ∈ load.all, d.requestId = id ∧ d.started (sent.map (·.2)) = true ∧
        d.ended (sent.map (·.2)) = false := by
  rw [← segment_eventsOf]
  constructor
  · intro gathered
    obtain ⟨d, hd, rfl⟩ : ∃ d ∈ load.all, d.requestId = id := by
      by_contra foreign
      push Not at foreign
      rw [h.eventsOf_of_not_mem foreign] at gathered
      exact gathered rfl
    refine ⟨d, hd, rfl, started_iff.mpr fun none => ?_, ?_⟩
    · rw [none] at gathered
      exact gathered rfl
    · rw [Bool.eq_false_iff, ne_eq, ended_iff h hd]
      intro whole
      rw [whole] at gathered
      exact gathered (segment_transaction d)
  · rintro ⟨d, hd, rfl, started, going⟩
    rw [Bool.eq_false_iff, ne_eq, ended_iff h hd] at going
    rw [segment_observing_of_open ((cut_cases (h.eventsOf_cut hd)).resolve_left going)]
    exact started_iff.mp started

/-- A worker has at most one transaction under way. -/
theorem size_inFlight_le {capacity : Nat} {hc : 0 < capacity} (h : load.Interleaved sent) :
    ((fresh capacity hc).run (observing (sent.map (·.2)))).inFlight.size ≤ workers := by
  have one (w : Fin workers) : ∃ current : Option String, ∀ d ∈ load.draws w,
      d.started (sent.map (·.2)) = true → d.ended (sent.map (·.2)) = false →
      current = some d.requestId := by
    obtain ⟨current, only⟩ := exists_current (Load.distinct_draws w) (h w)
    refine ⟨current, fun d hd started going => only d hd ?_ ?_⟩
    · rw [← h.eventsOf_eq hd]
      exact started_iff.mp started
    · rw [← h.eventsOf_eq hd, ne_eq, ← ended_iff h (load.mem_all.mpr ⟨w, hd⟩), going]
      exact Bool.false_ne_true
  choose current only using one
  have underWay : {id | segment id (observing (sent.map (·.2))) ≠ []} ⊆
      ↑((List.finRange workers).filterMap current).toFinset := by
    intro id gathered
    obtain ⟨d, hd, rfl, started, going⟩ := (segment_ne_nil_iff h).mp gathered
    obtain ⟨w, hw⟩ := load.mem_all.mp hd
    exact List.mem_toFinset.mpr
      (List.mem_filterMap.mpr ⟨w, List.mem_finRange w, only w d hw started going⟩)
  have count := @encard_open capacity hc (observing (sent.map (·.2)))
  have few : ((List.finRange workers).filterMap current).toFinset.card ≤ workers :=
    ((List.toFinset_card_le _).trans (List.length_filterMap_le _ _)).trans_eq List.length_finRange
  have bound := Set.encard_le_encard underWay
  rw [count, Set.encard_coe_eq_coe_finsetCard, Nat.cast_le] at bound
  exact bound.trans few

/-- The transactions that have ended are completed, with the records of whole transactions. -/
theorem endings_perm (h : load.Interleaved sent) :
    (endings (sent.map (·.2))).Perm
      ((load.all.filter (·.ended (sent.map (·.2)))).map fun d => (d.requestId, some (record d))) := by
  refine perm_of_filter_eq fun id => ?_
  rw [filter_endings, List.filter_map, List.filter_comm]
  simp only [Function.comp_def]
  by_cases drawn : ∃ d ∈ load.all, d.requestId = id
  · obtain ⟨d, hd, rfl⟩ := drawn
    have single : load.all.filter (fun x => x.requestId = d.requestId) = [d] :=
      filter_requestId_eq load.distinct hd
    rw [single]
    rcases cut_cases (h.eventsOf_cut hd) with whole | going
    · rw [whole, endings_transaction, List.filter_cons_of_pos ((ended_iff h hd).mpr whole)]
      rfl
    · have notEnded : ¬ d.ended (sent.map (·.2)) = true := by
        rw [ended_iff h hd]
        intro whole
        have last := segment_transaction d
        rw [← whole, segment_observing_of_open going] at last
        rw [last] at whole
        cases whole
      rw [endings_of_open fun e he => (going e he).2.1, List.filter_cons_of_neg notEnded]
      rfl
  · push Not at drawn
    have foreign : load.all.filter (fun x => x.requestId = id) = [] :=
      List.filter_eq_nil_iff.mpr fun d hd => by simpa using drawn d hd
    rw [h.eventsOf_of_not_mem drawn, foreign]
    rfl

theorem completed_load_perm (h : load.Interleaved sent) :
    (completed (observing (sent.map (·.2)))).Perm
      ((load.all.filter (·.ended (sent.map (·.2)))).map record) := by
  rw [← filterMap_snd_endings]
  simpa [List.filterMap_map, Function.comp_def] using (endings_perm h).filterMap (·.2)

/-- The sums of every request fit, however far its transaction has come. -/
theorem inBounds_load (h : load.Interleaved sent) : InBounds (observing (sent.map (·.2))) := by
  -- By the last event that was sent, which is one of its own transaction.
  induction sent using List.reverseRecOn with
  | nil => exact fun before e hp => absurd hp (by simp [observing])
  | append_singleton sent x ih =>
    have earlier := ih (h.earlier (List.prefix_append _ _))
    obtain ⟨d, hd, own⟩ := h.exists_draw (List.mem_append_right sent List.mem_cons_self)
    have cut := h.eventsOf_cut (load.mem_all.mpr ⟨_, hd⟩)
    rw [List.map_append, List.map_singleton, eventsOf_concat, if_pos own] at cut
    rw [List.map_append, List.map_singleton, observing_concat, inBounds_concat, own]
    refine ⟨earlier, (fits_cut (load.possible _ d hd) cut).of_sublist ?_⟩
    exact (sinceClosed_sublist _ _).append_right _

theorem get?_byClass_load {capacity : Nat} {hc : 0 < capacity} (h : load.Interleaved sent)
    {ep : Endpoint} (hep : ep ∈ endpoints) {t : EndpointTally}
    (ht : ((fresh capacity hc).run (observing (sent.map (·.2)))).tally.byEndpoint.get? ep.name =
      some t) (l : StatusClass) :
    t.byClass.get? l = Table.shown? ((load.all.filter (·.ended (sent.map (·.2)))).countP fun d =>
      d.endpoint = ep ∧ d.statusClass = l) := by
  have count := Tally.get?_part_ofRecords EndpointTally.byClass_ofRecords
    ((load.all.filter (·.ended (sent.map (·.2)))).map record) ep.name l
  rw [(books_run _).tally, Tally.ofRecords_perm (completed_load_perm h)] at ht
  change (Tally.ofRecords _).byEndpoint.get? ep.name = some t at ht
  rw [ht, Option.bind_some] at count
  rw [count, List.countP_map]
  congr 1
  refine List.countP_congr fun d hd => ?_
  have possible := possible_of_mem (List.mem_of_mem_filter hd)
  have named : d.endpoint.name = ep.name ↔ d.endpoint = ep :=
    ⟨name_injective possible.endpoint hep, congrArg Endpoint.name⟩
  simp only [Function.comp_apply, bucket_record possible, statusClass_record possible, named]

/-- An endpoint that reports a status counts successes and server errors only, as many server errors
as transactions failed; another endpoint counts neither. -/
theorem classes_load {capacity : Nat} {hc : 0 < capacity} (h : load.Interleaved sent)
    {ep : Endpoint} (hep : ep ∈ endpoints) {t : EndpointTally}
    (ht : ((fresh capacity hc).run (observing (sent.map (·.2)))).tally.byEndpoint.get? ep.name =
      some t) :
    if ep.transport.hasStatus then
      (∀ l ∈ t.byClass.keys, l = .success ∨ l = .serverError) ∧
        (t.byClass.get? .serverError).getD 0 =
          (load.all.filter (·.ended (sent.map (·.2)))).countP fun d => d.endpoint = ep ∧ d.failed
    else ∀ l ∈ t.byClass.keys, l = .other := by
  have count := get?_byClass_load h hep ht
  have counted : ∀ l ∈ t.byClass.keys, ∃ d : Draw, d.endpoint = ep ∧ d.statusClass = l := by
    intro l hl
    rw [Table.mem_keys_iff, count, Table.shown?] at hl
    obtain ⟨d, -, both⟩ := List.countP_pos_iff.mp
      (Nat.pos_of_ne_zero fun zero => hl (if_pos zero))
    exact ⟨d, by simpa using both⟩
  split
  · rename_i reports
    constructor
    · intro l hl
      obtain ⟨d, rfl, rfl⟩ := counted l hl
      rw [Draw.statusClass, if_pos reports]
      cases d.failed
      · exact .inl rfl
      · exact .inr rfl
    · rw [count, Table.getD_shown?]
      refine List.countP_congr fun d _ => ?_
      by_cases same : d.endpoint = ep
      · subst same
        rw [Draw.statusClass, if_pos reports]
        cases d.failed <;> simp
      · simp [same]
  · rename_i silent
    intro l hl
    obtain ⟨d, rfl, rfl⟩ := counted l hl
    rw [Draw.statusClass, if_neg silent]

theorem size_inFlight_eq_zero {capacity : Nat} {hc : 0 < capacity} (h : load.Interleaved sent)
    (all : ∀ d ∈ load.all, d.started (sent.map (·.2)) = true → d.ended (sent.map (·.2)) = true) :
    ((fresh capacity hc).run (observing (sent.map (·.2)))).inFlight.size = 0 := by
  have none : {id | segment id (observing (sent.map (·.2))) ≠ []} = ∅ := by
    refine Set.eq_empty_of_forall_notMem fun id gathered => ?_
    obtain ⟨d, hd, -, started, going⟩ := (segment_ne_nil_iff h).mp gathered
    rw [all d hd started] at going
    cases going
  have count := @encard_open capacity hc (observing (sent.map (·.2)))
  rw [none, Set.encard_empty] at count
  exact_mod_cast count.symm

end

/-- What a collector makes of any number of workers that send synthetic traffic, at any moment of
any mixture of their streams.  No event fails, and the ends complete a transaction.  No more
transactions are in flight than there are workers, and none if all that were started have ended.
The total is the number of transactions that have ended, and their records, the newest of which are
cached, are whole: each has the endpoint and the transport of its transaction, a latency and a time
to first byte, an error if the transaction failed, and a status if its transport reports one.  So an
endpoint that reports a status counts successes and server errors only, the server errors being its
failed transactions, and another endpoint counts no class but the last. -/
theorem run_accounts_load {workers errorPct : Nat} (load : Load workers errorPct) (capacity : Nat)
    (hc : 0 < capacity) (sent before : List (Fin workers × Event)) (h : load.Interleaved sent)
    (hb : before <+: sent) :
    let es := before.map (·.2)
    let c := (fresh capacity hc).run (observing es)
    let done := load.all.filter (·.ended es)
    (∀ x, before ++ [x] <+: sent → (c.observe x.2).done = .ok (decide (x.2.stage = .ended))) ∧
    c.inFlight.size ≤ workers ∧
    ((∀ d ∈ load.all, d.started es = true → d.ended es = true) → c.inFlight.size = 0) ∧
    c.tally.total = done.length ∧
    (completed (observing es)).Perm (done.map record) ∧
    c.cache.toList = (completed (observing es)).rtake capacity ∧
    (∀ d ∈ done,
      (record d).endpoint = d.endpoint.name ∧ (record d).transport = some d.endpoint.transport ∧
      (record d).latency.isSome ∧ (record d).timeToFirstByte.isSome ∧
      (record d).isError = d.failed ∧
      (record d).status =
        if d.endpoint.transport.hasStatus then some (if d.failed then 503 else 200) else none) ∧
    (∀ ep ∈ endpoints, ∀ t, c.tally.byEndpoint.get? ep.name = some t →
      if ep.transport.hasStatus then
        (∀ l ∈ t.byClass.keys, l = .success ∨ l = .serverError) ∧
          (t.byClass.get? .serverError).getD 0 = done.countP fun d => d.endpoint = ep ∧ d.failed
      else ∀ l ∈ t.byClass.keys, l = .other) ∧
    (errorPct = 0 → ∀ r ∈ completed (observing es), r.isError = false) ∧
    (errorPct = 100 → ∀ r ∈ completed (observing es), r.isError = true) := by
  intro es c done
  have now : load.Interleaved before := h.earlier hb
  have perm : (completed (observing es)).Perm (done.map record) := completed_load_perm now
  have possible : ∀ d ∈ done, d.Possible errorPct := fun d hd =>
    possible_of_mem (List.mem_of_mem_filter hd)
  refine ⟨?_, size_inFlight_le now, size_inFlight_eq_zero now, ?_, perm, toList_cache_run _,
    fun d hd => record_whole (possible d hd), fun ep hep t ht => classes_load now hep ht, ?_, ?_⟩
  · intro x hx
    have bounds := inBounds_load (h.earlier hx)
    rw [List.map_append, List.map_singleton, observing_concat] at bounds
    exact done_observe_run bounds
  · have total := congrArg Tally.total (@books_run capacity hc (observing es)).tally
    rw [Tally.total_ofRecords, perm.length_eq, List.length_map] at total
    exact total
  · intro none r hr
    obtain ⟨d, hd, rfl⟩ := List.mem_map.mp (perm.mem_iff.mp hr)
    rw [isError_record (possible d hd), (failed_of_possible (possible d hd)).1 none]
  · intro all r hr
    obtain ⟨d, hd, rfl⟩ := List.mem_map.mp (perm.mem_iff.mp hr)
    rw [isError_record (possible d hd), (failed_of_possible (possible d hd)).2 all]

/-- A draw with the smallest sizes but for the body. -/
def smallDraw (endpoint : Endpoint) (requestId : String) (failed : Bool) : Draw :=
  { endpoint, prevRoute := "", requestId, failed, headerBytes := 120, inBytes := 0
    outBytes := UInt64.ofNat endpoint.bodyBytes, trailerBytes := 16, clock := fun _ => .epoch }

def lookup : Draw := smallDraw ⟨"GET /api/users/:id", .https, 4, 820⟩ "a" true

def touch : Draw := smallDraw ⟨"/session.Store/Touch", .rpc, 1, 64⟩ "b" false

def pair : Load 2 50 where
  draws w := if w = 0 then [lookup] else [touch]
  possible := by
    intro w d hd
    split at hd <;> rw [List.mem_singleton] at hd <;> subst hd
    · exact ⟨by decide, by decide, ⟨0, by decide⟩, by decide, by decide, by decide, by decide⟩
    · exact ⟨by decide, by decide, ⟨50, by decide⟩, by decide, by decide, by decide, by decide⟩
  distinct := by decide

/-- The second worker starts before the first one has ended its transaction. -/
def overlapping : List (Fin 2 × Event) :=
  ((transaction lookup).take 5).map ((0, ·)) ++ ((transaction touch).take 3).map ((1, ·)) ++
    ((transaction lookup).drop 5).map ((0, ·)) ++ ((transaction touch).drop 3).map ((1, ·))

theorem run_accounts_load_overlapping :
    0 < 1 ∧ pair.Interleaved overlapping ∧ overlapping.take 9 <+: overlapping ∧
    let c := (fresh 1 Nat.one_pos).run (observing ((overlapping.take 9).map (·.2)))
    c.inFlight.size ≤ 2 ∧ c.tally.total = 1 ∧ c.cache.toList.map Record.isError = [true] := by
  have mixed : pair.Interleaved overlapping := Fin.forall_fin_two.mpr ⟨⟨[], rfl⟩, ⟨[], rfl⟩⟩
  have earlier : overlapping.take 9 <+: overlapping := List.take_prefix 9 overlapping
  obtain ⟨-, few, -, total, perm, cached, whole, -⟩ :=
    run_accounts_load pair 1 Nat.one_pos overlapping (overlapping.take 9) mixed earlier
  have done : pair.all.filter (·.ended ((overlapping.take 9).map (·.2))) = [lookup] := rfl
  rw [done] at total perm whole
  obtain ⟨-, -, -, -, failed, -⟩ := whole lookup List.mem_cons_self
  have newest : [record lookup].rtake 1 = [record lookup] := rfl
  refine ⟨Nat.one_pos, mixed, earlier, few, total, ?_⟩
  rw [cached, List.perm_singleton.mp perm, newest, List.map_singleton, failed]
  rfl

end RequestMeter.Collector
