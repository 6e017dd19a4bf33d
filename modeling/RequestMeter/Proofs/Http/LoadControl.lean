import RequestMeter.Http.Server
import RequestMeter.Proofs.Bus.Step
import RequestMeter.Proofs.Collector.Conservation
import RequestMeter.Proofs.Json.RoundTrip
import RequestMeter.Proofs.Load.Serial
import RequestMeter.Proofs.Statistics.Accumulator

/-! # Load control over HTTP

Requests are handled one after another, while events are sent and dispatched and runs end in
between.  In every state that a server comes to, the flag is set just while a run is active, and
every completed transaction is cached or evicted.
-/
namespace RequestMeter

open Collector (fresh)

/-! ## Setting up -/

theorem mapError_eq_ok_iff {ε δ α : Type} {x : Except ε α} {f : ε → δ} {a : α} :
    x.mapError f = .ok a ↔ x = .ok a := by
  cases x <;> simp [Except.mapError]

theorem Ring.eq_of_allocate {α : Type} {slotBytes capacity : Nat} {ring : Ring α}
    (h : allocate slotBytes capacity = .ok ring) :
    ∃ positive, ring = ofCapacity capacity positive := by
  simp only [allocate, bind_eq_ok_iff, mapError_eq_ok_iff, pure_eq_ok_iff] at h
  obtain ⟨built, hnew, -, -, rfl⟩ := h
  rw [new] at hnew
  split at hnew
  next positive =>
    cases hnew
    exact ⟨positive, rfl⟩
  next => cases hnew

theorem Collector.eq_fresh_of_new {capacity : Nat} {c : Collector} (h : new capacity = .ok c) :
    ∃ positive, c = fresh capacity positive := by
  simp only [new, bind_eq_ok_iff, pure_eq_ok_iff] at h
  obtain ⟨ring, hring, rfl⟩ := h
  obtain ⟨positive, rfl⟩ := Ring.eq_of_allocate hring
  exact ⟨positive, rfl⟩

namespace Bus

theorem capacity_new {capacity : Nat} {b : Bus} (h : new capacity = .ok b) :
    b.capacity = capacity := by
  rw [new] at h
  split at h
  next => cases h
  next =>
    cases h
    rfl

theorem eq_of_start {b next : Bus} (h : b.start = .ok next) : next = b := by
  simp only [start, bind_eq_ok_iff, pure_eq_ok_iff] at h
  obtain ⟨-, -, rfl⟩ := h
  rfl

end Bus

/-! ## A collector on a bus of its own -/

namespace Bus

theorem observers_deliver_collector (c : Collector) (e : Event) :
    (Delivery.deliver [c] e).observers = [c.step (.observe e)] := by
  rw [← Collector.next_observer, Delivery.deliver]
  split <;> rfl

theorem capacity_trySend {b next : Bus} {e : Event} (h : b.trySend e = .ok next) :
    next.capacity = b.capacity := by
  rw [trySend] at h
  split at h
  next => cases h
  next =>
    split at h
    next => cases h
    next =>
      cases h
      rfl

/-- Turns of the loop keep the capacity, and show the collector some events. -/
theorem turns_collector (b : Bus) (c : Collector) (fuel : Nat) :
    (b.turns [c] fuel).bus.capacity = b.capacity ∧
      ∃ steps, (b.turns [c] fuel).observers = [c.run steps] := by
  induction fuel generalizing b c with
  | zero => exact ⟨rfl, [], rfl⟩
  | succ fuel ih =>
    rw [turns]
    split
    next => exact ⟨rfl, [], rfl⟩
    next t turn =>
      cases (turned_of_turn? turn).2 with
      | stop ended => exact ih (b.stop [c]).bus c
      | take e rest head go =>
        obtain ⟨capacity, steps, observers⟩ := ih (b.take e rest [c]).bus (c.step (.observe e))
        have shown : (b.take e rest [c]).observers = [c.step (.observe e)] :=
          observers_deliver_collector c e
        rw [shown]
        refine ⟨capacity.trans (capacity_take b e rest [c]), .observe e :: steps, observers⟩

end Bus

namespace Server

open Http LoadControl.Interleaving
open LoadControl (Coherent Interleaving Operation started)

/-! ## Histories -/

/-- What happens at a server, one after another. -/
inductive Happening where
  /-- A request is handled to its answer, with so many turns of the dispatch loop if it has to wait. -/
  | request (r : Request) (turns : Nat)
  /-- The active run ends by itself. -/
  | runEnds
  /-- A sender offers an event, and drops it if it is not accepted. -/
  | send (e : Event)
  | dispatch (turns : Nat)
  | signalStop
  | cloneSender
  | dropSender
  /-- The collector is shown an event, or told to forget what is in flight, beside the bus. -/
  | collect (step : Collector.Step)

def after (s : Server) : Happening → Server
  | .request r turns => (s.handle r turns).1
  | .runEnds => { s with load := s.load.finish }
  | .send e => match s.bus.trySend e with
    | .ok bus => { s with bus }
    | .error _ => s
  | .dispatch turns => s.ofRun (s.bus.turns [s.collector] turns)
  | .signalStop => { s with bus := s.bus.signalStop }
  | .cloneSender => { s with bus := s.bus.cloneSender }
  | .dropSender => { s with bus := s.bus.dropSender }
  | .collect step => { s with collector := s.collector.step step }

/-- A server that was set up with these capacities, whatever has happened since. -/
structure Sound (cacheCapacity queueCapacity : Nat) (s : Server) : Prop where
  capacity : s.bus.capacity = queueCapacity
  load : ∃ os : List Operation, s.load = os.foldl (LoadControl.after queueCapacity) {}
  collector : ∃ (positive : 0 < cacheCapacity) (steps : List Collector.Step),
    s.collector = (fresh cacheCapacity positive).run steps

variable {cacheCapacity queueCapacity : Nat} {s : Server} {r : Request} {asked : LoadRequest}
  {turns later : Nat}

/-! ### What a history keeps -/

theorem sound_of_new {s₀ : Server} (h : new cacheCapacity queueCapacity = .ok s₀) :
    Sound cacheCapacity queueCapacity s₀ := by
  simp only [new, bind_eq_ok_iff, mapError_eq_ok_iff, pure_eq_ok_iff] at h
  obtain ⟨collector, hcollector, bus, hbus, started, hstart, rfl⟩ := h
  obtain rfl := Bus.eq_of_start hstart
  exact {
    capacity := Bus.capacity_new hbus
    load := ⟨[], rfl⟩
    collector := by
      obtain ⟨positive, rfl⟩ := Collector.eq_fresh_of_new hcollector
      exact ⟨positive, [], rfl⟩ }

/-- The bus goes on, and the collector takes some steps. -/
theorem Sound.observed (h : Sound cacheCapacity queueCapacity s) (bus : Bus)
    (capacity : bus.capacity = s.bus.capacity) (steps : List Collector.Step) :
    Sound cacheCapacity queueCapacity { s with bus, collector := s.collector.run steps } where
  capacity := capacity.trans h.capacity
  load := h.load
  collector := by
    obtain ⟨positive, before, hbefore⟩ := h.collector
    refine ⟨positive, before ++ steps, ?_⟩
    rw [hbefore]
    exact List.foldl_append.symm

theorem Sound.ofTurns (h : Sound cacheCapacity queueCapacity s) (fuel : Nat) :
    Sound cacheCapacity queueCapacity (s.ofRun (s.bus.turns [s.collector] fuel)) := by
  obtain ⟨capacity, steps, observers⟩ := Bus.turns_collector s.bus s.collector fuel
  have hrun : s.ofRun (s.bus.turns [s.collector] fuel) = {
      s with
      bus := (s.bus.turns [s.collector] fuel).bus
      collector := s.collector.run steps } := by
    rw [ofRun, observers]
    rfl
  rw [hrun]
  exact h.observed _ capacity steps

theorem Sound.operate (h : Sound cacheCapacity queueCapacity s) (o : Operation) :
    Sound cacheCapacity queueCapacity
      { s with load := s.load.after queueCapacity o } where
  capacity := h.capacity
  load := by
    obtain ⟨os, hos⟩ := h.load
    refine ⟨os ++ [o], ?_⟩
    rw [hos, List.foldl_append]
    rfl
  collector := h.collector

theorem Sound.startLoad (h : Sound cacheCapacity queueCapacity s) (r : Request) :
    Sound cacheCapacity queueCapacity (s.startLoad r).1 := by
  rw [Server.startLoad]
  split
  next =>
    split
    next => exact h
    next => exact h
    next request _ =>
      split
      next => exact h
      next load started =>
        have hstart := h.operate (.start request)
        rw [h.capacity] at started
        rwa [LoadControl.after, started] at hstart
  next => exact h

theorem Sound.stopLoad (h : Sound cacheCapacity queueCapacity s) (turns : Nat) :
    Sound cacheCapacity queueCapacity (s.stopLoad turns) := by
  rw [Server.stopLoad]
  split
  next => exact (h.ofTurns _).operate .stop
  next => exact h.operate .stop

theorem Sound.answer (h : Sound cacheCapacity queueCapacity s) (route : Route) (r : Request)
    (turns : Nat) : Sound cacheCapacity queueCapacity (s.answer route r turns).1 := by
  cases route with
  | loadStart => exact h.startLoad r
  | loadStop => exact h.stopLoad turns
  | _ => exact h

theorem Sound.handle (h : Sound cacheCapacity queueCapacity s) (r : Request) (turns : Nat) :
    Sound cacheCapacity queueCapacity (s.handle r turns).1 := by
  simp only [Server.handle]
  split
  next => exact h
  next =>
    split
    next => exact h
    next route _ =>
      split
      next => exact h.answer route r turns
      next => exact h

theorem Sound.after (h : Sound cacheCapacity queueCapacity s) (x : Happening) :
    Sound cacheCapacity queueCapacity (s.after x) := by
  cases x with
  | request r turns => exact h.handle r turns
  | runEnds => exact h.operate .finish
  | send e =>
    rw [Server.after]
    split
    next bus accepted => exact h.observed bus (Bus.capacity_trySend accepted) []
    next => exact h
  | dispatch turns => exact h.ofTurns turns
  | signalStop => exact h.observed s.bus.signalStop rfl []
  | cloneSender => exact h.observed s.bus.cloneSender rfl []
  | dropSender => exact h.observed s.bus.dropSender rfl []
  | collect step => exact h.observed s.bus rfl [step]

theorem Sound.foldl (h : Sound cacheCapacity queueCapacity s) (happenings : List Happening) :
    Sound cacheCapacity queueCapacity (happenings.foldl Server.after s) := by
  induction happenings using List.reverseRecOn with
  | nil => exact h
  | append_singleton happenings x ih =>
    rw [List.foldl_append]
    exact ih.after x

/-! ### What a state shows -/

theorem Sound.coherent (h : Sound cacheCapacity queueCapacity s) : Coherent s.load := by
  obtain ⟨os, hos⟩ := h.load
  rw [hos]
  exact LoadControl.coherent_foldl queueCapacity os

/-- Every completed transaction is cached or evicted. -/
theorem Sound.total_eq (h : Sound cacheCapacity queueCapacity s) :
    s.collector.tally.total = s.collector.cached + s.collector.tally.evicted := by
  obtain ⟨positive, steps, hsteps⟩ := h.collector
  have books : Collector.Books cacheCapacity (Collector.completed steps)
      ((fresh cacheCapacity positive).run steps) _ := Collector.books_run steps
  rw [hsteps, Collector.cached_run, books.tally]
  dsimp only
  rw [Tally.total_ofRecords]
  omega

/-- An answer with this status, and with a body that reads back as an object with these fields. -/
def HasBody (answer : Except Overflow Response) (status : Nat) (fields : List (String × Json)) :
    Prop :=
  ∃ text, answer = .ok { status, body := .json text } ∧ Json.parse? text = some (.record fields)

/-- The body of a failure is its message and its status, and nothing else. -/
theorem hasBody_fail (e : ApiError) :
    HasBody (.ok (fail e)) e.status [("error", .str e.message), ("status", .nat e.status)] := by
  refine ⟨_, rfl, Json.parse?_compact (Json.valid_record ?_)⟩
  simp [Json.Valid.string, Json.valid_nat, Json.str]

/-- An answer that shows a server: whether a run is active, the requests in flight, the records in
the cache, the totals of the tally, of which every completed transaction is cached or evicted, and
the capacity of the queue. -/
structure Reports (queueCapacity : Nat) (s : Server) (answer : Except Overflow Response) :
    Prop where
  body : HasBody answer 200 [("running", .bool s.load.active),
    ("in_flight", .nat s.collector.inFlight.size), ("cached", .nat s.collector.cache.size),
    ("completed", .nat s.collector.tally.total), ("evicted", .nat s.collector.tally.evicted),
    ("queue_capacity", .nat queueCapacity)]
  completed : s.collector.tally.total = s.collector.cache.size + s.collector.tally.evicted

theorem Sound.reports (h : Sound cacheCapacity queueCapacity s) :
    Reports queueCapacity s (.ok (ok s.pipelineState.toJson)) where
  body := by
    have shown : s.pipelineState.toJson = .record [("running", .bool s.load.active),
        ("in_flight", .nat s.collector.inFlight.size), ("cached", .nat s.collector.cache.size),
        ("completed", .nat s.collector.tally.total), ("evicted", .nat s.collector.tally.evicted),
        ("queue_capacity", .nat queueCapacity)] := by
      rw [PipelineState.toJson, pipelineState, h.coherent.running, h.capacity]
      rfl
    refine ⟨_, rfl, ?_⟩
    rw [shown]
    refine Json.parse?_compact (Json.valid_record ?_)
    simp [Json.Valid.bool, Json.valid_nat]
  completed := h.total_eq

/-! ## Requests -/

structure Calls (r : Request) (route : Route) : Prop where
  method : r.method ≠ "OPTIONS"
  path : Route.ofPath? (String.ofList ((path? r.target).getD [])) = some route
  allowed : route.allows r.method = true

structure Asks (r : Request) (asked : LoadRequest) : Prop where
  calls : Calls r .loadStart
  json : r.hasJsonBody = true
  body : LoadRequest.read r.body = .ok asked

theorem handle_of_calls {route : Route} (h : Calls r route) :
    s.handle r turns = s.answer route r turns := by
  rw [handle, if_neg h.method, h.path]
  exact if_pos h.allowed

theorem handle_of_asks (h : Asks r asked) :
    s.handle r turns = match s.load.start asked s.bus.capacity with
      | .error e => (s, .ok (fail (.ofControl e)))
      | .ok load => ({ s with load }, .ok (ok { s with load }.pipelineState.toJson)) := by
  rw [handle_of_calls h.calls, answer, startLoad, if_pos h.json, h.body]
  dsimp only
  cases s.load.start asked s.bus.capacity <;> rfl

/-- A request past the limits is refused, whether or not a run is active. -/
theorem Sound.handle_beyond (h : Sound cacheCapacity queueCapacity s) (asks : Asks r asked)
    (beyond : ¬ asked.Within queueCapacity) (turns : Nat) :
    ∃ e, asked.check queueCapacity = .error e ∧
      s.handle r turns = (s, .ok (fail (.badRequest e.message))) := by
  obtain ⟨e, rejected, hne⟩ := LoadRequest.check_of_not_within beyond
  have hstart : s.load.start asked s.bus.capacity = .error e := by
    rw [h.capacity]
    exact LoadControl.start_of_error rejected
  rw [handle_of_asks asks, hstart]
  cases e with
  | alreadyRunning => exact absurd rfl hne
  | _ => exact ⟨_, rejected, rfl⟩

theorem Sound.handle_busy (h : Sound cacheCapacity queueCapacity s) (asks : Asks r asked)
    (within : asked.Within queueCapacity) (active : s.load.active = true) (turns : Nat) :
    s.handle r turns = (s, .ok (fail .alreadyRunning)) := by
  have set : s.load.running = true := h.coherent.running.trans active
  have hstart : s.load.start asked s.bus.capacity = .error .alreadyRunning := by
    rw [h.capacity]
    exact LoadControl.start_of_running (LoadRequest.check_of_within within) set
  rw [handle_of_asks asks, hstart]
  rfl

theorem Sound.handle_granted (h : Sound cacheCapacity queueCapacity s) (asks : Asks r asked)
    (within : asked.Within queueCapacity) (idle : s.load.active = false) :
    s.handle r turns = ({ s with load := started asked },
      .ok (ok { s with load := started asked }.pipelineState.toJson)) := by
  have clear : s.load.running = false := h.coherent.running.trans idle
  have hstart : s.load.start asked s.bus.capacity = .ok (started asked) := by
    rw [h.capacity]
    exact LoadControl.start_of_clear (LoadRequest.check_of_within within) clear
  rw [handle_of_asks asks, hstart]

theorem load_stopLoad (s : Server) (turns : Nat) : (s.stopLoad turns).load = s.load.stop := by
  rw [stopLoad]
  split <;> rfl

theorem stopLoad_of_idle (clear : s.load.running = false) (idle : s.load.active = false) :
    s.stopLoad turns = { s with load := { s.load with handle := false } } := by
  have hstop : s.load.stop = { s.load with handle := false } := by
    simp only [LoadControl.stop, clear, idle, Bool.false_and]
  rw [stopLoad, if_neg (by simp [idle]), hstop]

/-- A request for load is granted exactly within the limits and while no run is active. -/
theorem Sound.granted_iff (h : Sound cacheCapacity queueCapacity s) (asks : Asks r asked) :
    (∃ response, (s.handle r turns).2 = .ok response ∧ response.status = 200) ↔
      asked.Within queueCapacity ∧ s.load.active = false := by
  constructor
  · rintro ⟨response, given, success⟩
    by_cases within : asked.Within queueCapacity
    · cases active : s.load.active with
      | false => exact ⟨within, rfl⟩
      | true =>
        rw [h.handle_busy asks within active] at given
        cases given
        cases success
    · obtain ⟨e, -, refused⟩ := h.handle_beyond asks within turns
      rw [refused] at given
      cases given
      cases success
  · rintro ⟨within, idle⟩
    rw [h.handle_granted asks within idle]
    exact ⟨_, rfl, rfl⟩

theorem Sound.reports_granted (h : Sound cacheCapacity queueCapacity s) (asks : Asks r asked)
    (within : asked.Within queueCapacity) (idle : s.load.active = false) :
    (s.handle r turns).1 = { s with load := started asked } ∧
      Reports queueCapacity (s.handle r turns).1 (s.handle r turns).2 := by
  have next := h.handle r turns
  rw [h.handle_granted asks within idle] at next ⊢
  exact ⟨rfl, next.reports⟩

theorem handle_stop (calls : Calls r .loadStop) :
    s.handle r turns = (s.stopLoad turns, .ok (ok (s.stopLoad turns).pipelineState.toJson)) :=
  handle_of_calls calls

theorem Sound.handle_stop_load (h : Sound cacheCapacity queueCapacity s)
    (calls : Calls r .loadStop) :
    (s.handle r turns).1.load =
      { s.load with running := false, handle := false, active := false } := by
  rw [handle_stop calls, load_stopLoad, h.coherent.stop_eq]

theorem Sound.reports_stop (h : Sound cacheCapacity queueCapacity s) (calls : Calls r .loadStop) :
    Reports queueCapacity (s.handle r turns).1 (s.handle r turns).2 := by
  rw [handle_stop calls]
  exact (h.stopLoad turns).reports

theorem Sound.granted_after_stop (h : Sound cacheCapacity queueCapacity s)
    (calls : Calls r .loadStop) {again : Request} (asks : Asks again asked)
    (within : asked.Within queueCapacity) :
    ∃ response, ((s.handle r turns).1.handle again later).2 = .ok response ∧ response.status = 200 := by
  have idle : (s.handle r turns).1.load.active = false := by rw [h.handle_stop_load calls]
  exact ((h.handle r turns).granted_iff asks).mpr ⟨within, idle⟩

theorem Sound.handle_stop_of_idle (h : Sound cacheCapacity queueCapacity s)
    (calls : Calls r .loadStop) (idle : s.load.active = false) :
    (s.handle r turns).1 = { s with load := { s.load with handle := false } } := by
  rw [handle_stop calls]
  exact stopLoad_of_idle (h.coherent.running.trans idle) idle

theorem Sound.reports_status (h : Sound cacheCapacity queueCapacity s)
    (calls : Calls r .loadStatus) :
    (s.handle r turns).1 = s ∧ Reports queueCapacity s (s.handle r turns).2 := by
  rw [handle_of_calls calls]
  exact ⟨rfl, h.reports⟩

theorem Sound.exists_represents (h : Sound cacheCapacity queueCapacity s) :
    ∃ actions t, steps? queueCapacity {} actions = some t ∧ Represents t s.load := by
  obtain ⟨os, hos⟩ := h.load
  rw [hos]
  exact exists_steps?_represents queueCapacity os

/-- Load control, one request after another.  In atomic steps, where a request comes only when all
others are answered, the flag is set just while a run is active, the slot keeps the handle of that
run, and requests, answers and outcome are those of some operations of `LoadControl`.  At a server,
whatever has happened since it was set up, the flag is set just while a run is active.  A request for
load is granted if it is within the limits and no run is active; otherwise it is refused, for the
limits first, and leaves the server as it was.  A stop leaves no run and an empty slot, so that
requests within the limits are granted again, however long it waits; without a run it only empties
the slot.  The answer to a request for the status, to a stop and to a request that is granted shows
the pipeline, with every completed transaction cached or evicted; a refusal shows its message and
its status and nothing of the pipeline. -/
theorem load_control_serial {s₀ : Server} (h : new cacheCapacity queueCapacity = .ok s₀) :
    (∀ actions t, Serial queueCapacity {} actions → steps? queueCapacity {} actions = some t →
      t.Quiet →
      (t.running = true ↔ ∃ k, t.Active k) ∧ (∀ k, t.Active k → t.slot = some k) ∧
      ∃ os : List Operation,
        os.filter Operation.isRequest = actions.filterMap LoadControl.Action.request? ∧
        t.tasks = (LoadControl.answers queueCapacity {} os).map .answered ∧
        Represents t (os.foldl (LoadControl.after queueCapacity) {})) ∧
    ∀ happenings : List Happening,
      let s := happenings.foldl Server.after s₀
      (∃ actions t, steps? queueCapacity {} actions = some t ∧ Represents t s.load) ∧
      (s.load.running = true ↔ s.load.active = true) ∧
      (∀ r asked, Asks r asked → ∀ turns,
        ((∃ response, (s.handle r turns).2 = .ok response ∧ response.status = 200) ↔
          asked.Within queueCapacity ∧ s.load.active = false) ∧
        (asked.Within queueCapacity → s.load.active = false →
          (s.handle r turns).1 = { s with load := started asked } ∧
          Reports queueCapacity (s.handle r turns).1 (s.handle r turns).2) ∧
        (¬ asked.Within queueCapacity → ∃ e, asked.check queueCapacity = .error e ∧
          s.handle r turns = (s, .ok (fail (.badRequest e.message))) ∧
          HasBody (s.handle r turns).2 400 [("error", .str e.message), ("status", .nat 400)]) ∧
        (asked.Within queueCapacity → s.load.active = true →
          s.handle r turns = (s, .ok (fail .alreadyRunning)) ∧
          HasBody (s.handle r turns).2 409
            [("error", .str ControlError.alreadyRunning.message), ("status", .nat 409)])) ∧
      (∀ r, Calls r .loadStop → ∀ turns,
        (s.handle r turns).1.load =
          { s.load with running := false, handle := false, active := false } ∧
        Reports queueCapacity (s.handle r turns).1 (s.handle r turns).2 ∧
        (∀ again asked, Asks again asked → asked.Within queueCapacity → ∀ later,
          ∃ response, ((s.handle r turns).1.handle again later).2 = .ok response ∧
            response.status = 200) ∧
        (s.load.active = false →
          (s.handle r turns).1 = { s with load := { s.load with handle := false } })) ∧
      (∀ r, Calls r .loadStatus → ∀ turns,
        (s.handle r turns).1 = s ∧ Reports queueCapacity s (s.handle r turns).2) := by
  constructor
  · intro actions t serial hs quiet
    obtain ⟨os, requests, given, rep⟩ := serial.exists_operations hs quiet
    have coherent : Coherent (os.foldl (LoadControl.after queueCapacity) {}) :=
      LoadControl.coherent_foldl queueCapacity os
    refine ⟨?_, rep.kept, os, requests, given, rep⟩
    rw [rep.running, coherent.running]
    exact rep.active.symm
  · intro happenings s
    have sound : Sound cacheCapacity queueCapacity s := (sound_of_new h).foldl happenings
    refine ⟨sound.exists_represents, by rw [sound.coherent.running], ?_, ?_, ?_⟩
    · intro r asked asks turns
      refine ⟨sound.granted_iff asks, sound.reports_granted asks, fun beyond => ?_,
        fun within active => ?_⟩
      · obtain ⟨e, rejected, refused⟩ := sound.handle_beyond asks beyond turns
        exact ⟨e, rejected, refused, by rw [refused]; exact hasBody_fail _⟩
      · have refused := sound.handle_busy asks within active turns
        exact ⟨refused, by rw [refused]; exact hasBody_fail _⟩
    · intro r calls turns
      exact ⟨sound.handle_stop_load calls, sound.reports_stop calls,
        fun again asked asks within later => sound.granted_after_stop calls asks within,
        sound.handle_stop_of_idle calls⟩
    · intro r calls turns
      exact sound.reports_status calls

/-- A start that is granted, one that finds the first run active, and a stop that waits for it. -/
def inTurn : List LoadControl.Action :=
  .requestStart { workers := 2 } :: List.replicate 5 (.proceed 0) ++
    .requestStart { workers := 1 } :: List.replicate 3 (.proceed 1) ++
    [.leave 0, .requestStop, .proceed 2, .proceed 2, .leave 0, .exit 0, .proceed 2]

def asking (workers : String) : Request where
  method := "POST"
  target := "/api/load/start"
  contentType := some "application/json"
  body := "[" ++ workers ++ ",1,0]"

def stopping : Request := { method := "POST", target := "/api/load/stop" }

def small : Server := { collector := fresh 1 Nat.one_pos, bus := { capacity := 2 } }

theorem asks_asking {workers : String} {n : Nat}
    (body : LoadRequest.read (asking workers).body = .ok ⟨n, 1, 0⟩) :
    Asks (asking workers) ⟨n, 1, 0⟩ where
  calls := {
    method := by simp [asking]
    path := (by decide : Route.ofPath? (String.ofList ((path? (asking "").target).getD [])) = _)
    allowed := rfl }
  json := (by decide : (asking "").hasJsonBody = true)
  body := body

def ending : Collector.Step :=
  .observe { stage := .ended, transport := .http, requestId := "a", timestamp := .epoch }

/-- A run is going on and two transactions were completed, of which the cache keeps one. -/
def crowd : List Happening := [.request (asking "2") 0, .collect ending, .collect ending]

theorem load_control_serial_crowded :
    new 1 2 = .ok small ∧
    Serial 2 {} inTurn ∧ (∃ t ∈ steps? 2 {} inTurn, t.Quiet ∧ ¬ ∃ k, t.Active k) ∧
    (let busy := crowd.foldl Server.after small
     busy.handle (asking "1") 0 = (busy, .ok (fail .alreadyRunning)) ∧
      (∃ text, busy.handle (asking "3") 0 = (busy, .ok (fail (.badRequest text)))) ∧
      HasBody (busy.handle { target := "/api/load/status" } 0).2 200
        [("running", .bool true), ("in_flight", .nat 0), ("cached", .nat 1), ("completed", .nat 2),
          ("evicted", .nat 1), ("queue_capacity", .nat 2)]) ∧
    let ended := [Happening.request (asking "2") 0, .runEnds].foldl Server.after small
    (ended.handle stopping 5).1 = { ended with load := { ended.load with handle := false } } := by
  have h : new 1 2 = .ok small := rfl
  obtain ⟨atomic, server⟩ := load_control_serial h
  have asksOne : Asks (asking "1") ⟨1, 1, 0⟩ := asks_asking (by cbv)
  have asksTwo : Asks (asking "2") ⟨2, 1, 0⟩ := asks_asking (by cbv)
  have asksThree : Asks (asking "3") ⟨3, 1, 0⟩ := asks_asking (by cbv)
  have stops : Calls stopping .loadStop := ⟨by decide, by decide, rfl⟩
  have status : Calls { target := "/api/load/status" } .loadStatus := ⟨by decide, by decide, rfl⟩
  have granted : (small.handle (asking "2") 0).1 = { small with load := started ⟨2, 1, 0⟩ } := by
    obtain ⟨-, -, starts, -⟩ := server []
    exact ((starts _ _ asksTwo 0).2.1 (by decide) rfl).1
  have serial : Serial 2 {} inTurn := by decide
  refine ⟨h, serial, ?_, ?_, ?_⟩
  · have possible : ∃ t ∈ steps? 2 {} inTurn, t.Quiet ∧ t.running = false := by decide
    obtain ⟨t, ht, quiet, clear⟩ := possible
    refine ⟨t, ht, quiet, ?_⟩
    rw [← (atomic inTurn t serial ht quiet).1, clear]
    decide
  · intro busy
    have now : busy = { small with
        load := started ⟨2, 1, 0⟩
        collector := (fresh 1 Nat.one_pos).run [ending, ending] } := by
      simp only [busy, crowd, List.foldl_cons, List.foldl_nil, Server.after, granted]
      rfl
    have active : busy.load.active = true := by rw [now]; rfl
    obtain ⟨-, -, starts, -, shows⟩ := server crowd
    obtain ⟨e, -, refused, -⟩ := (starts _ _ asksThree 0).2.2.1 (by decide)
    have body : HasBody (busy.handle _ 0).2 200 [("running", .bool busy.load.active),
        ("in_flight", .nat busy.collector.inFlight.size),
        ("cached", .nat busy.collector.cache.size),
        ("completed", .nat busy.collector.tally.total),
        ("evicted", .nat busy.collector.tally.evicted), ("queue_capacity", .nat 2)] :=
      (shows _ status 0).2.body
    have counts : busy.collector.inFlight.size = 0 ∧ busy.collector.cache.size = 1 ∧
        busy.collector.tally.total = 2 ∧ busy.collector.tally.evicted = 1 := by
      rw [now]
      decide
    obtain ⟨inFlight, cached, completed, evicted⟩ := counts
    refine ⟨((starts _ _ asksOne 0).2.2.2 (by decide) active).1, ⟨e.message, refused⟩, ?_⟩
    rwa [active, inFlight, cached, completed, evicted] at body
  · intro ended
    have idle : ended.load.active = false := congrArg (·.load.finish.active) granted
    obtain ⟨-, -, -, stop, -⟩ := server [.request (asking "2") 0, .runEnds]
    exact (stop _ stops 5).2.2.2 idle

/-- A refusal shows nothing of the pipeline, and so no transaction that was completed. -/
theorem refusal_without_counts :
    new 1 2 = .ok small ∧ Asks (asking "0") ⟨0, 1, 0⟩ ∧
    ∃ fields, HasBody (small.handle (asking "0") 0).2 400 fields ∧
      fields.map (·.1) = ["error", "status"] := by
  have h : new 1 2 = .ok small := rfl
  have asks : Asks (asking "0") ⟨0, 1, 0⟩ := asks_asking (by cbv)
  obtain ⟨e, -, refused⟩ := (sound_of_new h).handle_beyond asks (by decide) 0
  have body : HasBody (small.handle (asking "0") 0).2 400
      [("error", .str e.message), ("status", .nat 400)] := by
    rw [refused]
    exact hasBody_fail _
  exact ⟨h, asks, _, body, rfl⟩

end Server

end RequestMeter
