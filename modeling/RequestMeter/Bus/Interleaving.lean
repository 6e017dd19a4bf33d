import RequestMeter.Bus.Basic

/-! # The bus step by step

Producers and the dispatch loop act in atomic steps that interleave in any order.  A producer that
finds no room may wait for it in a line.  A place that becomes free is kept for the first producer in
the line, so that no other takes it.
-/
namespace RequestMeter.Bus

structure Offer where
  producer : Nat
  event : Event
  deriving DecidableEq

structure Answer where
  offer : Offer
  result : Except MeterError Unit

def Answer.accepted (a : Answer) : Bool := a.result.isOk

structure Interleaving (ω : Type) where
  bus : Bus
  observers : List ω
  /-- Sends that wait for room, the first to come at the head. -/
  waiting : List Offer := []
  /-- Sends that waited and have a place of the queue kept for them. -/
  admitted : List Offer := []
  /-- All answers, in the order in which they were given. -/
  answers : List Answer := []
  /-- All calls of observers, each with the number of the observer, in the order in which they were
  made. -/
  calls : List (Nat × Event) := []
  notices : List Notice := []

inductive Action where
  /-- A producer sends without waiting. -/
  | trySend (o : Offer)
  /-- A producer sends and waits if there is no room. -/
  | send (o : Offer)
  /-- A send that waited goes on, with its place or because the bus is closed. -/
  | resume (o : Offer)
  /-- The loop does one turn. -/
  | dispatch
  | signalStop
  | cloneSender
  | dropSender

def Action.offer? : Action → Option Offer
  | trySend o | send o => some o
  | _ => none

variable {ω : Type}

def Turn.calls (t : Turn ω) : List (Nat × Event) :=
  match t.taken with
  | some (e, shown) => (List.range shown).map fun i => (i, e)
  | none => []

namespace Interleaving

/-- Sends without an answer. -/
def pending (s : Interleaving ω) : List Offer := s.admitted ++ s.waiting

/-- Whether there is a place in the queue that is kept for nobody. -/
def hasRoom (s : Interleaving ω) : Bool := s.bus.queue.length + s.admitted.length < s.bus.capacity

/-- A producer can send while there is a sender, and once its last send is answered. -/
def canOffer (s : Interleaving ω) (o : Offer) : Bool :=
  s.bus.senders ≠ 0 && s.pending.all fun p => p.producer ≠ o.producer

def answer (s : Interleaving ω) (o : Offer) (result : Except MeterError Unit) : Interleaving ω :=
  { s with answers := s.answers ++ [⟨o, result⟩] }

/-- The bus accepts an offer or refuses it. -/
def settle (s : Interleaving ω) (o : Offer) : Interleaving ω :=
  match s.bus.trySend o.event with
  | .ok bus => { s with bus }.answer o (.ok ())
  | .error e => s.answer o (.error e)

/-- A place that is free is kept for the first send that waits. -/
def grant (s : Interleaving ω) : Interleaving ω :=
  match s.waiting with
  | o :: rest =>
    if s.hasRoom then { s with admitted := s.admitted ++ [o], waiting := rest } else s
  | [] => s

def turned (s : Interleaving ω) (t : Turn ω) : Interleaving ω :=
  { s with
    bus := t.bus
    observers := t.observers
    calls := s.calls ++ t.calls
    notices := s.notices ++ t.notices }

variable [Observer ω]

/-- One atomic step, or none where the action is not possible. -/
def step? (s : Interleaving ω) : Action → Option (Interleaving ω)
  | .trySend o =>
    if !s.canOffer o then none
    else if s.bus.isClosed || s.hasRoom then some (s.settle o)
    else some (s.answer o (.error (.queueFull s.bus.capacity)))
  | .send o =>
    if !s.canOffer o then none
    else if s.bus.isClosed || s.hasRoom then some (s.settle o)
    else some { s with waiting := s.waiting ++ [o] }
  | .resume o =>
    if o ∈ s.admitted then some ({ s with admitted := s.admitted.erase o }.settle o)
    else if s.bus.isClosed && o ∈ s.waiting then
      some ({ s with waiting := s.waiting.erase o }.settle o)
    else none
  | .dispatch => (s.bus.turn? s.observers).map fun t => (s.turned t).grant
  | .signalStop => some { s with bus := s.bus.signalStop }
  | .cloneSender =>
    if s.bus.senders = 0 then none else some { s with bus := s.bus.cloneSender }
  | .dropSender =>
    -- A send that has no answer keeps a sender.
    if s.bus.senders = 0 ∨ s.bus.senders = 1 ∧ s.pending ≠ [] then none
    else some { s with bus := s.bus.dropSender }

def steps? (s : Interleaving ω) (actions : List Action) : Option (Interleaving ω) :=
  actions.foldlM step? s

end Interleaving

end RequestMeter.Bus
