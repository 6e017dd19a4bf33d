import RequestMeter.Bus.Observer
import RequestMeter.Limit

/-! # The event bus

Senders put events into a bounded queue.  One dispatch loop takes them in order and shows each to
every observer before it takes the next.  The loop ends when it is told to stop, when no sender and
no event are left, or when an observer fails; once it has ended the bus is closed.
-/
namespace RequestMeter

inductive Phase where
  | running
  /-- The loop was told to stop or ran out of senders. -/
  | stopped
  /-- An observer failed. -/
  | failed
  deriving DecidableEq, Repr

structure Bus where
  capacity : Nat
  /-- Accepted events that the loop has not taken; once it has ended they are lost. -/
  queue : List Event := []
  senders : Nat := 1
  /-- Whether the loop has been told to stop. -/
  stopping : Bool := false
  phase : Phase := .running
  /-- Events that every observer was shown. -/
  dispatched : Nat := 0
  deriving DecidableEq

namespace Bus

def new (capacity : Nat) : Except MeterError Bus :=
  if capacity = 0 then .error (.invalidQueueCapacity capacity) else .ok { capacity }

/-- Gives the queue its places before the loop begins. -/
def start (b : Bus) : Except HostLimit Bus := do
  HostLimit.queue.check b.capacity
  return b

def isClosed (b : Bus) : Bool := b.phase ≠ .running

def isFull (b : Bus) : Bool := b.capacity ≤ b.queue.length

/-! ## Senders -/

def trySend (b : Bus) (e : Event) : Except MeterError Bus :=
  if b.isClosed then .error .busClosed
  else if b.isFull then .error (.queueFull b.capacity)
  else .ok { b with queue := b.queue ++ [e] }

def cloneSender (b : Bus) : Bus := { b with senders := b.senders + 1 }

def dropSender (b : Bus) : Bus := { b with senders := b.senders - 1 }

def signalStop (b : Bus) : Bus := { b with stopping := true }

/-! ## The dispatch loop -/

/-- What one turn of the loop did: the bus and its observers after it, the event that was taken with
the number of observers that were shown it, and what is logged. -/
structure Turn (ω : Type) where
  bus : Bus
  observers : List ω
  taken : Option (Event × Nat) := none
  notices : List Notice := []

variable {ω : Type} [Observer ω]

def stop (b : Bus) (os : List ω) : Turn ω where
  bus := { b with phase := .stopped }
  observers := os
  notices := [.busStopped b.dispatched b.queue.length]

def take (b : Bus) (e : Event) (rest : List Event) (os : List ω) : Turn ω :=
  let d := Delivery.deliver os e
  { bus := if d.failed then { b with queue := rest, phase := .failed }
      else { b with queue := rest, dispatched := b.dispatched + 1 }
    observers := d.observers
    taken := some (e, d.shown)
    notices := d.notices }

/-- One turn of the loop, or none when it has ended or waits for an event. -/
def turn? (b : Bus) (os : List ω) : Option (Turn ω) :=
  if b.isClosed then none
  else if b.stopping then some (b.stop os)
  else match b.queue with
    | e :: rest => some (b.take e rest os)
    | [] => if b.senders = 0 then some (b.stop os) else none

/-- What a series of turns did. -/
structure Run (ω : Type) where
  bus : Bus
  observers : List ω
  taken : List (Event × Nat) := []
  notices : List Notice := []

/-- Turns until none is left, at most as many as the fuel. -/
def turns (b : Bus) (os : List ω) : Nat → Run ω
  | 0 => { bus := b, observers := os }
  | fuel + 1 => match b.turn? os with
    | none => { bus := b, observers := os }
    | some t =>
      let r := turns t.bus t.observers fuel
      { r with taken := t.taken.toList ++ r.taken, notices := t.notices ++ r.notices }

def drain (b : Bus) (os : List ω) : Run ω := b.turns os (b.queue.length + 1)

/-- The most events that the loop takes before it lets other tasks go on. -/
def burstSize : Nat := 128

def bursts (b : Bus) (os : List ω) (n : Nat) : Run ω := b.turns os (n * burstSize)

/-- Accepts an event.  The loop goes on for one burst if there is no room, or if the sender has to let
it. -/
def send (b : Bus) (os : List ω) (e : Event) (yields : Bool := false) :
    Run ω × Except MeterError Unit :=
  let r : Run ω :=
    if (b.isFull || yields) && !b.isClosed then b.bursts os 1 else { bus := b, observers := os }
  match r.bus.trySend e with
  | .ok bus => ({ r with bus }, .ok ())
  | .error err => (r, .error err)

/-- Tells the loop to stop, waits for its end and says how many events were dispatched; a loop that
failed counts none. -/
def shutdown (b : Bus) (os : List ω) : Run ω × Nat :=
  let r := b.signalStop.drain os
  if r.bus.phase = .failed then ({ r with notices := r.notices ++ [.busFailed] }, 0)
  else (r, r.bus.dispatched)

end Bus

end RequestMeter
