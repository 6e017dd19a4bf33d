/-! # Writers

Bytes are written in calls.  One call takes some of the bytes offered, the first ones, or fails; writing
all of them repeats the call until none are left or one fails.
-/
namespace RequestMeter

/-- What bytes can be written to.  A call that is interrupted takes nothing and is made again, so it
is part of the next one here. -/
class ByteSink (ω : Type) where
  /-- How many of some bytes are taken, or why none are. -/
  write : ω → List UInt8 → ω × Except String Nat
  /-- Passes on what was held back. -/
  flush : ω → ω × Except String Unit

namespace ByteSink

variable {ω : Type} [ByteSink ω]

/-- Writes all bytes, in as many calls as it takes.  A call that takes none of them is a failure. -/
def writeAll (w : ω) (bytes : List UInt8) : ω × Except String Unit :=
  if _h : bytes = [] then (w, .ok ())
  else match write w bytes with
    | (w, .error text) => (w, .error text)
    | (w, .ok n) =>
      if _hn : n = 0 then (w, .error "failed to write whole buffer")
      else writeAll w (bytes.drop n)
termination_by bytes.length
decreasing_by
  have := List.length_pos_iff.mpr _h
  simp only [List.length_drop]
  omega

def writeEach (w : ω) : List (List UInt8) → ω × Except String Unit
  | [] => (w, .ok ())
  | piece :: rest => match writeAll w piece with
    | (w, .ok ()) => writeEach w rest
    | (w, .error text) => (w, .error text)

theorem writeEach_of_ok {w v : ω} {piece : List UInt8} (h : writeAll w piece = (v, .ok ()))
    (rest : List (List UInt8)) : writeEach w (piece :: rest) = writeEach v rest := by
  rw [writeEach, h]

theorem writeEach_of_error {w v : ω} {piece : List UInt8} {text : String}
    (h : writeAll w piece = (v, .error text)) (rest : List (List UInt8)) :
    writeEach w (piece :: rest) = (v, .error text) := by
  rw [writeEach, h]

end ByteSink

/-- A writer that keeps what it takes, with limits for a call and for all calls together. -/
structure Writer where
  /-- How many more bytes are taken; none means any number. -/
  room : Option Nat := none
  /-- The most bytes that the call of a number takes; zero counts as one. -/
  chunk : Option (Nat → Nat) := none
  flushFails : Bool := false
  calls : Nat := 0
  accepted : List UInt8 := []

namespace Writer

def grant (w : Writer) (n : Nat) : Nat :=
  let n := match w.chunk with
    | some f => min n (max 1 (f w.calls))
    | none => n
  match w.room with
  | some room => min n room
  | none => n

def take (w : Writer) (n : Nat) (bytes : List UInt8) : Writer :=
  { w with
    room := w.room.map (· - n)
    calls := w.calls + 1
    accepted := w.accepted ++ bytes.take n }

instance : ByteSink Writer where
  write w bytes :=
    let n := w.grant bytes.length
    if n = 0 then ({ w with calls := w.calls + 1 }, .error "sink is full") else (w.take n bytes, .ok n)
  flush w := (w, if w.flushFails then .error "flush failed" else .ok ())

end Writer

end RequestMeter
