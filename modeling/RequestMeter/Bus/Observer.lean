import RequestMeter.Event.Basic
import RequestMeter.Notice

/-! # Observers

An observer is shown events one by one and may fail.  Several observers are shown each event in the
order of their registration; those after one that fails are not shown it.
-/
namespace RequestMeter

structure Reaction (ω : Type) where
  next : ω
  notices : List Notice := []
  failed : Bool := false

class Observer (ω : Type) where
  observe : ω → Event → Reaction ω

/-- Observers of two kinds side by side. -/
instance {α β : Type} [Observer α] [Observer β] : Observer (α ⊕ β) where
  observe
    | .inl a, e => let r := Observer.observe a e; { r with next := .inl r.next }
    | .inr b, e => let r := Observer.observe b e; { r with next := .inr r.next }

structure Delivery (ω : Type) where
  observers : List ω
  /-- How many observers were shown the event. -/
  shown : Nat
  notices : List Notice
  failed : Bool

namespace Delivery

variable {ω : Type} [Observer ω]

def deliver : List ω → Event → Delivery ω
  | [], _ => ⟨[], 0, [], false⟩
  | o :: os, e =>
    let r := Observer.observe o e
    if r.failed then ⟨r.next :: os, 1, r.notices, true⟩
    else
      let d := deliver os e
      ⟨r.next :: d.observers, d.shown + 1, r.notices ++ d.notices, d.failed⟩

end Delivery

end RequestMeter
