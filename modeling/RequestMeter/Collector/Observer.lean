import RequestMeter.Collector.Basic
import RequestMeter.Bus.Observer

/-! # Collectors on the bus

On the bus a collector also logs every completed transaction.  An event whose bytes overflow makes it
fail.
-/
namespace RequestMeter.Collector

def react (c : Collector) (e : Event) : Reaction Collector :=
  let o := c.observe e
  match o.done with
  | .ok done => {
      next := o.next
      notices := o.notices ++ if done then [.transactionComplete e.requestId] else [] }
  | .error _ => { next := o.next, notices := o.notices, failed := true }

instance : Observer Collector := ⟨react⟩

end RequestMeter.Collector
