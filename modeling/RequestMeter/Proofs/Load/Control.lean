import RequestMeter.Proofs.Load.Sequential

/-! # What load control admits

A start is granted when its request is within the limits and the flag is clear; otherwise it changes
nothing.  Whatever is asked one after another, the flag is set just while a run is active, and the
slot keeps the handle of that run.
-/
namespace RequestMeter

/-- The limits of a request. -/
structure LoadRequest.Within (r : LoadRequest) (queueCapacity : Nat) : Prop where
  workers : 1 ≤ r.workers ∧ r.workers ≤ min queueCapacity (UInt32.size - 1)
  duration : 1 ≤ r.durationSecs ∧ r.durationSecs ≤ 300
  errorShare : r.errorPct ≤ 100

namespace LoadRequest

variable {r : LoadRequest} {queueCapacity : Nat}

theorem within_iff : r.Within queueCapacity ↔
    (1 ≤ r.workers ∧ r.workers ≤ min queueCapacity (UInt32.size - 1)) ∧
      (1 ≤ r.durationSecs ∧ r.durationSecs ≤ 300) ∧ r.errorPct ≤ 100 :=
  ⟨fun h => ⟨h.workers, h.duration, h.errorShare⟩, fun ⟨hw, hd, he⟩ => ⟨hw, hd, he⟩⟩

instance : Decidable (r.Within queueCapacity) := decidable_of_iff _ within_iff.symm

theorem check_of_within (h : r.Within queueCapacity) : r.check queueCapacity = .ok () := by
  have hw := h.workers
  have hd := h.duration
  have he := h.errorShare
  rw [check, if_neg (by omega), maxDurationSecs, if_neg (by omega), if_neg (by omega)]

theorem check_of_not_within (h : ¬ r.Within queueCapacity) :
    ∃ e, r.check queueCapacity = .error e ∧ e ≠ .alreadyRunning := by
  rw [check]
  split
  next => exact ⟨_, rfl, nofun⟩
  next hw =>
    split
    next => exact ⟨_, rfl, nofun⟩
    next hd =>
      split
      next => exact ⟨_, rfl, nofun⟩
      next he =>
        rw [maxDurationSecs] at hd
        exact absurd ⟨by omega, by omega, by omega⟩ h

end LoadRequest

namespace LoadControl

variable {c : LoadControl} {r : LoadRequest} {queueCapacity : Nat}

/-- Load control while a run is active that nothing has stopped. -/
def started (r : LoadRequest) : LoadControl where
  running := true
  handle := true
  active := true
  workers := r.workers

theorem start_of_error {e : ControlError} (h : r.check queueCapacity = .error e) :
    c.start r queueCapacity = .error e := by
  rw [start, h]
  rfl

theorem start_of_running (h : r.check queueCapacity = .ok ()) (set : c.running = true) :
    c.start r queueCapacity = .error .alreadyRunning := by
  rw [start, h, set]
  rfl

theorem start_of_clear (h : r.check queueCapacity = .ok ()) (clear : c.running = false) :
    c.start r queueCapacity = .ok (started r) := by
  rw [start, h, clear]
  rfl

/-- The flag is set just while a run is active, and the slot keeps the handle of that run. -/
structure Coherent (c : LoadControl) : Prop where
  running : c.running = c.active
  handle : c.active = true → c.handle = true

theorem coherent_init : Coherent {} := ⟨rfl, nofun⟩

theorem coherent_started (r : LoadRequest) : Coherent (started r) := ⟨rfl, fun _ => rfl⟩

theorem Coherent.start (h : Coherent c) (r : LoadRequest) (queueCapacity : Nat) :
    Coherent (c.after queueCapacity (.start r)) := by
  rw [after]
  cases hr : r.check queueCapacity with
  | error e =>
    rw [start_of_error hr]
    exact h
  | ok _ =>
    cases hrunning : c.running with
    | true =>
      rw [start_of_running hr hrunning]
      exact h
    | false =>
      rw [start_of_clear hr hrunning]
      exact coherent_started r

/-- No run outlives a stop, because the slot keeps its handle. -/
theorem Coherent.stop_eq (h : Coherent c) :
    c.stop = { c with running := false, handle := false, active := false } := by
  rw [LoadControl.stop]
  cases hactive : c.active with
  | false => rfl
  | true => rw [h.handle hactive]; rfl

theorem Coherent.stop (h : Coherent c) : Coherent c.stop := by
  rw [h.stop_eq]
  exact ⟨rfl, nofun⟩

theorem Coherent.finish (h : Coherent c) : Coherent c.finish := by
  rw [LoadControl.finish]
  split
  · exact ⟨rfl, fun active => absurd active Bool.false_ne_true⟩
  · exact h

theorem Coherent.after (h : Coherent c) (queueCapacity : Nat) (o : Operation) :
    Coherent (c.after queueCapacity o) := by
  cases o with
  | start r => exact h.start r queueCapacity
  | stop => exact h.stop
  | finish => exact h.finish

theorem coherent_foldl (queueCapacity : Nat) (operations : List Operation) :
    Coherent (operations.foldl (LoadControl.after queueCapacity) {}) := by
  induction operations using List.reverseRecOn with
  | nil => exact coherent_init
  | append_singleton operations o ih =>
    rw [List.foldl_append]
    exact ih.after queueCapacity o

end LoadControl

end RequestMeter
