/-
Nrf54Sniffer.Lib.DelayedFlush — a batch that a delayed work item flushes.

A delayed work item is a timer, a place in the queue of one worker thread, and
a handler. Rescheduling it arms the timer. Cancelling it disarms the timer and
takes the item out of the queue, and does not stop a handler that has been
entered. An expiry queues the item.

The batch is appended to under a lock, and an append ends by rescheduling the
item or, where it left the batch empty, by cancelling it. Whoever flushes the
batch on purpose cancels the item first and takes the lock for the flush
afterwards, so anything may happen in between.

`run_covered` is what such a batch is for: while something is in it, something
is still going to flush it.
-/
import Nrf54Sniffer.Lib.Machine

namespace Nrf54Sniffer.Lib

/-- The operations of a batch in a state `σ`, with the timer's flag, and what
they promise. `π` is what is appended; `ρ` is what the rest of the program may
put around the batch. -/
structure FlushedBatch (σ π ρ : Type) where
  append : σ → π → Option σ
  flush : σ → Option σ
  elsewhere : σ → ρ → σ
  isEmpty : σ → Bool
  armed : σ → Bool
  setArmed : σ → Bool → σ
  /-- An append that cancels has emptied the batch. -/
  append_cancels : ∀ {s p s'}, append s p = some s' → armed s' = false → isEmpty s' = true
  flush_isEmpty : ∀ {s s'}, flush s = some s' → isEmpty s' = true
  elsewhere_armed : ∀ s r, armed (elsewhere s r) = armed s
  elsewhere_isEmpty : ∀ s r, isEmpty (elsewhere s r) = isEmpty s

namespace FlushedBatch

variable {σ π ρ : Type}

/-- Where the worker is in the handler. -/
inductive Worker where
  | idle
  | entered
  | flushed
  deriving DecidableEq, Repr

/-- The batch, whether the item is queued, the worker, and how many callers
have cancelled and not yet flushed. -/
structure State (σ : Type) where
  batch : σ
  queued : Bool := false
  worker : Worker := .idle
  flushing : Nat := 0

/-- A step of a thread or of the timer. -/
inductive Label (π ρ : Type) where
  | append (p : π)
  | cancel
  | flush
  | expire
  | enter
  | handlerFlush
  | leave
  | elsewhere (r : ρ)

variable (B : FlushedBatch σ π ρ)

/-- One step. -/
def step (s : State σ) : Label π ρ → Option (State σ)
  | .append p =>
      (B.append s.batch p).map fun batch => { s with batch, queued := s.queued && B.armed batch }
  | .cancel =>
      some { s with
        batch := B.setArmed s.batch false, queued := false, flushing := s.flushing + 1 }
  | .flush =>
      if s.flushing = 0 then none
      else (B.flush s.batch).map fun batch => { s with batch, flushing := s.flushing - 1 }
  | .expire =>
      if B.armed s.batch then some { s with batch := B.setArmed s.batch false, queued := true }
      else none
  | .enter =>
      if s.queued ∧ s.worker = .idle then some { s with queued := false, worker := .entered }
      else none
  | .handlerFlush =>
      if s.worker = .entered then
        (B.flush s.batch).map fun batch => { s with batch, worker := .flushed }
      else none
  | .leave => if s.worker = .flushed then some { s with worker := .idle } else none
  | .elsewhere r => some { s with batch := B.elsewhere s.batch r }

/-- The batch, the item and the callers as a machine. -/
def machine : Machine (State σ) (Label π ρ) := ⟨B.step⟩

/-- What is in the batch is going to be flushed: the timer is armed, the item
is queued, its handler has been entered and has its flush ahead, or so has a
caller that cancelled. -/
def Covered (s : State σ) : Prop :=
  B.isEmpty s.batch = false →
    B.armed s.batch = true ∨ s.queued = true ∨ s.worker = .entered ∨ 0 < s.flushing

/-- An empty batch needs nothing. -/
theorem covered_of_isEmpty {s : State σ} (h : B.isEmpty s.batch = true) : B.Covered s := by
  intro hopen
  rw [h] at hopen
  cases hopen

theorem step_covered (s : State σ) (l : Label π ρ) (s' : State σ) (h : B.Covered s)
    (hs : B.step s l = some s') : B.Covered s' := by
  cases l with
  | append p =>
      obtain ⟨batch, happend, heq⟩ := Option.map_eq_some_iff.mp hs
      cases heq
      cases harmed : B.armed batch with
      | true => exact fun _ => .inl harmed
      | false => exact B.covered_of_isEmpty (B.append_cancels happend harmed)
  | cancel =>
      cases hs
      exact fun _ => .inr (.inr (.inr (Nat.succ_pos _)))
  | flush =>
      simp only [step] at hs
      split at hs
      · cases hs
      · obtain ⟨batch, hflush, heq⟩ := Option.map_eq_some_iff.mp hs
        cases heq
        exact B.covered_of_isEmpty (B.flush_isEmpty hflush)
  | expire =>
      simp only [step] at hs
      split at hs
      · cases hs
        exact fun _ => .inr (.inl rfl)
      · cases hs
  | enter =>
      simp only [step] at hs
      split at hs
      · cases hs
        exact fun _ => .inr (.inr (.inl rfl))
      · cases hs
  | handlerFlush =>
      simp only [step] at hs
      split at hs
      · obtain ⟨batch, hflush, heq⟩ := Option.map_eq_some_iff.mp hs
        cases heq
        exact B.covered_of_isEmpty (B.flush_isEmpty hflush)
      · cases hs
  | leave =>
      simp only [step] at hs
      split at hs
      · -- The handler has done its flush, so it was not what covered the batch.
        rename_i hflushed
        cases hs
        intro hopen
        rcases h hopen with harmed | hqueued | hentered | hflushing
        · exact .inl harmed
        · exact .inr (.inl hqueued)
        · rw [hflushed] at hentered
          cases hentered
        · exact .inr (.inr (.inr hflushing))
      · cases hs
  | elsewhere r =>
      cases hs
      intro hopen
      rw [B.elsewhere_isEmpty] at hopen
      rw [B.elsewhere_armed]
      exact h hopen

/-- **Nothing is stranded.** From an empty batch, whatever the threads and the
timer do. -/
theorem run_covered {s t : State σ} {ls : List (Label π ρ)} (h : B.isEmpty s.batch = true)
    (hrun : B.machine.run s ls = some t) : B.Covered t :=
  B.machine.run_invariant B.step_covered (B.covered_of_isEmpty h) hrun

/-- A caller that nothing interrupts. -/
theorem run_cancel_flush (s : State σ) :
    B.machine.run s [.cancel, .flush] =
      (B.flush (B.setArmed s.batch false)).map fun batch =>
        { s with batch, queued := false } := by
  simp only [Machine.run_cons, Machine.run_nil, machine, step, Option.bind_some,
    Nat.add_one_ne_zero, if_false, Nat.add_sub_cancel]
  cases B.flush (B.setArmed s.batch false) <;> rfl

end FlushedBatch

end Nrf54Sniffer.Lib
