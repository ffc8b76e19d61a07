/-
Nrf54Sniffer.Lib.TimedFlush — how long a batch with a delayed flush holds what
is in it.

The batch of `DelayedFlush` with a clock. Each append reschedules the item, so
the timer expires `linger` after the last one. A flush is due once the item is
queued or entered or a caller has cancelled, and then it is done within
`slack`. Time passes as far as these two let it; every other step is one of
`DelayedFlush`, so what is in the batch is covered at every moment.

The timer measures silence: what came first may wait once for each that came
after it. `run_waits` says that it waits no longer.
-/
import Nrf54Sniffer.Lib.DelayedFlush

namespace Nrf54Sniffer.Lib

/-- A batch whose appends either join what is open or leave at most themselves,
and that is sent before it holds `room`. -/
structure TimedBatch (σ π ρ : Type) extends FlushedBatch σ π ρ where
  size : σ → Nat
  room : Nat
  size_isEmpty : ∀ {s}, isEmpty s = true ↔ size s = 0
  append_size : ∀ {s p s'}, append s p = some s' → size s' = size s + 1 ∨ size s' ≤ 1
  append_room : ∀ {s p s'}, append s p = some s' → size s < room → size s' < room
  flush_armed : ∀ {s s'}, flush s = some s' → armed s' = armed s
  elsewhere_size : ∀ s r, size (elsewhere s r) = size s
  setArmed_size : ∀ s a, size (setArmed s a) = size s
  setArmed_armed : ∀ s a, armed (setArmed s a) = a

namespace TimedBatch

variable {σ π ρ : Type}

/-- The batch and the item; the clock; when the timer was last set; since when
a flush has been due; and when what is in the batch was appended. -/
structure State (σ : Type) where
  batch : FlushedBatch.State σ
  now : Nat := 0
  touched : Nat := 0
  due : Nat := 0
  arrivals : List Nat := []

/-- A step of `DelayedFlush`, or some time. -/
inductive Label (π ρ : Type) where
  | act (l : FlushedBatch.Label π ρ)
  | pass (time : Nat)

/-- Someone is to flush the batch: the worker, or a caller that cancelled. -/
def FlushDue (s : FlushedBatch.State σ) : Prop :=
  s.queued = true ∨ s.worker = .entered ∨ 0 < s.flushing

instance (s : FlushedBatch.State σ) : Decidable (FlushDue s) :=
  inferInstanceAs (Decidable (_ ∨ _ ∨ _))

variable (B : TimedBatch σ π ρ) (linger slack : Nat)

/-- The timer does not expire before its time. -/
def timely (s : State σ) : FlushedBatch.Label π ρ → Bool
  | .expire => s.touched + linger ≤ s.now
  | _ => true

/-- Time that lets an armed timer expire, and a due flush be done. -/
def MayPass (s : State σ) (time : Nat) : Prop :=
  (B.armed s.batch.batch = true → s.now + time ≤ s.touched + linger) ∧
    (FlushDue s.batch → s.now + time ≤ s.due + slack)

instance (s : State σ) (time : Nat) : Decidable (B.MayPass linger slack s time) :=
  inferInstanceAs (Decidable (_ ∧ _))

/-- An append sets the timer anew. -/
def touchedBy (s : State σ) : FlushedBatch.Label π ρ → Nat
  | .append _ => s.now
  | _ => s.touched

/-- A flush that is due stays due until there is one. -/
def dueAfter (s : State σ) : FlushedBatch.Label π ρ → Nat
  | .flush | .handlerFlush => s.now
  | _ => if FlushDue s.batch then s.due else s.now

/-- When what is left in the batch was appended. -/
def arrivalsAfter (s : State σ) (left : Nat) : FlushedBatch.Label π ρ → List Nat
  | .append _ =>
      if left = B.size s.batch.batch + 1 then s.arrivals ++ [s.now] else [s.now].take left
  | _ => s.arrivals.take left

/-- One step. -/
def step (s : State σ) : Label π ρ → Option (State σ)
  | .act l =>
      if timely linger s l then
        (B.toFlushedBatch.step s.batch l).map fun batch =>
          { s with
            batch
            touched := touchedBy s l
            due := dueAfter s l
            arrivals := B.arrivalsAfter s (B.size batch.batch) l }
      else none
  | .pass time =>
      if B.MayPass linger slack s time then some { s with now := s.now + time } else none

/-- The batch and the clock as a machine. -/
def machine : Machine (State σ) (Label π ρ) := ⟨B.step linger slack⟩

/-! ## The longest wait -/

theorem arrivalsAfter_joined {s : State σ} {left : Nat} {p : π}
    (h : left = B.size s.batch.batch + 1) :
    B.arrivalsAfter s left (.append p) = s.arrivals ++ [s.now] := if_pos h

theorem arrivalsAfter_alone {s : State σ} {left : Nat} {p : π}
    (h : left ≠ B.size s.batch.batch + 1) :
    B.arrivalsAfter s left (.append p) = [s.now].take left := if_neg h

/-- One for each that is left. -/
theorem arrivalsAfter_length {s : State σ} {left : Nat} {p : π}
    (hcounted : s.arrivals.length = B.size s.batch.batch)
    (h : left = B.size s.batch.batch + 1 ∨ left ≤ 1) :
    (B.arrivalsAfter s left (.append p)).length = left := by
  by_cases hjoined : left = B.size s.batch.batch + 1
  · rw [B.arrivalsAfter_joined hjoined, List.length_append, hcounted, hjoined]
    rfl
  · rw [B.arrivalsAfter_alone hjoined, List.length_take]
    exact Nat.min_eq_left (h.resolve_left hjoined)

/-- What holds at every moment: the timer and the due flush are on time, and
what is in the batch came in steps of at most a linger and a slack. -/
structure OnTime (s : State σ) : Prop where
  counted : s.arrivals.length = B.size s.batch.batch
  fits : B.size s.batch.batch < B.room
  covered : B.toFlushedBatch.Covered s.batch
  touched : s.touched ≤ s.now
  due : s.due ≤ s.now
  silence : B.armed s.batch.batch = true → s.now ≤ s.touched + linger
  owed : FlushDue s.batch → s.now ≤ s.due + slack
  soon : FlushDue s.batch → B.size s.batch.batch ≠ 0 → s.due ≤ s.touched + linger
  spaced : ∀ {j a : Nat}, s.arrivals[j]? = some a →
    s.touched ≤ a + (s.arrivals.length - 1 - j) * (linger + slack)

variable {B linger slack} {s : State σ}

/-- While nobody is to flush it, what is in the batch has its timer. -/
theorem OnTime.armed (h : B.OnTime linger slack s) (hopen : B.size s.batch.batch ≠ 0)
    (hnone : ¬ FlushDue s.batch) : B.armed s.batch.batch = true := by
  have hfull : B.isEmpty s.batch.batch = false :=
    Bool.eq_false_iff.mpr fun hempty => hopen (B.size_isEmpty.mp hempty)
  rcases h.covered hfull with harmed | hdue
  · exact harmed
  · exact absurd hdue hnone

/-- The last that came has waited at most once. -/
theorem OnTime.last (h : B.OnTime linger slack s) (hopen : B.size s.batch.batch ≠ 0) :
    s.now ≤ s.touched + (linger + slack) := by
  by_cases hdue : FlushDue s.batch
  · have howed := h.owed hdue
    have hsoon := h.soon hdue hopen
    omega
  · have hsilence := h.silence (h.armed hopen hdue)
    omega

/-- What came first has waited once for each that came after it, and once more. -/
theorem OnTime.waits (h : B.OnTime linger slack s) {j a : Nat} (ha : s.arrivals[j]? = some a) :
    s.now ≤ a + (s.arrivals.length - j) * (linger + slack) := by
  obtain ⟨hj, _⟩ := List.getElem?_eq_some_iff.mp ha
  have hopen : B.size s.batch.batch ≠ 0 := by
    have hcounted := h.counted
    omega
  have hlast := h.last hopen
  have hspaced := h.spaced ha
  have hone : s.arrivals.length - j = s.arrivals.length - 1 - j + 1 := by omega
  rw [hone, Nat.succ_mul]
  omega

/-- A step that leaves the batch as full as it was, and arms no timer. -/
theorem OnTime.keep (h : B.OnTime linger slack s) {batch : FlushedBatch.State σ}
    (hcovered : B.toFlushedBatch.Covered batch)
    (hsize : B.size batch.batch = B.size s.batch.batch)
    (harmed : B.armed batch.batch = true → B.armed s.batch.batch = true) :
    B.OnTime linger slack { s with
      batch
      due := if FlushDue s.batch then s.due else s.now
      arrivals := s.arrivals.take (B.size batch.batch) } := by
  have hall : s.arrivals.take (B.size batch.batch) = s.arrivals := by
    rw [hsize, ← h.counted, List.take_length]
  rw [hall]
  have hdue : (if FlushDue s.batch then s.due else s.now) ≤ s.now := by
    split
    · exact h.due
    · exact Nat.le_refl _
  refine ⟨h.counted.trans hsize.symm, hsize ▸ h.fits, hcovered, h.touched, hdue,
    fun hset => h.silence (harmed hset), fun _ => ?_, fun _ hopen => ?_, h.spaced⟩
  · dsimp only
    split
    · rename_i hbefore
      exact h.owed hbefore
    · exact Nat.le_add_right _ _
  · dsimp only at hopen ⊢
    rw [hsize] at hopen
    split
    · rename_i hbefore
      exact h.soon hbefore hopen
    · rename_i hnone
      exact h.silence (h.armed hopen hnone)

/-- A flush leaves nothing that could wait. -/
theorem OnTime.flush (h : B.OnTime linger slack s) {batch : FlushedBatch.State σ}
    (hempty : B.isEmpty batch.batch = true)
    (harmed : B.armed batch.batch = B.armed s.batch.batch) :
    B.OnTime linger slack { s with
      batch, due := s.now, arrivals := s.arrivals.take (B.size batch.batch) } := by
  have hsize := B.size_isEmpty.mp hempty
  have hfits := h.fits
  rw [hsize, List.take_zero]
  exact {
    counted := hsize.symm
    fits := by dsimp only; omega
    covered := B.toFlushedBatch.covered_of_isEmpty hempty
    touched := h.touched
    due := Nat.le_refl _
    silence := fun hset => h.silence (harmed.symm.trans hset)
    owed := fun _ => Nat.le_add_right _ _
    soon := fun _ hopen => absurd hsize hopen
    spaced := nofun }

/-- An append sets the timer: what came before it has waited once more, and it
has not waited. -/
theorem OnTime.append (h : B.OnTime linger slack s) {p : π} {batch : σ}
    (happend : B.append s.batch.batch p = some batch)
    (hcovered : B.toFlushedBatch.Covered
      { s.batch with batch, queued := s.batch.queued && B.armed batch }) :
    B.OnTime linger slack { s with
      batch := { s.batch with batch, queued := s.batch.queued && B.armed batch }
      touched := s.now
      due := if FlushDue s.batch then s.due else s.now
      arrivals := B.arrivalsAfter s (B.size batch) (.append p) } := by
  have hbefore : FlushDue { s.batch with batch, queued := s.batch.queued && B.armed batch } →
      FlushDue s.batch := by
    rintro (hqueued | hentered | hflushing)
    · exact .inl (Bool.and_eq_true_iff.mp hqueued).1
    · exact .inr (.inl hentered)
    · exact .inr (.inr hflushing)
  have hdue : (if FlushDue s.batch then s.due else s.now) ≤ s.now := by
    split
    · exact h.due
    · exact Nat.le_refl _
  have hrest : ∀ arrivals : List Nat, arrivals.length = B.size batch →
      (∀ {j a : Nat}, arrivals[j]? = some a →
        s.now ≤ a + (arrivals.length - 1 - j) * (linger + slack)) →
      B.OnTime linger slack { s with
        batch := { s.batch with batch, queued := s.batch.queued && B.armed batch }
        touched := s.now
        due := if FlushDue s.batch then s.due else s.now
        arrivals } := fun arrivals hcounted hspaced => {
    counted := hcounted
    fits := B.append_room happend h.fits
    covered := hcovered
    touched := Nat.le_refl _
    due := hdue
    silence := fun _ => Nat.le_add_right _ _
    owed := fun howed => by
      dsimp only
      rw [if_pos (hbefore howed)]
      exact h.owed (hbefore howed)
    soon := fun _ _ => Nat.le_trans hdue (Nat.le_add_right _ _)
    spaced := hspaced }
  refine hrest _ ?_ fun {j a} ha => ?_
  · exact B.arrivalsAfter_length h.counted (B.append_size happend)
  · by_cases hjoined : B.size batch = B.size s.batch.batch + 1
    · rw [B.arrivalsAfter_joined hjoined] at ha ⊢
      rw [List.length_append, List.length_singleton, Nat.add_sub_cancel]
      rw [List.getElem?_append] at ha
      split at ha
      · exact h.waits ha
      · have hnow := List.mem_singleton.mp (List.mem_of_getElem? ha)
        rw [hnow]
        exact Nat.le_add_right _ _
    · rw [B.arrivalsAfter_alone hjoined] at ha
      have hnow := List.mem_singleton.mp (List.mem_of_mem_take (List.mem_of_getElem? ha))
      rw [hnow]
      exact Nat.le_add_right _ _

/-- Every step is on time. -/
theorem step_onTime (s : State σ) (l : Label π ρ) (s' : State σ) (h : B.OnTime linger slack s)
    (hs : B.step linger slack s l = some s') : B.OnTime linger slack s' := by
  cases l with
  | pass time =>
      obtain ⟨⟨hsilence, howed⟩, heq⟩ := Option.ite_none_right_eq_some.mp hs
      cases heq
      have htouched := h.touched
      have hdue := h.due
      exact { h with
        touched := Nat.le_add_right_of_le htouched
        due := Nat.le_add_right_of_le hdue
        silence := hsilence
        owed := howed }
  | act l =>
      obtain ⟨_, hs⟩ := Option.ite_none_right_eq_some.mp hs
      obtain ⟨batch, hstep, heq⟩ := Option.map_eq_some_iff.mp hs
      have hcovered := B.toFlushedBatch.step_covered s.batch l batch h.covered hstep
      cases heq
      cases l with
      | append p =>
          obtain ⟨r, happend, heq⟩ := Option.map_eq_some_iff.mp hstep
          cases heq
          exact h.append happend hcovered
      | cancel =>
          cases hstep
          exact h.keep hcovered (B.setArmed_size _ _) (by simp [B.setArmed_armed])
      | flush =>
          simp only [FlushedBatch.step] at hstep
          split at hstep
          · cases hstep
          · obtain ⟨r, hflush, heq⟩ := Option.map_eq_some_iff.mp hstep
            cases heq
            exact h.flush (B.flush_isEmpty hflush) (B.flush_armed hflush)
      | expire =>
          obtain ⟨_, heq⟩ := Option.ite_none_right_eq_some.mp hstep
          cases heq
          exact h.keep hcovered (B.setArmed_size _ _) (by simp [B.setArmed_armed])
      | enter =>
          obtain ⟨_, heq⟩ := Option.ite_none_right_eq_some.mp hstep
          cases heq
          exact h.keep hcovered rfl id
      | handlerFlush =>
          obtain ⟨_, hstep⟩ := Option.ite_none_right_eq_some.mp hstep
          obtain ⟨r, hflush, heq⟩ := Option.map_eq_some_iff.mp hstep
          cases heq
          exact h.flush (B.flush_isEmpty hflush) (B.flush_armed hflush)
      | leave =>
          obtain ⟨_, heq⟩ := Option.ite_none_right_eq_some.mp hstep
          cases heq
          exact h.keep hcovered rfl id
      | elsewhere r =>
          cases hstep
          exact h.keep hcovered (B.elsewhere_size _ r)
            (by rw [B.elsewhere_armed]; exact id)

/-- **Nothing waits longer.** From an empty batch, whatever the threads and the
timer do: what is in the batch has waited once for itself, and once for each
that came after it. -/
theorem run_waits {batch : σ} {t : State σ} {ls : List (Label π ρ)}
    (hempty : B.isEmpty batch = true) (hroom : 0 < B.room) (hunset : B.armed batch = false)
    (hrun : (B.machine linger slack).run { batch := { batch } } ls = some t) :
    t.arrivals.length = B.size t.batch.batch ∧ t.arrivals.length < B.room ∧
      ∀ j a, t.arrivals[j]? = some a → t.now ≤ a + (t.arrivals.length - j) * (linger + slack) := by
  have hsize := B.size_isEmpty.mp hempty
  have hstart : B.OnTime linger slack { batch := { batch } } := {
    counted := hsize.symm
    fits := hsize ▸ hroom
    covered := B.toFlushedBatch.covered_of_isEmpty hempty
    touched := Nat.le_refl _
    due := Nat.le_refl _
    silence := fun hset => by simp [hunset] at hset
    owed := fun _ => Nat.zero_le _
    soon := fun _ hopen => absurd hsize hopen
    spaced := nofun }
  have hend := (B.machine linger slack).run_invariant step_onTime hstart hrun
  exact ⟨hend.counted, hend.counted ▸ hend.fits, fun j a ha => hend.waits ha⟩

end TimedBatch

end Nrf54Sniffer.Lib
