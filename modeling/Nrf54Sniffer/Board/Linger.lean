/-
Nrf54Sniffer.Board.Linger — the two linger timers.

Both batchers are batches with a delayed flush. A packet is added by the locked
section of `sn_batch_add` or of `forward`, whose last call says whether the
timer was rescheduled or cancelled; `sn_batch_flush` and `sn_radio_ble_stop`
cancel and then flush. The rest of the firmware goes on in between.
-/
import Nrf54Sniffer.Lib.DelayedFlush
import Nrf54Sniffer.Board.Effects

namespace Nrf54Sniffer.Board

open Nrf54Sniffer.Lib
open Nrf54Sniffer.Wire
open Nrf54Sniffer.Batch (Batcher Packet snBatchAdd snBatchFlush flushLocked)
open Nrf54Sniffer.Ble

/-! ## What an append says about the timer -/

/-- `sn_batch_add` cancels the timer only after its flush. -/
theorem snBatchAdd_cancels {b b' : Batcher} {o o' : Outbox} {p : Packet}
    (h : snBatchAdd b o p = some (b', o')) (hcancelled : b'.lingerArmed = false) :
    b'.count = 0 := by
  simp only [snBatchAdd, Option.bind_eq_bind, Option.bind_eq_some_iff] at h
  obtain ⟨_, _, batcher, _, h⟩ := h
  split at h
  · obtain ⟨⟨flushed, outbox⟩, hflush, heq⟩ := Option.bind_eq_some_iff.mp h
    cases heq
    exact (flushLocked_effect hflush).1
  · cases h
    cases hcancelled

/-- So does `forward`. -/
theorem appendLocked_cancels {s s' : BleRadio} {o o' : Outbox} {p : Sized}
    (h : appendLocked s o p = some (s', o')) (hcancelled : s'.batch.lingerArmed = false) :
    s'.batch.count = 0 := by
  simp only [appendLocked, Option.bind_eq_bind, Option.bind_eq_some_iff] at h
  obtain ⟨_, _, batch, _, h⟩ := h
  split at h
  · obtain ⟨⟨flushed, outbox⟩, hflush, heq⟩ := Option.bind_eq_some_iff.mp h
    cases heq
    obtain ⟨_, _, rfl, hempty, _⟩ := bleFlushLocked_effect hflush
    exact hempty
  · cases h
    cases hcancelled

/-! ## The two batches -/

/-- `batch.c`. Elsewhere other frames are sent and the counter is reset. -/
def lingering154 : FlushedBatch (Batcher × Outbox) Packet (Outbox × Nat) where
  append r p := snBatchAdd r.1 r.2 p
  flush r := flushLocked r.1 r.2
  elsewhere r rest := ({ r.1 with droppedPackets := rest.2 }, rest.1)
  isEmpty r := r.1.count == 0
  armed r := r.1.lingerArmed
  setArmed r armed := ({ r.1 with lingerArmed := armed }, r.2)
  append_cancels h hcancelled := beq_iff_eq.mpr (snBatchAdd_cancels h hcancelled)
  flush_isEmpty h := beq_iff_eq.mpr (flushLocked_effect h).1
  elsewhere_armed _ _ := rfl
  elsewhere_isEmpty _ _ := rfl

/-- `radio_ble.c`. Elsewhere everything but the batch may change. -/
def lingeringBle : FlushedBatch (BleRadio × Outbox) Sized (BleRadio × Outbox) where
  append r p := appendLocked r.1 r.2 p
  flush r := bleFlushLocked r.1 r.2
  elsewhere r rest := ({ rest.1 with batch := r.1.batch }, rest.2)
  isEmpty r := r.1.batch.count == 0
  armed r := r.1.batch.lingerArmed
  setArmed r armed := (setLinger r.1 armed, r.2)
  append_cancels h hcancelled := beq_iff_eq.mpr (appendLocked_cancels h hcancelled)
  flush_isEmpty h := by
    obtain ⟨_, _, heq, hempty, _⟩ := bleFlushLocked_effect h
    rw [heq, beq_iff_eq]
    exact hempty
  elsewhere_armed _ _ := rfl
  elsewhere_isEmpty _ _ := rfl

/-- `sn_batch_flush`, when nothing comes between its two steps. -/
theorem run_snBatchFlush (s : FlushedBatch.State (Batcher × Outbox)) :
    lingering154.machine.run s [.cancel, .flush] =
      (snBatchFlush s.batch.1 s.batch.2).map fun batch => { s with batch, queued := false } :=
  lingering154.run_cancel_flush s

/-- The two steps of `sn_radio_ble_stop`, the same way. -/
theorem run_stopFlush (s : FlushedBatch.State (BleRadio × Outbox)) :
    lingeringBle.machine.run s [.cancel, .flush] =
      (stopFlush s.batch.1 s.batch.2).map fun batch => { s with batch, queued := false } :=
  lingeringBle.run_cancel_flush s

/-! ## No packet is stranded -/

/-- The batch of `batch.c` after boot, with its timer. -/
def bootBatch (w : World) : FlushedBatch.State (Batcher × Outbox) where
  batch := ((boot w).batcher, (boot w).outbox)

/-- The batch of `radio_ble.c`. -/
def bootBleBatch (w : World) : FlushedBatch.State (BleRadio × Outbox) where
  batch := ((boot w).ble, (boot w).outbox)

/-- While a batch is open its timer is armed, its work queued or entered with
the flush still ahead, or a caller has cancelled and has its flush ahead: for
either batch, in every state the threads and the timer can reach. -/
theorem no_packet_stranded (w : World) :
    (∀ ls t, lingering154.machine.run (bootBatch w) ls = some t → t.batch.1.count ≠ 0 →
      t.batch.1.lingerArmed = true ∨ t.queued = true ∨ t.worker = .entered ∨ 0 < t.flushing) ∧
    (∀ ls t, lingeringBle.machine.run (bootBleBatch w) ls = some t → t.batch.1.batch.count ≠ 0 →
      t.batch.1.batch.lingerArmed = true ∨ t.queued = true ∨ t.worker = .entered ∨
        0 < t.flushing) := by
  constructor
  · intro ls t hrun hopen
    exact lingering154.run_covered rfl hrun (beq_eq_false_iff_ne.mpr hopen)
  · intro ls t hrun hopen
    exact lingeringBle.run_covered rfl hrun (beq_eq_false_iff_ne.mpr hopen)

/-! ## An expiry against a flush -/

/-- A packet of one byte, at this time. -/
def packetAt (us : UInt64) : Packet := ⟨11, us, 200, -60, [0x42]⟩

/-- The handler is entered for the first packet, and the control thread cancels
after the second. -/
def expiryRace {π ρ : Type} (p p' : π) : List (FlushedBatch.Label π ρ) :=
  [.append p, .expire, .enter, .append p', .cancel]

/-- Both flushes are still ahead of two packets. -/
theorem no_packet_stranded_race :
    ∃ t t', lingering154.machine.run (bootBatch calmWorld)
        (expiryRace (packetAt 1) (packetAt 2)) = some t ∧
      lingeringBle.machine.run (bootBleBatch calmWorld)
        (expiryRace (sizePacket h4Event [0x3E, 0] 1) (sizePacket h4Event [0x3E, 0] 2)) = some t' ∧
      t.batch.1.lingerArmed = false ∧ t'.batch.1.batch.lingerArmed = false ∧
      (t.batch.1.lingerArmed = true ∨ t.queued = true ∨ t.worker = .entered ∨ 0 < t.flushing) ∧
      (t'.batch.1.batch.lingerArmed = true ∨ t'.queued = true ∨ t'.worker = .entered ∨
        0 < t'.flushing) := by
  have hruns : ((lingering154.machine.run (bootBatch calmWorld)
      (expiryRace (packetAt 1) (packetAt 2))).any fun t =>
        t.batch.1.count == 2 && !t.batch.1.lingerArmed) = true := by decide +kernel
  have hruns' : ((lingeringBle.machine.run (bootBleBatch calmWorld)
      (expiryRace (sizePacket h4Event [0x3E, 0] 1) (sizePacket h4Event [0x3E, 0] 2))).any fun t =>
        t.batch.1.batch.count == 2 && !t.batch.1.batch.lingerArmed) = true := by decide +kernel
  obtain ⟨t, ht, hfacts⟩ := (Option.any_eq_true _ _).mp hruns
  obtain ⟨t', ht', hfacts'⟩ := (Option.any_eq_true _ _).mp hruns'
  simp only [Bool.and_eq_true, beq_iff_eq, Bool.not_eq_true'] at hfacts hfacts'
  have hcovered := (no_packet_stranded calmWorld).1 _ t ht (by rw [hfacts.1]; decide)
  have hcovered' := (no_packet_stranded calmWorld).2 _ t' ht' (by rw [hfacts'.1]; decide)
  exact ⟨t, t', ht, ht', hfacts.2, hfacts'.2, hcovered, hcovered'⟩

end Nrf54Sniffer.Board
