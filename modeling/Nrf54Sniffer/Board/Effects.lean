/-
Nrf54Sniffer.Board.Effects — what the calls of the firmware leave as it was.

Each lemma gives the state after a call as the state before it with a few
fields replaced, whether or not the batches are in order. The invariants of the
firmware read off what they need.
-/
import Nrf54Sniffer.Ble.Accounting
import Nrf54Sniffer.Board.MachineTheorems

namespace Nrf54Sniffer.Board

open Nrf54Sniffer.Wire
open Nrf54Sniffer.Radio154
open Nrf54Sniffer.Ble
open Nrf54Sniffer.Control

/-! ## The BLE batch -/

/-- A flush touches the batch and the counters, leaves nothing open, and sends
nothing where nothing was. -/
theorem bleFlushLocked_effect {s s' : BleRadio} {o o' : Outbox}
    (h : bleFlushLocked s o = some (s', o')) :
    ∃ batch stats, s' = { s with batch, stats } ∧ batch.count = 0 ∧
      (s.batch.count = 0 → o' = o) := by
  obtain ⟨batch, forwarded, dropped, rfl, hempty, _, _, hsilent⟩ := bleFlushLocked_accounts h
  exact ⟨batch, _, rfl, hempty, hsilent⟩

theorem stopFlush_effect {s s' : BleRadio} {o o' : Outbox} (h : stopFlush s o = some (s', o')) :
    ∃ batch stats, s' = { s with batch, stats } ∧ batch.count = 0 ∧
      (s.batch.count = 0 → o' = o) := by
  obtain ⟨batch, stats, rfl, hempty, hsilent⟩ := bleFlushLocked_effect h
  exact ⟨batch, stats, rfl, hempty, hsilent⟩

/-- An append touches the batch and the counters. -/
theorem appendLocked_effect {s s' : BleRadio} {o o' : Outbox} {p : Sized}
    (h : appendLocked s o p = some (s', o')) : ∃ batch stats, s' = { s with batch, stats } := by
  simp only [appendLocked, Option.bind_eq_bind, Option.bind_eq_some_iff] at h
  obtain ⟨⟨s₁, o₁⟩, hclose, batch, _, h⟩ := h
  have hclosed : ∃ batch stats, s₁ = { s with batch, stats } := by
    unfold closeEarly at hclose
    split at hclose
    · obtain ⟨batch, stats, heq, _⟩ := bleFlushLocked_effect hclose
      exact ⟨batch, stats, heq⟩
    · cases hclose
      exact ⟨_, _, rfl⟩
  obtain ⟨_, _, rfl⟩ := hclosed
  split at h
  · obtain ⟨⟨s₂, o₂⟩, hflush, heq⟩ := Option.bind_eq_some_iff.mp h
    cases heq
    obtain ⟨_, _, rfl, _⟩ := bleFlushLocked_effect hflush
    exact ⟨_, _, rfl⟩
  · cases h
    exact ⟨_, _, rfl⟩

/-- Two states that agree in everything else differ in the counters and the
following. -/
theorem sameBut_eq {s s' : BleRadio} (h : SameBut s s') :
    s' = { s with stats := s'.stats, follow := s'.follow } := by
  obtain ⟨hbatch, hrunning, hready, hperiodic, hfilter, hkeys, hcount⟩ := h
  cases s
  cases s'
  simp_all

/-- A packet touches the batch, the counters and the following. -/
theorem forward_effect {s s' : BleRadio} {o o' : Outbox} {h4 : UInt8} {data : List UInt8}
    {now : Readings} (h : forward s o h4 data now = some (s', o')) :
    ∃ batch stats follow, s' = { s with batch, stats, follow } := by
  obtain ⟨s₁, hbefore, hsame⟩ := beforeLock_spec s h4 data now
  rw [forward, hbefore] at h
  obtain ⟨batch, stats, rfl⟩ := appendLocked_effect h
  exact ⟨batch, stats, s₁.follow, by rw [sameBut_eq hsame]⟩

/-- A packet from the controller. -/
theorem fwdLoop_effect {fw fw' : Firmware} {h4 : UInt8} {data : List UInt8} {now : Readings}
    (h : fwdLoop fw h4 data now = some fw') :
    ∃ slot batch stats follow outbox,
      fw' = { fw with slot, outbox, ble := { fw.ble with batch, stats, follow } } ∧
      (fw.ble.running = false → batch = fw.ble.batch ∧ outbox = fw.outbox) := by
  obtain ⟨slot, _, h⟩ := Option.bind_eq_some_iff.mp h
  split at h
  · rename_i hcaptures
    obtain ⟨⟨ble, outbox⟩, hforward, heq⟩ := Option.map_eq_some_iff.mp h
    cases heq
    obtain ⟨batch, stats, follow, rfl⟩ := forward_effect hforward
    refine ⟨slot, batch, stats, follow, outbox, rfl, fun hidle => ?_⟩
    simp [hidle] at hcaptures
  · cases h
    exact ⟨slot, _, _, _, _, rfl, fun _ => ⟨rfl, rfl⟩⟩

theorem bleLinger_effect {fw fw' : Firmware} (h : bleLinger fw = some fw') :
    ∃ batch stats outbox, fw' = { fw with outbox, ble := { fw.ble with batch, stats } } ∧
      batch.count = 0 ∧ (fw.ble.batch.count = 0 → outbox = fw.outbox) := by
  obtain ⟨⟨ble, outbox⟩, hflush, heq⟩ := Option.map_eq_some_iff.mp h
  cases heq
  obtain ⟨batch, stats, rfl, hempty, hsilent⟩ := bleFlushLocked_effect hflush
  exact ⟨batch, stats, outbox, rfl, hempty, hsilent⟩

/-! ## The 802.15.4 batch -/

/-- A flush leaves nothing open, and sends nothing where nothing was. -/
theorem flushLocked_effect {b b' : Batch.Batcher} {o o' : Outbox}
    (h : Batch.flushLocked b o = some (b', o')) : b'.count = 0 ∧ (b.count = 0 → o' = o) := by
  unfold Batch.flushLocked at h
  split at h
  · rename_i hzero
    cases h
    exact ⟨hzero, fun _ => rfl⟩
  · rename_i hopen
    refine ⟨?_, fun hzero => absurd hzero hopen⟩
    split at h
    · simp only [Batch.flushOne, Option.bind_eq_bind, Option.bind_eq_some_iff] at h
      obtain ⟨_, _, _, _, _, _, _, _, _, _, heq⟩ := h
      cases heq
      rfl
    · simp only [Batch.flushMany, Option.bind_eq_bind, Option.bind_eq_some_iff] at h
      obtain ⟨_, _, _, _, heq⟩ := h
      cases heq
      rfl

/-- A packet of the 802.15.4 radio: nothing happens unless it captures. -/
theorem receive_effect {fw fw' : Firmware} {pkt : Option NetPkt} (h : receive fw pkt = some fw') :
    ∃ captured batcher outbox,
      fw' = { fw with batcher, outbox, radio := { fw.radio with captured } } ∧
      (fw.radio.running = false →
        captured = fw.radio.captured ∧ batcher = fw.batcher ∧ outbox = fw.outbox) := by
  obtain ⟨⟨radio, batcher, outbox, err⟩, hrecv, heq⟩ := Option.map_eq_some_iff.mp h
  cases heq
  unfold netRecvData at hrecv
  split at hrecv
  · cases hrecv
    exact ⟨_, _, _, rfl, fun _ => ⟨rfl, rfl, rfl⟩⟩
  · split at hrecv
    · cases hrecv
      exact ⟨_, _, _, rfl, fun _ => ⟨rfl, rfl, rfl⟩⟩
    · split at hrecv
      · cases hrecv
        exact ⟨_, _, _, rfl, fun _ => ⟨rfl, rfl, rfl⟩⟩
      · rename_i htakes
        obtain ⟨⟨b, o⟩, _, heq⟩ := Option.map_eq_some_iff.mp hrecv
        cases heq
        refine ⟨_, _, _, rfl, fun hidle => ?_⟩
        simp [Radio.takes, hidle] at htakes

theorem batchLinger_effect {fw fw' : Firmware} (h : batchLinger fw = some fw') :
    ∃ batcher outbox, fw' = { fw with batcher, outbox } ∧ batcher.count = 0 ∧
      (fw.batcher.count = 0 → outbox = fw.outbox) := by
  obtain ⟨⟨batcher, outbox⟩, hflush, heq⟩ := Option.map_eq_some_iff.mp h
  obtain ⟨hempty, hsilent⟩ := flushLocked_effect hflush
  exact ⟨batcher, outbox, heq.symm, hempty, hsilent⟩

/-- `sn_batch_flush`, on the firmware. -/
theorem flushBatch_effect {fw fw' : Firmware} (h : flushBatch fw = some fw') :
    ∃ batcher outbox, fw' = { fw with batcher, outbox } ∧ batcher.count = 0 ∧
      (fw.batcher.count = 0 → outbox = fw.outbox) := by
  obtain ⟨⟨batcher, outbox⟩, hflush, heq⟩ := Option.map_eq_some_iff.mp h
  obtain ⟨hempty, hsilent⟩ := flushLocked_effect hflush
  exact ⟨batcher, outbox, heq.symm, hempty, hsilent⟩

/-- At most the frame of the open batch. -/
theorem flushLocked_sends {b b' : Batch.Batcher} {o o' : Outbox}
    (h : Batch.flushLocked b o = some (b', o')) :
    ∃ data, o'.frames = o.frames ++ data ∧ data.length ≤ 1 ∧ (b.count = 0 → data = []) ∧
      ∀ f ∈ data, f.type.carriesPackets = true := by
  unfold Batch.flushLocked at h
  split at h
  · cases h
    exact ⟨[], (List.append_nil _).symm, by simp, fun _ => rfl, by simp⟩
  · rename_i hopen
    have hone : ∀ f : Frame, f.type.carriesPackets = true → o'.frames = o.frames ++ [f] →
        ∃ data, o'.frames = o.frames ++ data ∧ data.length ≤ 1 ∧ (b.count = 0 → data = []) ∧
          ∀ f ∈ data, f.type.carriesPackets = true := by
      intro f htype hframes
      refine ⟨[f], hframes, Nat.le_refl 1, fun hzero => absurd hzero hopen, fun g hg => ?_⟩
      rw [List.mem_singleton.mp hg]
      exact htype
    split at h
    · simp only [Batch.flushOne, Option.bind_eq_bind, Option.bind_eq_some_iff] at h
      obtain ⟨_, _, _, _, _, _, _, _, _, _, heq⟩ := h
      cases heq
      exact hone _ rfl (Outbox.send_frames o _)
    · simp only [Batch.flushMany, Option.bind_eq_bind, Option.bind_eq_some_iff] at h
      obtain ⟨_, _, _, _, heq⟩ := h
      cases heq
      exact hone _ rfl (Outbox.send_frames o _)

theorem flushBatch_sends {fw fw' : Firmware} (h : flushBatch fw = some fw') :
    ∃ data, fw'.outbox.frames = fw.outbox.frames ++ data ∧ data.length ≤ 1 ∧
      (fw.batcher.count = 0 → data = []) ∧ ∀ f ∈ data, f.type.carriesPackets = true := by
  obtain ⟨⟨batcher, outbox⟩, hflush, heq⟩ := Option.map_eq_some_iff.mp h
  have hlocked : Batch.flushLocked { fw.batcher with lingerArmed := false } fw.outbox
      = some (batcher, outbox) := hflush
  have hsends := flushLocked_sends hlocked
  subst heq
  exact hsends

/-! ## The stops -/

theorem stop154_effect {fw fw' : Firmware} {err : Int} (h : stop154 fw = some (fw', err)) :
    ∃ batcher outbox,
      fw' = { fw with batcher, outbox, radio := (snRadio154Stop fw.radio).1 } ∧
      err = (snRadio154Stop fw.radio).2 ∧ batcher.count = 0 ∧
      (fw.batcher.count = 0 → outbox = fw.outbox) := by
  obtain ⟨fw₁, hflush, heq⟩ := Option.map_eq_some_iff.mp h
  cases heq
  obtain ⟨batcher, outbox, rfl, hempty, hsilent⟩ := flushBatch_effect hflush
  exact ⟨batcher, outbox, rfl, rfl, hempty, hsilent⟩

/-- The BLE stop, where the controller is ready: the capture has ended and the
keys are gone, then the controller is reset. -/
theorem stopBle_effect {fw fw' : Firmware} {err : Int} (hready : fw.ble.ready = true)
    (h : stopBle fw = some (fw', err)) :
    ∃ batch stats outbox,
      (fw', err) = sendCommand (flushedStop fw
        ({ stopCapture fw.ble with batch, stats }, outbox)) opReset [] ∧
      batch.count = 0 ∧ (fw.ble.batch.count = 0 → outbox = fw.outbox) := by
  rw [stopBle, if_pos hready] at h
  obtain ⟨⟨ble, outbox⟩, hflush, heq⟩ := Option.map_eq_some_iff.mp h
  obtain ⟨batch, stats, rfl, hempty, hsilent⟩ := stopFlush_effect hflush
  exact ⟨batch, stats, outbox, heq.symm, hempty, hsilent⟩

/-- Where it is not, nothing is done. -/
theorem stopBle_notReady {fw : Firmware} (hready : fw.ble.ready = false) :
    stopBle fw = some (fw, 0) := by
  simp [stopBle, hready]

/-- With both batches in order, neither stop leaves its buffer. -/
theorem stop154_total {fw : Firmware} (h : BatchesHold fw) :
    ∃ fw' err, stop154 fw = some (fw', err) := by
  obtain ⟨ks, hrep, _⟩ := h.batch
  obtain ⟨b, o, hflush, _⟩ := Batch.snBatchFlush_spec hrep fw.outbox
  refine ⟨{ fw with radio := (snRadio154Stop fw.radio).1, batcher := b, outbox := o },
    (snRadio154Stop fw.radio).2, ?_⟩
  simp only [stop154, flushBatch, hflush, Option.map_some]

theorem stopBle_total {fw : Firmware} (h : BatchesHold fw) :
    ∃ fw' err, stopBle fw = some (fw', err) := by
  cases hready : fw.ble.ready with
  | false => exact ⟨fw, 0, stopBle_notReady hready⟩
  | true =>
      obtain ⟨ks, hrep, _⟩ := h.ble
      obtain ⟨batch, stats, o, hflush, _⟩ :=
        Ble.stopFlush_spec (s := stopCapture fw.ble) hrep fw.outbox
      have hsome : (snRadioBleStop fw).isSome = true := by
        rw [snRadioBleStop, hflush]
        rfl
      obtain ⟨⟨fw', err⟩, hs⟩ := Option.isSome_iff_exists.mp hsome
      exact ⟨fw', err, by rw [stopBle, if_pos hready, hs]⟩

theorem stopRadio_total {fw : Firmware} (h : BatchesHold fw) (radio : UInt8) :
    ∃ fw' err, stopRadio fw radio = some (fw', err) := by
  unfold stopRadio
  split
  · exact stopBle_total h
  · exact stop154_total h

end Nrf54Sniffer.Board
