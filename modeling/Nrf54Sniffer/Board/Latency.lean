/-
Nrf54Sniffer.Board.Latency — how long a packet waits in a batch.

`SN_BATCH_LINGER_MS` is how long an incomplete batch waits for company, and
both batchers start that wait anew with every packet. So it does not bound what
a batch adds to the latency of its first packet: each of up to thirty-one may
be waited for in turn.
-/
import Nrf54Sniffer.Board.Linger
import Nrf54Sniffer.Lib.TimedFlush

namespace Nrf54Sniffer.Board

open Nrf54Sniffer.Lib
open Nrf54Sniffer.Wire
open Nrf54Sniffer.Batch (Batcher Packet snBatchAdd flushLocked maxEntries)
open Nrf54Sniffer.Ble

/-- `SN_BATCH_LINGER_MS`. -/
def snBatchLingerMs : Nat := 20

/-! ## How full a batch is -/

/-- A batch of `m` after an append that found `n`: it was joined, or it was
closed and only the packet is left, or it was full and nothing is. -/
structure Appended (max n m : Nat) : Prop where
  joined : m = n + 1 ∨ m ≤ 1
  room : n < max → m < max

theorem appended_one {max n m : Nat} (h : m = n ∨ m = 0) (hbelow : m + 1 ≠ max) :
    Appended max n (m + 1) where
  joined := by omega
  room := by omega

theorem appended_full {max n : Nat} : Appended max n 0 :=
  ⟨.inr (Nat.zero_le _), fun h => Nat.zero_lt_of_lt h⟩

theorem flushLocked_armed {b b' : Batcher} {o o' : Outbox}
    (h : flushLocked b o = some (b', o')) : b'.lingerArmed = b.lingerArmed := by
  unfold flushLocked at h
  split at h
  · cases h
    rfl
  · split at h
    · simp only [Batch.flushOne, Option.bind_eq_bind, Option.bind_eq_some_iff] at h
      obtain ⟨_, _, _, _, _, _, _, _, _, _, heq⟩ := h
      cases heq
      rfl
    · simp only [Batch.flushMany, Option.bind_eq_bind, Option.bind_eq_some_iff] at h
      obtain ⟨_, _, _, _, heq⟩ := h
      cases heq
      rfl

theorem closeEarly_count {b b' : Batcher} {o o' : Outbox} {p : Packet} {len : Nat}
    (h : Batch.closeEarly b o p len = some (b', o')) : b'.count = b.count ∨ b'.count = 0 := by
  unfold Batch.closeEarly at h
  split at h
  · exact .inr (flushLocked_effect h).1
  · cases h
    exact .inl rfl

theorem snBatchAdd_appended {b b' : Batcher} {o o' : Outbox} {p : Packet}
    (h : snBatchAdd b o p = some (b', o')) : Appended maxEntries b.count b'.count := by
  simp only [snBatchAdd, Option.bind_eq_bind, Option.bind_eq_some_iff] at h
  obtain ⟨⟨b₁, o₁⟩, hclose, b₂, hput, h⟩ := h
  have hclosed := closeEarly_count hclose
  have hone : b₂.count = b₁.count + 1 := by
    simp only [Batch.putEntry, Option.bind_eq_bind, Option.bind_eq_some_iff] at hput
    obtain ⟨_, _, heq⟩ := hput
    cases heq
    unfold Batch.openFor
    split
    · rfl
    · rfl
  split at h
  · obtain ⟨⟨b₃, o₃⟩, hflush, heq⟩ := Option.bind_eq_some_iff.mp h
    cases heq
    rw [(flushLocked_effect hflush).1]
    exact appended_full
  · rename_i hbelow
    cases h
    rw [hone] at hbelow ⊢
    exact appended_one hclosed hbelow

theorem bleFlushLocked_armed {s s' : BleRadio} {o o' : Outbox}
    (h : bleFlushLocked s o = some (s', o')) : s'.batch.lingerArmed = s.batch.lingerArmed := by
  unfold bleFlushLocked at h
  split at h
  · cases h
    rfl
  · split at h
    · simp only [bleFlushOne, sendAlone, Option.bind_eq_bind, Option.bind_eq_some_iff] at h
      obtain ⟨_, _, _, _, _, ⟨_, _, _, _, _, _, hsent⟩, heq⟩ := h
      cases hsent
      cases heq
      rfl
    · simp only [bleFlushMany, Option.bind_eq_bind, Option.bind_eq_some_iff] at h
      obtain ⟨_, _, _, _, heq⟩ := h
      cases heq
      rfl

theorem appendLocked_appended {s s' : BleRadio} {o o' : Outbox} {p : Sized}
    (h : appendLocked s o p = some (s', o')) :
    Appended bleMaxEntries s.batch.count s'.batch.count := by
  simp only [appendLocked, Option.bind_eq_bind, Option.bind_eq_some_iff] at h
  obtain ⟨⟨s₁, o₁⟩, hclose, batch, hput, h⟩ := h
  have hclosed : s₁.batch.count = s.batch.count ∨ s₁.batch.count = 0 := by
    unfold closeEarly at hclose
    split at hclose
    · obtain ⟨_, _, rfl, hempty, _⟩ := bleFlushLocked_effect hclose
      exact .inr hempty
    · cases hclose
      exact .inl rfl
  have hone : batch.count = s₁.batch.count + 1 := by
    simp only [putEntry, Option.bind_eq_bind, Option.bind_eq_some_iff] at hput
    obtain ⟨_, _, _, _, heq⟩ := hput
    cases heq
    unfold BleBatch.openFor
    split
    · rfl
    · rfl
  split at h
  · obtain ⟨⟨s₂, o₂⟩, hflush, heq⟩ := Option.bind_eq_some_iff.mp h
    cases heq
    obtain ⟨flushed, _, rfl, hempty, _⟩ := bleFlushLocked_effect hflush
    show Appended bleMaxEntries s.batch.count flushed.count
    rw [hempty]
    exact appended_full
  · rename_i hbelow
    cases h
    show Appended bleMaxEntries s.batch.count batch.count
    rw [hone] at hbelow ⊢
    exact appended_one hclosed hbelow

/-! ## The two batches -/

/-- `batch.c`, with the time. -/
def timed154 : TimedBatch (Batcher × Outbox) Packet (Outbox × Nat) where
  toFlushedBatch := lingering154
  size r := r.1.count
  room := maxEntries
  size_isEmpty := beq_iff_eq
  append_size h := (snBatchAdd_appended h).joined
  append_room h := (snBatchAdd_appended h).room
  flush_armed h := flushLocked_armed h
  elsewhere_size _ _ := rfl
  setArmed_size _ _ := rfl
  setArmed_armed _ _ := rfl

/-- `radio_ble.c`. -/
def timedBle : TimedBatch (BleRadio × Outbox) Sized (BleRadio × Outbox) where
  toFlushedBatch := lingeringBle
  size r := r.1.batch.count
  room := bleMaxEntries
  size_isEmpty := beq_iff_eq
  append_size h := (appendLocked_appended h).joined
  append_room h := (appendLocked_appended h).room
  flush_armed h := bleFlushLocked_armed h
  elsewhere_size _ _ := rfl
  setArmed_size _ _ := rfl
  setArmed_armed _ _ := rfl

/-- Arrived at these times, and waiting at this one: a packet and each that
came after it account for one linger, and a flush that is `slack` late. -/
def WaitsAtMost (slack now : Nat) (arrivals : List Nat) : Prop :=
  ∀ j a, arrivals[j]? = some a → now ≤ a + (arrivals.length - j) * (snBatchLingerMs + slack)

/-- **How long a packet waits.** For either batch, however its packets come and
whatever its timer, the worker and the callers that flush do, as long as a
flush that is due is done within `slack`: an open batch has at most thirty-one
packets, and each has waited at most one linger and one slack for itself and
for each packet after it. So the first waits up to thirty-one times
`SN_BATCH_LINGER_MS`, and never longer. -/
theorem packet_waits (slack : Nat) (w : World) :
    (∀ ls t, (timed154.machine snBatchLingerMs slack).run { batch := bootBatch w } ls = some t →
      t.arrivals.length = t.batch.batch.1.count ∧ t.arrivals.length ≤ 31 ∧
        WaitsAtMost slack t.now t.arrivals) ∧
    (∀ ls t, (timedBle.machine snBatchLingerMs slack).run { batch := bootBleBatch w } ls = some t →
      t.arrivals.length = t.batch.batch.1.batch.count ∧ t.arrivals.length ≤ 31 ∧
        WaitsAtMost slack t.now t.arrivals) := by
  refine ⟨fun ls t hrun => ?_, fun ls t hrun => ?_⟩
  · obtain ⟨hcounted, hroom, hwaits⟩ :=
      TimedBatch.run_waits (B := timed154) rfl (by decide) rfl hrun
    exact ⟨hcounted, Nat.le_of_lt_succ hroom, hwaits⟩
  · obtain ⟨hcounted, hroom, hwaits⟩ :=
      TimedBatch.run_waits (B := timedBle) rfl (by decide) rfl hrun
    exact ⟨hcounted, Nat.le_of_lt_succ hroom, hwaits⟩

/-- So many packets, and a linger after each. -/
def trickle {π ρ : Type} (packet : UInt64 → π) (n : Nat) : List (TimedBatch.Label π ρ) :=
  (List.range n).flatMap fun k =>
    [.act (.append (packet (UInt64.ofNat (1000 * (snBatchLingerMs * k))))), .pass snBatchLingerMs]

/-- An event of two bytes. -/
def eventAt (us : UInt64) : Sized := sizePacket h4Event [0x3E, 0] us

/-- A packet every twenty milliseconds: the first has waited 620. -/
theorem packet_waits_620 :
    ∃ t t', (timed154.machine snBatchLingerMs 0).run { batch := bootBatch calmWorld }
        (trickle packetAt 31) = some t ∧
      (timedBle.machine snBatchLingerMs 0).run { batch := bootBleBatch calmWorld }
        (trickle eventAt 31) = some t' ∧
      t.now = 620 ∧ t.arrivals.head? = some 0 ∧ t'.now = 620 ∧ t'.arrivals.head? = some 0 ∧
      WaitsAtMost 0 t.now t.arrivals ∧ WaitsAtMost 0 t'.now t'.arrivals := by
  have hruns : ((timed154.machine snBatchLingerMs 0).run { batch := bootBatch calmWorld }
      (trickle packetAt 31)).any (fun t => t.now == 620 && t.arrivals.head? == some 0)
        = true := by decide +kernel
  have hruns' : ((timedBle.machine snBatchLingerMs 0).run { batch := bootBleBatch calmWorld }
      (trickle eventAt 31)).any (fun t => t.now == 620 && t.arrivals.head? == some 0)
        = true := by decide +kernel
  obtain ⟨t, ht, hfacts⟩ := (Option.any_eq_true _ _).mp hruns
  obtain ⟨t', ht', hfacts'⟩ := (Option.any_eq_true _ _).mp hruns'
  simp only [Bool.and_eq_true, beq_iff_eq] at hfacts hfacts'
  exact ⟨t, t', ht, ht', hfacts.1, hfacts.2, hfacts'.1, hfacts'.2,
    ((packet_waits 0 calmWorld).1 _ t ht).2.2, ((packet_waits 0 calmWorld).2 _ t' ht').2.2⟩

end Nrf54Sniffer.Board
