/-
Nrf54Sniffer.Board.InBounds — no run leaves a buffer.

The batch buffers, the staging buffers and the packets are read and written by
partial accesses in the model, so a step that left one would have no outcome. A
step has none only where it cannot be taken: a packet longer than a net_buf can
be, a work item that has no turn, a step of `stats_tick` that is not its next,
and a line when nothing was logged.

The stored keys, the stored filter, the queue and the table of streams, and the
copy of an event are lists in the model, read and written as they are. For these
the bounds are facts of their own (`TablesInside`, `CopyInside`).
-/
import Nrf54Sniffer.Board.Provenance
import Nrf54Sniffer.Board.Replies
import Nrf54Sniffer.Ble.InspectTheorems

namespace Nrf54Sniffer.Board

open Nrf54Sniffer.Lib
open Nrf54Sniffer.Wire
open Nrf54Sniffer.Radio154
open Nrf54Sniffer.Ble
open Nrf54Sniffer.Control

variable {p : Platform}

/-- An input that may come in this state. -/
def Input.Possible (fw : Firmware) : Input → Prop
  | .hciPacket _ data _ => data.length ≤ 65534
  | .syncWork =>
      fw.ble.follow.loop = .syncing ∨
        (fw.ble.follow.loop = .idle ∧ fw.ble.follow.syncWork = true)
  | .bigWork _ => fw.ble.follow.bigWork = true ∧ fw.ble.follow.loop = .idle
  | .isoPathWork =>
      (∃ i, fw.ble.follow.loop = .pathing i) ∨
        (fw.ble.follow.loop = .idle ∧ fw.ble.follow.isoPathWork = true)
  | .statsRead => fw.tick = .idle
  | .linkRead _ => fw.tick = .between
  | .tickSend => fw.tick ≠ .idle ∧ fw.tick ≠ .between
  | .log => fw.logs ≠ []
  | _ => True

theorem receive_total {fw : Firmware} (h : BatchesHold fw) (pkt : Option NetPkt) :
    ∃ fw', receive fw pkt = some fw' := by
  obtain ⟨ks, hrep, hlt⟩ := h.batch
  unfold receive netRecvData
  cases pkt with
  | none => exact ⟨_, rfl⟩
  | some pkt =>
      dsimp only
      split
      · exact ⟨_, rfl⟩
      · split
        · exact ⟨_, rfl⟩
        · obtain ⟨b, o, _, hadd, _⟩ :=
            Batch.snBatchAdd_advances hrep hlt fw.outbox (fw.radio.packetOf pkt)
          rw [hadd]
          exact ⟨_, rfl⟩

theorem fwdLoop_total {fw : Firmware} (h : BatchesHold fw) (h4 : UInt8) {data : List UInt8}
    (now : Readings) (hlen : data.length ≤ 65534) : ∃ fw', fwdLoop fw h4 data now = some fw' := by
  obtain ⟨ks, hrep, hlt⟩ := h.ble
  obtain ⟨slot, hslot⟩ : ∃ slot, noteAnswer fw.slot h4 data = some slot := by
    unfold noteAnswer
    split
    · rename_i hevent
      exact Inspect.noteCommandResult_total fw.slot hevent.2
    · exact ⟨_, rfl⟩
  unfold fwdLoop
  rw [hslot, Option.bind_some]
  split
  · obtain ⟨s, o, _, hforward, _⟩ := forward_advances hrep hlt fw.outbox h4 data now hlen
    exact ⟨{ fw with slot, ble := s, outbox := o }, by simp only [forwardPacket, hforward]; rfl⟩
  · exact ⟨_, rfl⟩

theorem batchLinger_total {fw : Firmware} (h : BatchesHold fw) :
    ∃ fw', batchLinger fw = some fw' := by
  obtain ⟨ks, hrep, _⟩ := h.batch
  obtain ⟨b, o, hflush, _⟩ := Batch.flushLocked_advances hrep fw.outbox
  exact ⟨{ fw with batcher := b, outbox := o }, by
    simp only [batchLinger, Batch.lingerExpired, hflush, Option.map_some]⟩

theorem bleLinger_total {fw : Firmware} (h : BatchesHold fw) : ∃ fw', bleLinger fw = some fw' := by
  obtain ⟨ks, hrep, _⟩ := h.ble
  obtain ⟨s, o, hflush, _⟩ := bleFlushLocked_advances hrep fw.outbox
  exact ⟨{ fw with ble := s, outbox := o }, by
    simp only [bleLinger, bleLingerExpired, hflush, Option.map_some]⟩

theorem syncWorkFn_some_iff (fw : Firmware) :
    (∃ fw', syncWorkFn fw = some fw') ↔ Input.syncWork.Possible fw := by
  simp only [Input.Possible]
  unfold syncWorkFn
  cases fw.ble.follow.loop with
  | idle => simp
  | syncing =>
      cases fw.ble.follow.syncQ with
      | nil => simp
      | cons req syncQ => simp
  | pathing i => simp

theorem isoPathWorkFn_some_iff (fw : Firmware) :
    (∃ fw', isoPathWorkFn fw = some fw') ↔ Input.isoPathWork.Possible fw := by
  simp only [Input.Possible]
  unfold isoPathWorkFn
  cases fw.ble.follow.loop with
  | idle => simp
  | syncing => simp
  | pathing i =>
      cases hstream : fw.ble.follow.bisHandles[i]? with
      | none => simp [hstream]
      | some handle => simp [hstream]

/-- Where the buffers hold their batches, just what may come is handled. -/
theorem step_some_iff {fw : Firmware} (h : BatchesHold fw) (i : Input) :
    (∃ fw', step p fw i = some fw') ↔ i.Possible fw := by
  cases i with
  | hostFrame type payload =>
      exact iff_of_true (snControlHandle_total h type payload) trivial
  | received pkt => exact iff_of_true (receive_total h pkt) trivial
  | radioEvent event => exact iff_of_true ⟨_, rfl⟩ trivial
  | hciPacket h4 data now =>
      simp only [step, Input.Possible]
      constructor
      · rintro ⟨fw', hs⟩
        exact (Option.ite_none_right_eq_some.mp hs).1
      · intro hlen
        rw [if_pos hlen]
        exact fwdLoop_total h h4 now hlen
  | batchLinger => exact iff_of_true (batchLinger_total h) trivial
  | bleLinger => exact iff_of_true (bleLinger_total h) trivial
  | syncWork => exact syncWorkFn_some_iff fw
  | bigWork uptime => simp [step, Input.Possible]
  | isoPathWork => exact isoPathWorkFn_some_iff fw
  | statsRead =>
      simp only [step, statsRead, Input.Possible]
      cases fw.tick <;> simp
  | linkRead queued =>
      simp only [step, linkRead, Input.Possible]
      cases fw.tick <;> simp
  | tickSend =>
      simp only [step, tickSend, Input.Possible]
      cases fw.tick <;> simp [StatsTick.frame]
  | log =>
      simp only [step, processLog, Input.Possible]
      cases hlogs : fw.logs with
      | nil => simp
      | cons line logs => simp

/-! ## What waits -/

/-- The queue and the table of streams have room for what is in them. -/
structure WaitsFit (f : Following) : Prop where
  trains : f.syncQ.length ≤ syncQueueDepth
  streams : f.bisHandles.length ≤ maxBis

/-- With no more waiting than before, it fits. -/
theorem WaitsFit.fewer {f f' : Following} (h : WaitsFit f) (hfewer : Fewer f f') : WaitsFit f' where
  trains := by
    have hle := (hfewer .train).length_le
    rw [Request.waiting, Request.waiting, List.length_map, List.length_map] at hle
    exact Nat.le_trans hle h.trains
  streams := by
    have hle := (hfewer .stream).length_le
    rw [Request.waiting, Request.waiting, List.length_map, List.length_map] at hle
    exact Nat.le_trans hle h.streams

theorem streamsOf_length (data : List UInt8) : (streamsOf data).length ≤ maxBis := by
  unfold streamsOf
  split
  · split
    · split
      · rw [List.length_take]
        omega
      · exact Nat.zero_le _
    · exact Nat.zero_le _
  · exact Nat.zero_le _

/-- `k_msgq_put` leaves out what does not fit. -/
theorem putSyncReq_length {f : Following} (h : f.syncQ.length ≤ syncQueueDepth) (req : SyncReq) :
    (putSyncReq f req).syncQ.length ≤ syncQueueDepth := by
  unfold putSyncReq
  split
  · rename_i hroom
    rw [List.length_append]
    exact hroom
  · exact h

theorem beforeLock_trains {s : BleRadio} {h4 : UInt8} {data : List UInt8} {now : Readings}
    {r : BleRadio × Sized} (hfits : s.follow.syncQ.length ≤ syncQueueDepth)
    (h : beforeLock s h4 data now = some r) : r.1.follow.syncQ.length ≤ syncQueueDepth := by
  unfold beforeLock at h
  obtain ⟨s₁, hcount, h⟩ := Option.bind_eq_some_iff.mp h
  obtain ⟨s₂, hpeek, h⟩ := Option.bind_eq_some_iff.mp h
  cases h
  have hfirst : s₁.follow.syncQ.length ≤ syncQueueDepth := by
    have hover : (countOversized s (sizePacket h4 data now.nowUs)).follow = s.follow := by
      unfold countOversized
      split
      · rfl
      · rfl
    unfold countEvent at hcount
    split at hcount
    · rw [(noteCounts_followed hcount).syncQ, hover]
      exact hfits
    · cases hcount
      rw [hover]
      exact hfits
  unfold peekEvent at hpeek
  split at hpeek
  · obtain ⟨s₃, hperiodic, hbig⟩ := Option.bind_eq_some_iff.mp hpeek
    have hsecond : s₃.follow.syncQ.length ≤ syncQueueDepth := by
      rcases notePeriodic_followed hperiodic with rfl | ⟨req, _, rfl⟩
      · exact hfirst
      · exact putSyncReq_length hfirst req
    rcases noteBigInfo_followed hbig with rfl | ⟨params, _, rfl⟩
    · exact hsecond
    · exact hsecond
  · cases hpeek
    exact hfirst

theorem fwdLoop_waitsFit {fw fw' : Firmware} {h4 : UInt8} {data : List UInt8} {now : Readings}
    (h : WaitsFit fw.ble.follow) (hs : fwdLoop fw h4 data now = some fw') :
    WaitsFit fw'.ble.follow := by
  obtain ⟨slot, _, hs⟩ := Option.bind_eq_some_iff.mp hs
  split at hs
  · obtain ⟨⟨ble, outbox⟩, hforward, heq⟩ := Option.map_eq_some_iff.mp hs
    cases heq
    obtain ⟨⟨s₁, sized⟩, hbefore, happend⟩ := Option.bind_eq_some_iff.mp hforward
    obtain ⟨batch, stats, rfl⟩ := appendLocked_effect happend
    refine ⟨beforeLock_trains h.trains hbefore, ?_⟩
    show s₁.follow.bisHandles.length ≤ maxBis
    rcases beforeLock_followed hbefore with hsame | ⟨_, hfollowed⟩
    · rw [hsame]
      exact h.streams
    · rcases hfollowed.streams with ⟨_, hhandles⟩ | hhandles
      · rw [hhandles]
        exact h.streams
      · rw [hhandles]
        exact streamsOf_length data
  · cases hs
    exact h

/-- A work item takes out of what waits. -/
theorem syncWorkFn_fewer {fw fw' : Firmware} (h : syncWorkFn fw = some fw') :
    Fewer fw.ble.follow fw'.ble.follow := by
  obtain ⟨syncWork, loop, rfl⟩ | ⟨req, syncQ, hqueue, rfl⟩ := syncWorkFn_cases h
  · intro k
    cases k <;> exact .refl _
  · obtain ⟨n, hfollow⟩ := syncOne_follow { fw with ble := leaveQueued fw.ble syncQ } req
    rw [hfollow]
    intro k
    cases k with
    | train =>
        rw [Request.waiting, Request.waiting, hqueue]
        exact (List.sublist_cons_self _ _).map _
    | broadcast => exact .refl _
    | stream => exact .refl _

theorem bigWorkFn_fewer (fw : Firmware) (uptime : Int) :
    Fewer fw.ble.follow (bigWorkFn fw uptime).ble.follow := by
  obtain ⟨synced, retryAt, hfollow⟩ := bigWorkFn_follow fw uptime
  rw [hfollow]
  intro k
  cases k with
  | train => exact .refl _
  | broadcast => exact List.nil_sublist _
  | stream => exact .refl _

theorem isoPathWorkFn_fewer {fw fw' : Firmware} (h : isoPathWorkFn fw = some fw') :
    Fewer fw.ble.follow fw'.ble.follow := by
  obtain ⟨isoPathWork, loop, rfl⟩ | ⟨handle, i, _, _, rfl⟩ := isoPathWorkFn_cases h
  · intro k
    cases k <;> exact .refl _
  · rw [isoPathOne_follow]
    intro k
    cases k <;> exact .refl _

/-- Nothing but an event adds to what waits. -/
theorem step_waitsFit {fw fw' : Firmware} {i : Input} (h : WaitsFit fw.ble.follow)
    (hs : step p fw i = some fw') : WaitsFit fw'.ble.follow := by
  cases i with
  | hostFrame type payload => exact h.fewer (snControlHandle_fewer hs)
  | hciPacket h4 data now =>
      exact fwdLoop_waitsFit h (Option.ite_none_right_eq_some.mp hs).2
  | syncWork => exact h.fewer (syncWorkFn_fewer hs)
  | bigWork uptime =>
      obtain ⟨_, hs⟩ := Option.ite_none_right_eq_some.mp hs
      cases hs
      exact h.fewer (bigWorkFn_fewer fw uptime)
  | isoPathWork => exact h.fewer (isoPathWorkFn_fewer hs)
  | received pkt =>
      obtain ⟨_, _, _, rfl, _⟩ := receive_effect hs
      exact h
  | radioEvent event =>
      cases hs
      exact h
  | batchLinger =>
      obtain ⟨_, _, rfl, _⟩ := batchLinger_effect hs
      exact h
  | bleLinger =>
      obtain ⟨_, _, _, rfl, _⟩ := bleLinger_effect hs
      exact h
  | statsRead =>
      obtain ⟨_, rfl⟩ := statsRead_eq hs
      exact h
  | linkRead queued =>
      obtain ⟨_, rfl⟩ := linkRead_eq hs
      exact h
  | tickSend =>
      obtain ⟨f, _, rfl⟩ := tickSend_eq hs
      exact h
  | log =>
      have hs : processLog p fw = some fw' := hs
      unfold processLog at hs
      split at hs
      · cases hs
      · cases hs
        exact h

theorem waitsFit_boot (w : World) : WaitsFit (boot w).ble.follow :=
  ⟨Nat.zero_le _, Nat.zero_le _⟩

/-! ## The tables and the copy -/

/-- Each key `apply_keys` hands over is an entry of the table, the entries of the
filter are whole and have room in theirs, and so do the requests and the
streams. -/
structure TablesInside (s : BleRadio) : Prop where
  keys : ∀ i < s.keyCount, s.keys.read (keyEntry * i) keyEntry = some (keyAt s i)
  filter : s.filter.length ≤ maxFilter
  entries : ∀ entry ∈ s.filter, entry.length = filterEntry
  waits : WaitsFit s.follow

/-- `peek` is filled from bytes of the event, and has room for them. -/
def CopyInside (data : List UInt8) : Prop :=
  ∃ body rest peek, takeExact (min 32 (data.length + 1) - 1) data = some (body, rest) ∧
    (ByteBuffer.zero 32).write 0 (h4Event :: body) = some peek ∧ peekCopy data = h4Event :: body

theorem keyAt_inside {s : BleRadio} (h : s.keyCount ≤ maxKeys) {i : Nat} (hi : i < s.keyCount) :
    s.keys.read (keyEntry * i) keyEntry = some (keyAt s i) := by
  have hroom : keyEntry * i + keyEntry ≤ maxKeys * keyEntry := by
    rw [← Nat.mul_succ, Nat.mul_comm maxKeys]
    exact Nat.mul_le_mul_left keyEntry (by omega)
  exact s.keys.read_eq_some _ _ hroom

theorem wholeEntries_whole {payload entry : List UInt8} (h : entry ∈ wholeEntries payload) :
    entry.length = filterEntry := by
  obtain ⟨i, hi, rfl⟩ := List.mem_map.mp h
  have hroom : filterEntry * (i + 1) ≤ payload.length :=
    calc filterEntry * (i + 1)
        ≤ filterEntry * (payload.length / filterEntry) :=
          Nat.mul_le_mul_left _ (List.mem_range.mp hi)
      _ ≤ payload.length := Nat.mul_div_le _ _
  rw [Nat.mul_succ] at hroom
  rw [List.length_take, List.length_drop]
  omega

theorem TablesHold.inside {asked : List UInt8} {fw : Firmware} (h : TablesHold asked fw)
    (hwaits : WaitsFit fw.ble.follow) : TablesInside fw.ble where
  keys := fun _ hi => keyAt_inside h.keys hi
  filter := by
    rw [h.filter, List.length_take]
    exact Nat.min_le_left _ _
  entries := by
    intro entry hentry
    rw [h.filter] at hentry
    exact wholeEntries_whole (List.mem_of_mem_take hentry)
  waits := hwaits

theorem tablesInside_run {w : World} {inputs : List Input} {fw : Firmware}
    (hrun : (machine p).run (boot w) inputs = some fw) : TablesInside fw.ble := by
  have hwaits : WaitsFit fw.ble.follow :=
    (machine p).run_invariant (I := fun fw => WaitsFit fw.ble.follow)
      (fun _ _ _ => step_waitsFit) (waitsFit_boot w) hrun
  exact (tablesHold_run (tablesHold_boot w) hrun).inside hwaits

theorem copyInside (data : List UInt8) : CopyInside data := by
  have hbody : min 32 (data.length + 1) - 1 ≤ data.length := by omega
  obtain ⟨peek, hpeek, _⟩ := (ByteBuffer.zero 32).write_eq_some 0
    (h4Event :: data.take (min 32 (data.length + 1) - 1))
    (by rw [List.length_cons, List.length_take]; omega)
  exact ⟨_, _, peek, if_pos hbody, hpeek, rfl⟩

/-! ## Every run -/

/-- From boot, the firmware gets through a row of inputs exactly when each of
them may come in the state it finds. -/
theorem run_some_iff (w : World) (inputs : List Input) :
    (∃ fw, (machine p).run (boot w) inputs = some fw) ↔
      (machine p).RunMeets (fun fw i => i.Possible fw) (boot w) inputs := by
  have hall : ∀ (inputs : List Input) (fw : Firmware), BatchesHold fw →
      ((∃ fw', (machine p).run fw inputs = some fw') ↔
        (machine p).RunMeets (fun fw i => i.Possible fw) fw inputs) := by
    intro inputs
    induction inputs with
    | nil => exact fun fw _ => iff_of_true ⟨fw, rfl⟩ trivial
    | cons i inputs ih =>
        intro fw h
        constructor
        · rintro ⟨fw', hrun⟩
          obtain ⟨fw₁, hstep, hrest⟩ := (machine p).run_cons_eq_some.mp hrun
          refine ⟨(step_some_iff h i).mp ⟨fw₁, hstep⟩, fun fw₂ hstep' => ?_⟩
          have hsame : fw₂ = fw₁ := Option.some.inj (hstep'.symm.trans hstep)
          rw [hsame]
          exact (ih fw₁ (step_batchesHold h hstep)).mp ⟨fw', hrest⟩
        · rintro ⟨hpossible, hmeets⟩
          obtain ⟨fw₁, hstep⟩ := (step_some_iff (p := p) h i).mpr hpossible
          obtain ⟨fw', hrest⟩ := (ih fw₁ (step_batchesHold h hstep)).mpr (hmeets fw₁ hstep)
          exact ⟨fw', (machine p).run_cons_eq_some.mpr ⟨fw₁, hstep, hrest⟩⟩
  exact hall inputs (boot w) (batchesHold_boot w)

/-- **No run leaves a buffer.** From boot, whatever the world answers: a row of
inputs has an outcome exactly when each of them may come in the state it finds,
the tables are read inside their bounds in every state reached, and so is an
event when it is copied. -/
theorem in_bounds_iff_possible (w : World) (inputs : List Input) :
    ((∃ fw, (machine p).run (boot w) inputs = some fw) ↔
      (machine p).RunMeets (fun fw i => i.Possible fw) (boot w) inputs) ∧
    (∀ fw, (machine p).run (boot w) inputs = some fw → TablesInside fw.ble) ∧
    ∀ data, CopyInside data :=
  ⟨run_some_iff w inputs, fun _ => tablesInside_run, copyInside⟩

end Nrf54Sniffer.Board
