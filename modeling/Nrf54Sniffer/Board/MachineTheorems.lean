/-
Nrf54Sniffer.Board.MachineTheorems — the two open batches along every run of
the firmware.

`BatchesHold` is the part of the invariant every later result needs: whatever
has happened, both buffers read back as a batch with room for one more packet,
so no flush and no append ever leaves its buffer. Most of the firmware does
not touch the batches at all (`SameBatches`); the rest goes through the
batchers' own theorems.
-/
import Nrf54Sniffer.Batch.BatcherTheorems
import Nrf54Sniffer.Ble.CommandTheorems
import Nrf54Sniffer.Ble.ForwardTheorems
import Nrf54Sniffer.Board.Machine

namespace Nrf54Sniffer.Board

open Nrf54Sniffer.Wire
open Nrf54Sniffer.Radio154
open Nrf54Sniffer.Ble
open Nrf54Sniffer.Control

/-! ## The invariant -/

/-- Both buffers hold an open batch with room for a packet. -/
structure BatchesHold (fw : Firmware) : Prop where
  batch : ∃ ks, Batch.Rep fw.batcher ks ∧ ks.length < Batch.maxEntries
  ble : ∃ ks, Ble.Rep fw.ble.batch ks ∧ ks.length < bleMaxEntries

/-- The open batches are as they were. -/
structure SameBatches (fw fw' : Firmware) : Prop where
  batch : fw'.batcher = fw.batcher
  ble : fw'.ble.batch = fw.ble.batch

theorem SameBatches.refl (fw : Firmware) : SameBatches fw fw := ⟨rfl, rfl⟩

theorem SameBatches.trans {fw fw' fw'' : Firmware} (h : SameBatches fw fw')
    (h' : SameBatches fw' fw'') : SameBatches fw fw'' :=
  ⟨h'.batch.trans h.batch, h'.ble.trans h.ble⟩

theorem BatchesHold.same {fw fw' : Firmware} (h : BatchesHold fw) (hs : SameBatches fw fw') :
    BatchesHold fw' where
  batch := by rw [hs.batch]; exact h.batch
  ble := by rw [hs.ble]; exact h.ble

theorem batchesHold_boot (w : World) : BatchesHold (boot w) where
  batch := ⟨[], Batch.rep_initial, by decide⟩
  ble := ⟨[], Ble.rep_initial, by decide⟩

/-! ## Work aside from the capture -/

/-- Everything the two batches, their senders and their receivers look at, and
what was handed to the link. -/
def dataPath (fw : Firmware) :=
  (fw.batcher, fw.ble.batch, fw.radio.running, fw.ble.running, fw.ble.ready, fw.selectedRadio,
    fw.outbox.frames)

/-- Nothing of the capture has changed, and the frames handed over since carry
no packets. -/
structure Aside (fw fw' : Firmware) : Prop extends SameBatches fw fw' where
  running154 : fw'.radio.running = fw.radio.running
  runningBle : fw'.ble.running = fw.ble.running
  ready : fw'.ble.ready = fw.ble.ready
  selected : fw'.selectedRadio = fw.selectedRadio
  adds : ∃ new, fw'.outbox.frames = fw.outbox.frames ++ new ∧
    ∀ f ∈ new, f.type.carriesPackets = false

theorem Aside.silent {fw fw' : Firmware} (h : dataPath fw' = dataPath fw) : Aside fw fw' := by
  simp only [dataPath, Prod.mk.injEq] at h
  obtain ⟨hbatch, hble, hrun, hrunBle, hready, hselected, hframes⟩ := h
  exact ⟨⟨hbatch, hble⟩, hrun, hrunBle, hready, hselected, [], by simp [hframes], by simp⟩

theorem Aside.refl (fw : Firmware) : Aside fw fw := .silent rfl

theorem Aside.trans {fw fw' fw'' : Firmware} (h : Aside fw fw') (h' : Aside fw' fw'') :
    Aside fw fw'' := by
  obtain ⟨new, hnew, hplain⟩ := h.adds
  obtain ⟨new', hnew', hplain'⟩ := h'.adds
  refine ⟨h.toSameBatches.trans h'.toSameBatches, h'.running154.trans h.running154,
    h'.runningBle.trans h.runningBle, h'.ready.trans h.ready, h'.selected.trans h.selected,
    new ++ new', by rw [hnew', hnew, List.append_assoc], ?_⟩
  intro f hf
  rcases List.mem_append.mp hf with hf | hf
  · exact hplain f hf
  · exact hplain' f hf

/-- A frame without packets is handed over. -/
theorem Aside.sends (fw : Firmware) {f : Frame} (hf : f.type.carriesPackets = false) :
    Aside fw { fw with outbox := (fw.outbox.send f).1 } := by
  refine ⟨⟨rfl, rfl⟩, rfl, rfl, rfl, rfl, [f], Outbox.send_frames _ f, ?_⟩
  intro g hg
  rw [List.mem_singleton.mp hg]
  exact hf

theorem Aside.ofOnlyHci {fw fw' : Firmware} (h : OnlyHci fw fw') : Aside fw fw' := by
  obtain ⟨_, _, _, _, rfl⟩ := h
  exact .silent rfl

theorem Aside.ofOnlyFollow {fw fw' : Firmware} (h : OnlyFollow fw fw') : Aside fw fw' := by
  obtain ⟨_, _, _, _, _, rfl⟩ := h
  exact .silent rfl

theorem Aside.logLine (fw : Firmware) (line : LogLine) : Aside fw (fw.logLine line) := .silent rfl

theorem reply_aside (p : Platform) (fw : Firmware) (command : UInt8) (status : Status)
    (value : UInt32) : Aside fw (reply p fw command status value) :=
  .sends fw rfl

/-- A reply, once something else has been set. -/
theorem Aside.reply {fw fw' : Firmware} (h : Aside fw fw') (p : Platform) (command : UInt8)
    (status : Status) (value : UInt32) : Aside fw (Control.reply p fw' command status value) :=
  h.trans (reply_aside p fw' command status value)

/-- A setting no sender looks at is stored, and answered. -/
theorem Aside.stored {fw fw' : Firmware} (h : dataPath fw' = dataPath fw) (p : Platform)
    (command : UInt8) (status : Status) (value : UInt32) :
    Aside fw (Control.reply p fw' command status value) :=
  (Aside.silent h).reply p command status value

theorem setAntenna_aside (fw : Firmware) (value : UInt32) : Aside fw (setAntenna fw value).1 := by
  unfold setAntenna switchAntenna
  split
  · exact .refl fw
  · split
    · exact .refl fw
    · split
      · exact .refl fw
      · exact .silent rfl

/-- The calls of an energy detection are the driver's alone. -/
theorem edStart_running (r : Radio) (channel : UInt8) (ms : UInt32) :
    (edStart r channel ms).1.running = r.running := by
  unfold edStart
  simp only
  split
  · rfl
  · split
    · rfl
    · rfl

theorem snRadio154EnergyDetect_running (r : Radio) (channel : UInt8) (durationSymbols : UInt32) :
    (snRadio154EnergyDetect r channel durationSymbols).1.running = r.running := by
  unfold snRadio154EnergyDetect
  split
  · rfl
  · exact edStart_running { r with measuring := true } channel _

theorem onEnergyDetect_aside (p : Platform) (fw : Firmware) (command : UInt8) (value : UInt32) :
    Aside fw (onEnergyDetect p fw command value) := by
  have hrun := snRadio154EnergyDetect_running fw.radio (value &&& 0xFF).toUInt8 (value >>> 8)
  unfold onEnergyDetect
  split
  · exact reply_aside _ _ _ _ _
  · split
    rename_i radio err dbm heq
    rw [heq] at hrun
    have hrunning : radio.running = fw.radio.running := hrun
    have hradio : Aside fw { fw with radio } := .silent (by simp only [dataPath, hrunning])
    split
    · exact hradio.reply _ _ _ _
    · split
      · exact (hradio.trans (.logLine _ _)).reply _ _ _ _
      · exact hradio.reply _ _ _ _

/-- A BLE_KEYS frame logs why it was refused, or stores its keys whole: never
more of them than the table holds. -/
theorem snRadioBleSetKeys_cases {fw fw' : Firmware} {payload : List UInt8} {err : Int}
    (h : snRadioBleSetKeys fw payload = some (fw', err)) :
    (∃ line, fw' = fw.logLine line) ∨
      ∃ keys keyCount, keyCount ≤ maxKeys ∧
        fw' = { fw with ble := { fw.ble with keys, keyCount } }.logLine (.deviceKeys keyCount) := by
  unfold snRadioBleSetKeys at h
  split at h
  · cases h
    exact .inl ⟨_, rfl⟩
  · rename_i hlen
    split at h
    · cases h
      exact .inl ⟨_, rfl⟩
    · obtain ⟨keys, _, heq⟩ := Option.map_eq_some_iff.mp h
      cases heq
      exact .inr ⟨keys, _, Nat.le_of_not_lt fun hmany => hlen (.inr hmany), rfl⟩

theorem snRadioBleSetKeys_aside {fw fw' : Firmware} {payload : List UInt8} {err : Int}
    (h : snRadioBleSetKeys fw payload = some (fw', err)) : Aside fw fw' := by
  obtain ⟨line, rfl⟩ | ⟨keys, keyCount, _, rfl⟩ := snRadioBleSetKeys_cases h
  · exact .silent rfl
  · exact .silent rfl

/-- An event of the radio counts at most. -/
theorem radioEvent_running (r : Radio) (event : RadioEvent) :
    (radioEvent r event).running = r.running := by
  unfold radioEvent
  split
  · split
    · rfl
    · split
      · rfl
      · rfl
  · rfl

theorem statsRead_eq {fw fw' : Firmware} (h : statsRead fw = some fw') :
    fw.tick = .idle ∧ fw' = { fw with tick := .stats (statsFields fw) } := by
  unfold statsRead at h
  split at h
  · rename_i hidle
    cases h
    exact ⟨hidle, rfl⟩
  · cases h

theorem linkRead_eq {fw fw' : Firmware} {queued : Nat} (h : linkRead fw queued = some fw') :
    fw.tick = .between ∧ fw' = { fw with tick := .link (linkFields fw queued) } := by
  unfold linkRead at h
  split at h
  · rename_i hbetween
    cases h
    exact ⟨hbetween, rfl⟩
  · cases h

/-- What has been read is sent as STATS or as LINK. -/
theorem StatsTick.frame_type {tick : StatsTick} {f : Frame} (h : tick.frame = some f) :
    f.type = .stats ∨ f.type = .link := by
  cases tick with
  | idle => cases h
  | stats fields =>
      cases h
      exact .inl rfl
  | between => cases h
  | link fields =>
      cases h
      exact .inr rfl

theorem tickSend_eq {fw fw' : Firmware} (h : tickSend fw = some fw') :
    ∃ f, fw.tick.frame = some f ∧
      fw' = { fw with tick := fw.tick.sent, outbox := (fw.outbox.send f).1 } := by
  obtain ⟨f, hf, heq⟩ := Option.map_eq_some_iff.mp h
  exact ⟨f, hf, heq.symm⟩

theorem tickSend_aside {fw fw' : Firmware} (h : tickSend fw = some fw') : Aside fw fw' := by
  obtain ⟨f, hf, rfl⟩ := tickSend_eq h
  have hplain : f.type.carriesPackets = false := by
    rcases StatsTick.frame_type hf with htype | htype
    · rw [htype]
      rfl
    · rw [htype]
      rfl
  have hmoved : Aside fw { fw with tick := fw.tick.sent } := .silent rfl
  exact hmoved.trans (.sends _ hplain)

theorem processLog_aside {p : Platform} {fw fw' : Firmware} (h : processLog p fw = some fw') :
    Aside fw fw' := by
  have hpieces : ∀ (pieces : List (List UInt8)) (fw : Firmware),
      Aside fw { fw with outbox := sendLog fw.outbox pieces } := by
    intro pieces
    induction pieces with
    | nil => exact Aside.refl
    | cons piece pieces ih =>
        intro fw
        exact (Aside.sends fw (f := ⟨.log, piece⟩) rfl).trans (ih _)
  unfold processLog at h
  split at h
  · cases h
  · rename_i line logs _
    cases h
    have htaken : Aside fw { fw with logs } := .silent rfl
    exact htaken.trans (hpieces (p.format line) _)

/-! ## Starts -/

theorem startBle_sameBatches (fw : Firmware) : SameBatches fw (startBle fw).1 := by
  obtain ⟨fw', honly, hcases⟩ :=
    snRadioBleStart_cases fw fw.bleIntervalMs fw.bleWindowMs fw.blePhys
  have hsame := (Aside.ofOnlyHci honly).toSameBatches
  have h : SameBatches fw (snRadioBleStart fw fw.bleIntervalMs fw.bleWindowMs fw.blePhys).1 := by
    rcases hcases with heq | heq
    · rw [heq]
      exact hsame
    · rw [heq]
      exact hsame.trans ⟨rfl, rfl⟩
  unfold startBle
  split
  rename_i fw'' err heq
  rw [heq] at h
  split
  · exact h.trans ⟨rfl, rfl⟩
  · exact h

theorem tuneAndStart_sameBatches (fw : Firmware) (value : UInt32) :
    SameBatches fw (tuneAndStart fw value).1 := by
  unfold tuneAndStart
  simp only
  split
  · exact ⟨rfl, rfl⟩
  · split
    · exact ⟨rfl, rfl⟩
    · exact ⟨rfl, rfl⟩

theorem onStart_sameBatches (p : Platform) (fw : Firmware) (command : UInt8) :
    SameBatches fw (onStart p fw command) := by
  unfold onStart
  split
  · exact (startBle_sameBatches fw).trans (reply_aside _ _ _ _ _).toSameBatches
  · exact ⟨rfl, rfl⟩

/-! ## Stops -/

theorem flushBatch_holds {fw fw' : Firmware} (h : BatchesHold fw) (hf : flushBatch fw = some fw') :
    BatchesHold fw' := by
  obtain ⟨ks, hrep, _⟩ := h.batch
  obtain ⟨b, o, hflush, hrep', _⟩ := Batch.snBatchFlush_spec hrep fw.outbox
  rw [flushBatch, hflush, Option.map_some] at hf
  cases hf
  exact ⟨⟨[], hrep', by decide⟩, h.ble⟩

theorem snRadioBleStop_holds {fw fw' : Firmware} {err : Int} (h : BatchesHold fw)
    (hs : snRadioBleStop fw = some (fw', err)) : BatchesHold fw' := by
  obtain ⟨ks, hrep, _⟩ := h.ble
  obtain ⟨batch, stats, o, hflush, hrep', _⟩ :=
    Ble.stopFlush_spec (s := stopCapture fw.ble) hrep fw.outbox
  rw [snRadioBleStop, hflush, Option.map_some, Option.some.injEq] at hs
  have hflushed : BatchesHold (flushedStop fw ({ stopCapture fw.ble with batch, stats }, o)) :=
    ⟨h.batch, [], hrep', by decide⟩
  have honly := sendCommand_onlyHci
    (flushedStop fw ({ stopCapture fw.ble with batch, stats }, o)) opReset []
  rw [hs] at honly
  exact hflushed.same (Aside.ofOnlyHci honly).toSameBatches

theorem stopRadio_holds {fw fw' : Firmware} {radio : UInt8} {err : Int} (h : BatchesHold fw)
    (hs : stopRadio fw radio = some (fw', err)) : BatchesHold fw' := by
  unfold stopRadio at hs
  split at hs
  · unfold stopBle at hs
    split at hs
    · exact snRadioBleStop_holds h hs
    · cases hs
      exact h
  · obtain ⟨fw₁, hflush, heq⟩ := Option.map_eq_some_iff.mp hs
    cases heq
    have hstopped : BatchesHold { fw with radio := (snRadio154Stop fw.radio).1 } :=
      h.same ⟨rfl, rfl⟩
    exact flushBatch_holds hstopped hflush

/-! ## The commands -/

theorem onSetRadio_holds {p : Platform} {fw fw' : Firmware} {command : UInt8} {value : UInt32}
    (h : BatchesHold fw) (hs : onSetRadio p fw command value = some fw') : BatchesHold fw' := by
  unfold onSetRadio at hs
  split at hs
  · cases hs
    exact h.same (reply_aside _ _ _ _ _).toSameBatches
  · obtain ⟨fw₁, hstop, heq⟩ := Option.map_eq_some_iff.mp hs
    cases heq
    have h₁ : BatchesHold fw₁ := by
      split at hstop
      · obtain ⟨⟨fw₂, err⟩, hstop', heq'⟩ := Option.map_eq_some_iff.mp hstop
        cases heq'
        exact stopRadio_holds h hstop'
      · cases hstop
        exact h
    exact h₁.same ⟨rfl, rfl⟩

theorem onSetChannel_holds {p : Platform} {fw fw' : Firmware} {command : UInt8} {value : UInt32}
    (h : BatchesHold fw) (hs : onSetChannel p fw command value = some fw') : BatchesHold fw' := by
  unfold onSetChannel at hs
  split at hs
  · cases hs
    exact h.same (reply_aside _ _ _ _ _).toSameBatches
  · obtain ⟨fw₁, hflush, heq⟩ := Option.map_eq_some_iff.mp hs
    cases heq
    exact (flushBatch_holds h hflush).same
      ((tuneAndStart_sameBatches fw₁ value).trans (reply_aside _ _ _ _ _).toSameBatches)

theorem onStop_holds {p : Platform} {fw fw' : Firmware} {command : UInt8}
    (h : BatchesHold fw) (hs : onStop p fw command = some fw') : BatchesHold fw' := by
  obtain ⟨⟨fw₁, err⟩, hstop, heq⟩ := Option.map_eq_some_iff.mp hs
  cases heq
  exact (stopRadio_holds h hstop).same (reply_aside _ _ _ _ _).toSameBatches

/-- The counters and the settings are no part of a batch. -/
theorem freshSession_holds {fw : Firmware} (h : BatchesHold fw) :
    BatchesHold (freshSession fw) := by
  have hreset : BatchesHold
      (defaultSettings (resetCounters { fw with selectedRadio := radio154 })) := by
    obtain ⟨ks, hrep, hlt⟩ := h.batch
    exact ⟨⟨ks, ⟨hrep.holds, hrep.channel, hrep.first, hrep.length_le⟩, hlt⟩, h.ble⟩
  exact hreset.same (setAntenna_aside _ _).toSameBatches

theorem onGetInfo_holds {p : Platform} {fw fw' : Firmware} {command : UInt8}
    (h : BatchesHold fw) (hs : onGetInfo p fw command = some fw') : BatchesHold fw' := by
  obtain ⟨fw₂, hboth, heq⟩ := Option.map_eq_some_iff.mp hs
  cases heq
  obtain ⟨⟨fw₁, _⟩, hstop, hboth⟩ := Option.bind_eq_some_iff.mp hboth
  obtain ⟨⟨fw₂, _⟩, hstop', heq⟩ := Option.map_eq_some_iff.mp hboth
  cases heq
  exact (freshSession_holds (stopRadio_holds (stopRadio_holds h hstop) hstop')).same
    (reply_aside _ _ _ _ _).toSameBatches

theorem onCommand_holds {p : Platform} {fw fw' : Firmware} {command : UInt8} {value : UInt32}
    (h : BatchesHold fw) (hs : onCommand p fw command value = some fw') : BatchesHold fw' := by
  unfold onCommand at hs
  split at hs
  case h_1 => exact onSetRadio_holds h hs
  case h_2 =>
    cases hs
    refine h.same ?_
    unfold onSetBlePhys
    split
    · exact ⟨rfl, rfl⟩
    · exact ⟨rfl, rfl⟩
  case h_3 => cases hs; exact h.same ⟨rfl, rfl⟩
  case h_4 => cases hs; exact h.same ⟨rfl, rfl⟩
  case h_5 => exact onSetChannel_holds h hs
  case h_6 => cases hs; exact h.same (onStart_sameBatches p fw command)
  case h_7 => exact onStop_holds h hs
  case h_8 => exact onGetInfo_holds h hs
  case h_9 =>
    cases hs
    exact h.same ((setAntenna_aside fw value).reply _ _ _ _).toSameBatches
  case h_10 => cases hs; exact h.same (onEnergyDetect_aside p fw command value).toSameBatches
  case h_11 => cases hs; exact h.same (reply_aside _ _ _ _ _).toSameBatches

theorem snControlHandle_holds {p : Platform} {fw fw' : Firmware} {type : FrameType}
    {payload : List UInt8} (h : BatchesHold fw)
    (hs : snControlHandle p fw type payload = some fw') : BatchesHold fw' := by
  unfold snControlHandle at hs
  split at hs
  · cases hs
    exact h.same ⟨rfl, rfl⟩
  · obtain ⟨⟨fw₁, err⟩, hkeys, heq⟩ := Option.map_eq_some_iff.mp hs
    cases heq
    exact h.same (snRadioBleSetKeys_aside hkeys).toSameBatches
  · exact onCommand_holds h hs
  · cases hs
    exact h

/-! ## The radios and the timers -/

theorem receive_holds {fw fw' : Firmware} {pkt : Option NetPkt} (h : BatchesHold fw)
    (hs : receive fw pkt = some fw') : BatchesHold fw' := by
  obtain ⟨⟨radio, batcher, outbox, err⟩, hrecv, heq⟩ := Option.map_eq_some_iff.mp hs
  cases heq
  obtain ⟨ks, hrep, hlt⟩ := h.batch
  unfold netRecvData at hrecv
  split at hrecv
  · cases hrecv
    exact h.same ⟨rfl, rfl⟩
  · split at hrecv
    · cases hrecv
      exact h.same ⟨rfl, rfl⟩
    · split at hrecv
      · cases hrecv
        exact h.same ⟨rfl, rfl⟩
      · rename_i pkt _ _
        obtain ⟨b, o, ks', hadd, hadv⟩ :=
          Batch.snBatchAdd_advances hrep hlt fw.outbox (fw.radio.packetOf pkt)
        rw [hadd, Option.map_some] at hrecv
        cases hrecv
        exact ⟨⟨ks', hadv.rep, hadv.below⟩, h.ble⟩

theorem fwdLoop_holds {fw fw' : Firmware} {h4 : UInt8} {data : List UInt8} {now : Readings}
    (h : BatchesHold fw) (hlen : data.length ≤ 65534)
    (hs : fwdLoop fw h4 data now = some fw') : BatchesHold fw' := by
  obtain ⟨slot, _, hs⟩ := Option.bind_eq_some_iff.mp hs
  split at hs
  · obtain ⟨⟨ble, outbox⟩, hforward, heq⟩ := Option.map_eq_some_iff.mp hs
    cases heq
    obtain ⟨ks, hrep, hlt⟩ := h.ble
    obtain ⟨s, o, ks', hforward', hadv⟩ := forward_advances hrep hlt fw.outbox h4 data now hlen
    cases hforward.symm.trans hforward'
    exact ⟨h.batch, ks', hadv.rep, hadv.below⟩
  · cases hs
    exact h.same ⟨rfl, rfl⟩

theorem batchLinger_holds {fw fw' : Firmware} (h : BatchesHold fw)
    (hs : batchLinger fw = some fw') : BatchesHold fw' := by
  obtain ⟨ks, hrep, _⟩ := h.batch
  obtain ⟨b, o, hflush, hadv⟩ := Batch.flushLocked_advances hrep fw.outbox
  rw [batchLinger, Batch.lingerExpired, hflush, Option.map_some] at hs
  cases hs
  exact ⟨⟨[], hadv.rep, hadv.below⟩, h.ble⟩

theorem bleLinger_holds {fw fw' : Firmware} (h : BatchesHold fw)
    (hs : bleLinger fw = some fw') : BatchesHold fw' := by
  obtain ⟨ks, hrep, _⟩ := h.ble
  obtain ⟨s, o, hflush, hadv⟩ := bleFlushLocked_advances hrep fw.outbox
  rw [bleLinger, bleLingerExpired, hflush, Option.map_some] at hs
  cases hs
  exact ⟨h.batch, [], hadv.rep, hadv.below⟩

/-! ## Every run -/

/-- The background inputs work aside from the capture. -/
theorem step_aside {p : Platform} {fw fw' : Firmware} {i : Input} (hi : i.background = true)
    (hs : step p fw i = some fw') : Aside fw fw' := by
  cases i with
  | radioEvent event =>
      cases hs
      exact .silent (by simp only [dataPath, radioEvent_running])
  | syncWork => exact .ofOnlyFollow (syncWorkFn_onlyFollow hs)
  | bigWork uptime =>
      obtain ⟨_, hs⟩ := Option.ite_none_right_eq_some.mp hs
      cases hs
      exact .ofOnlyFollow (bigWorkFn_onlyFollow fw uptime)
  | isoPathWork => exact .ofOnlyFollow (isoPathWorkFn_onlyFollow hs)
  | statsRead =>
      obtain ⟨_, rfl⟩ := statsRead_eq hs
      exact .silent rfl
  | linkRead queued =>
      obtain ⟨_, rfl⟩ := linkRead_eq hs
      exact .silent rfl
  | tickSend => exact tickSend_aside hs
  | log => exact processLog_aside hs
  | hostFrame | received | hciPacket | batchLinger | bleLinger => cases hi

/-- Every step leaves both buffers holding a batch. -/
theorem step_batchesHold {p : Platform} {fw fw' : Firmware} {i : Input} (h : BatchesHold fw)
    (hs : step p fw i = some fw') : BatchesHold fw' := by
  cases i with
  | hostFrame type payload => exact snControlHandle_holds h hs
  | received pkt => exact receive_holds h hs
  | hciPacket h4 data now =>
      obtain ⟨hlen, hs⟩ := Option.ite_none_right_eq_some.mp hs
      exact fwdLoop_holds h hlen hs
  | batchLinger => exact batchLinger_holds h hs
  | bleLinger => exact bleLinger_holds h hs
  | radioEvent | syncWork | bigWork | isoPathWork | statsRead | linkRead | tickSend | log =>
      exact h.same (step_aside rfl hs).toSameBatches

/-- Every reachable state's buffers hold a batch with room. -/
theorem Reachable.batchesHold {p : Platform} {fw : Firmware} (h : Reachable p fw) :
    BatchesHold fw := by
  obtain ⟨w, inputs, hrun⟩ := h
  exact (machine p).run_invariant (fun _ _ _ => step_batchesHold) (batchesHold_boot w) hrun

end Nrf54Sniffer.Board
