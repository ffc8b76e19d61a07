/-
Nrf54Sniffer.Board.Handed — what each input hands to the link, and the two
things that touch the link's counters.

`Sends` is a row of calls of `sn_link_send` and nothing else: it says what
becomes of the log and of the counters. Every input is such a row of frames that
are neither STATS nor the reply to a GET_INFO, with two exceptions, each with a
case of its own in `Handing`: `stats_tick`, whose first frame says how the
counters stood, and GET_INFO, which clears the counters between what its stops
flush and its reply.
-/
import Nrf54Sniffer.Board.Replies
import Nrf54Sniffer.Link.HostView

namespace Nrf54Sniffer.Board

open Nrf54Sniffer.Lib
open Nrf54Sniffer.Wire
open Nrf54Sniffer.Radio154
open Nrf54Sniffer.Ble
open Nrf54Sniffer.Control

variable {p : Platform}

/-! ## A row of calls -/

/-- `sn_link_send` of one frame after another. -/
def handAll (o : Outbox) (frames : List Frame) : Outbox :=
  frames.foldl (fun o f => (o.send f).1) o

/-- Frames that meet `P` were handed over, and nothing else happened to the
link. -/
def Sends (P : Frame → Prop) (o o' : Outbox) : Prop :=
  ∃ frames, o' = handAll o frames ∧ ∀ f ∈ frames, P f

theorem Sends.refl {P : Frame → Prop} (o : Outbox) : Sends P o o := ⟨[], rfl, by simp⟩

theorem Sends.one {P : Frame → Prop} (o : Outbox) {f : Frame} (hf : P f) :
    Sends P o (o.send f).1 :=
  ⟨[f], rfl, by simpa using hf⟩

theorem Sends.trans {P : Frame → Prop} {o o' o'' : Outbox} (h : Sends P o o')
    (h' : Sends P o' o'') : Sends P o o'' := by
  obtain ⟨frames, rfl, hframes⟩ := h
  obtain ⟨frames', rfl, hframes'⟩ := h'
  refine ⟨frames ++ frames', by rw [handAll, handAll, handAll, List.foldl_append], fun f hf => ?_⟩
  rcases List.mem_append.mp hf with hf | hf
  · exact hframes f hf
  · exact hframes' f hf

theorem Sends.mono {P Q : Frame → Prop} {o o' : Outbox} (h : Sends P o o')
    (himp : ∀ f, P f → Q f) : Sends Q o o' := by
  obtain ⟨frames, heq, hframes⟩ := h
  exact ⟨frames, heq, fun f hf => himp f (hframes f hf)⟩

/-! ## The 802.15.4 batch -/

theorem flushLocked_hands {b b' : Batch.Batcher} {o o' : Outbox}
    (h : Batch.flushLocked b o = some (b', o')) : Sends IsData o o' := by
  unfold Batch.flushLocked at h
  split at h
  · cases h
    exact .refl o
  · split at h
    · simp only [Batch.flushOne, Option.bind_eq_bind, Option.bind_eq_some_iff] at h
      obtain ⟨_, _, _, _, _, _, _, _, _, _, heq⟩ := h
      cases heq
      exact .one o rfl
    · simp only [Batch.flushMany, Option.bind_eq_bind, Option.bind_eq_some_iff] at h
      obtain ⟨_, _, _, _, heq⟩ := h
      cases heq
      exact .one o rfl

theorem closeEarly_hands {b b' : Batch.Batcher} {o o' : Outbox} {packet : Batch.Packet} {len : Nat}
    (h : Batch.closeEarly b o packet len = some (b', o')) : Sends IsData o o' := by
  unfold Batch.closeEarly at h
  split at h
  · exact flushLocked_hands h
  · cases h
    exact .refl o

theorem snBatchAdd_hands {b b' : Batch.Batcher} {o o' : Outbox} {packet : Batch.Packet}
    (h : Batch.snBatchAdd b o packet = some (b', o')) : Sends IsData o o' := by
  simp only [Batch.snBatchAdd, Option.bind_eq_bind, Option.bind_eq_some_iff] at h
  obtain ⟨⟨b₁, o₁⟩, hclose, b₂, _, h⟩ := h
  have hclosed := closeEarly_hands hclose
  split at h
  · obtain ⟨⟨b₃, o₃⟩, hflush, heq⟩ := Option.bind_eq_some_iff.mp h
    cases heq
    exact hclosed.trans (flushLocked_hands hflush)
  · cases h
    exact hclosed

theorem flushBatch_hands {fw fw' : Firmware} (h : flushBatch fw = some fw') :
    Sends IsData fw.outbox fw'.outbox := by
  obtain ⟨⟨batcher, outbox⟩, hflush, heq⟩ := Option.map_eq_some_iff.mp h
  cases heq
  exact flushLocked_hands hflush

theorem receive_hands {fw fw' : Firmware} {pkt : Option NetPkt} (h : receive fw pkt = some fw') :
    Sends IsData fw.outbox fw'.outbox := by
  obtain ⟨⟨radio, batcher, outbox, err⟩, hrecv, heq⟩ := Option.map_eq_some_iff.mp h
  cases heq
  unfold netRecvData at hrecv
  split at hrecv
  · cases hrecv
    exact .refl _
  · split at hrecv
    · cases hrecv
      exact .refl _
    · split at hrecv
      · cases hrecv
        exact .refl _
      · obtain ⟨⟨b, o⟩, hadd, heq⟩ := Option.map_eq_some_iff.mp hrecv
        cases heq
        exact snBatchAdd_hands hadd

theorem batchLinger_hands {fw fw' : Firmware} (h : batchLinger fw = some fw') :
    Sends IsData fw.outbox fw'.outbox := by
  obtain ⟨⟨batcher, outbox⟩, hflush, heq⟩ := Option.map_eq_some_iff.mp h
  cases heq
  exact flushLocked_hands hflush

/-! ## The BLE batch -/

theorem bleFlushLocked_hands {s s' : BleRadio} {o o' : Outbox}
    (h : bleFlushLocked s o = some (s', o')) : Sends IsData o o' := by
  unfold bleFlushLocked at h
  split at h
  · cases h
    exact .refl o
  · split at h
    · simp only [bleFlushOne, sendAlone, Option.bind_eq_bind, Option.bind_eq_some_iff] at h
      obtain ⟨_, _, _, _, _, ⟨_, _, _, _, _, _, hsent⟩, heq⟩ := h
      cases hsent
      cases heq
      exact .one o rfl
    · simp only [bleFlushMany, Option.bind_eq_bind, Option.bind_eq_some_iff] at h
      obtain ⟨_, _, _, _, heq⟩ := h
      cases heq
      exact .one o rfl

theorem fwdLoop_hands {fw fw' : Firmware} {h4 : UInt8} {data : List UInt8} {now : Readings}
    (h : fwdLoop fw h4 data now = some fw') : Sends IsData fw.outbox fw'.outbox := by
  obtain ⟨slot, _, h⟩ := Option.bind_eq_some_iff.mp h
  split at h
  · obtain ⟨⟨ble, outbox⟩, hforward, heq⟩ := Option.map_eq_some_iff.mp h
    cases heq
    obtain ⟨s, _, happend⟩ := Option.bind_eq_some_iff.mp hforward
    simp only [appendLocked, Option.bind_eq_bind, Option.bind_eq_some_iff] at happend
    obtain ⟨⟨s₁, o₁⟩, hclose, batch, _, happend⟩ := happend
    have hclosed : Sends IsData fw.outbox o₁ := by
      unfold Ble.closeEarly at hclose
      split at hclose
      · exact bleFlushLocked_hands hclose
      · cases hclose
        exact .refl _
    split at happend
    · obtain ⟨⟨s₂, o₂⟩, hflush, heq⟩ := Option.bind_eq_some_iff.mp happend
      cases heq
      exact hclosed.trans (bleFlushLocked_hands hflush)
    · cases happend
      exact hclosed
  · cases h
    exact .refl _

theorem bleLinger_hands {fw fw' : Firmware} (h : bleLinger fw = some fw') :
    Sends IsData fw.outbox fw'.outbox := by
  obtain ⟨⟨ble, outbox⟩, hflush, heq⟩ := Option.map_eq_some_iff.mp h
  cases heq
  exact bleFlushLocked_hands hflush

/-! ## The commands -/

theorem onlyHci_outbox {fw fw' : Firmware} (h : OnlyHci fw fw') : fw'.outbox = fw.outbox := by
  obtain ⟨_, _, _, _, rfl⟩ := h
  rfl

theorem stopRadio_hands {fw fw' : Firmware} {radio : UInt8} {err : Int}
    (h : stopRadio fw radio = some (fw', err)) : Sends IsData fw.outbox fw'.outbox := by
  unfold stopRadio at h
  split at h
  · unfold stopBle at h
    split at h
    · obtain ⟨r, hflush, heq⟩ := Option.map_eq_some_iff.mp h
      have hsent := onlyHci_outbox (sendCommand_onlyHci (flushedStop fw r) opReset [])
      rw [heq] at hsent
      have hflushed : Sends IsData fw.outbox r.2 := bleFlushLocked_hands hflush
      rw [hsent]
      exact hflushed
    · cases h
      exact .refl _
  · obtain ⟨fw₁, hflush, heq⟩ := Option.map_eq_some_iff.mp h
    cases heq
    have hflushed := flushBatch_hands hflush
    exact hflushed

theorem stopBoth_hands {fw fw' : Firmware} (h : stopBoth fw = some fw') :
    Sends IsData fw.outbox fw'.outbox := by
  obtain ⟨⟨fw₁, err₁⟩, hfirst, hrest⟩ := Option.bind_eq_some_iff.mp h
  obtain ⟨⟨fw₂, err₂⟩, hsecond, heq⟩ := Option.map_eq_some_iff.mp hrest
  cases heq
  exact (stopRadio_hands hfirst).trans (stopRadio_hands hsecond)

theorem setAntenna_outbox (fw : Firmware) (value : UInt32) :
    (setAntenna fw value).1.outbox = fw.outbox := by
  unfold setAntenna switchAntenna
  repeat' split
  all_goals rfl

theorem startBle_outbox (fw : Firmware) : (startBle fw).1.outbox = fw.outbox := by
  obtain ⟨fw', honly, hcases⟩ :=
    snRadioBleStart_cases fw fw.bleIntervalMs fw.bleWindowMs fw.blePhys
  have hstart : (snRadioBleStart fw fw.bleIntervalMs fw.bleWindowMs fw.blePhys).1.outbox
      = fw.outbox := by
    rw [← onlyHci_outbox honly]
    rcases hcases with heq | heq
    · rw [heq]
    · rw [heq]
  unfold startBle
  dsimp only
  split
  · exact hstart
  · exact hstart

theorem tuneAndStart_silent (fw : Firmware) (value : UInt32) :
    (tuneAndStart fw value).1.outbox = fw.outbox := by
  unfold tuneAndStart
  dsimp only
  repeat' split
  all_goals rfl

/-- What its moves flush, and then the reply. -/
def Concludes (p : Platform) (command : UInt8) (o o' : Outbox) : Prop :=
  ∃ o₁ status value, Sends IsData o o₁ ∧
    o' = (o₁.send ⟨.controlReply, replyPayload p command status value⟩).1

theorem concludes_silent {fw fw₁ : Firmware} (h : fw₁.outbox = fw.outbox) (command : UInt8)
    (status : Status) (value : UInt32) :
    Concludes p command fw.outbox (reply p fw₁ command status value).outbox :=
  ⟨fw.outbox, status, value, .refl _, by rw [reply, h]⟩

theorem onSetRadio_concludes {fw fw' : Firmware} {command : UInt8} {value : UInt32}
    (h : onSetRadio p fw command value = some fw') :
    Concludes p command fw.outbox fw'.outbox := by
  unfold onSetRadio at h
  split at h
  · cases h
    exact concludes_silent rfl _ _ _
  · obtain ⟨fw₁, hstopped, heq⟩ := Option.map_eq_some_iff.mp h
    cases heq
    have hsends : Sends IsData fw.outbox fw₁.outbox := by
      split at hstopped
      · obtain ⟨⟨fw₂, err⟩, hstop, heq⟩ := Option.map_eq_some_iff.mp hstopped
        cases heq
        exact stopRadio_hands hstop
      · cases hstopped
        exact .refl _
    exact ⟨fw₁.outbox, _, _, hsends, rfl⟩

theorem onEnergyDetect_concludes (fw : Firmware) (command : UInt8) (value : UInt32) :
    Concludes p command fw.outbox (onEnergyDetect p fw command value).outbox := by
  unfold onEnergyDetect
  split
  · exact concludes_silent rfl _ _ _
  · dsimp only
    split
    · exact ⟨fw.outbox, _, _, .refl _, rfl⟩
    · split
      · exact ⟨fw.outbox, _, _, .refl _, rfl⟩
      · exact ⟨fw.outbox, _, _, .refl _, rfl⟩

/-- Every command but GET_INFO leaves the counters to the calls it makes. -/
theorem onCommand_concludes {fw fw' : Firmware} {command : UInt8} {value : UInt32}
    (hinfo : p.command command ≠ .getInfo) (h : onCommand p fw command value = some fw') :
    Concludes p command fw.outbox fw'.outbox := by
  unfold onCommand at h
  cases hcommand : p.command command with
  | getInfo => exact absurd hcommand hinfo
  | setRadio =>
      simp only [hcommand] at h
      exact onSetRadio_concludes h
  | setChannel =>
      simp only [hcommand, onSetChannel] at h
      split at h
      · cases h
        exact concludes_silent rfl _ _ _
      · obtain ⟨fw₁, hflush, heq⟩ := Option.map_eq_some_iff.mp h
        cases heq
        refine ⟨fw₁.outbox, (tuneAndStart fw₁ value).2, value, flushBatch_hands hflush, ?_⟩
        rw [reply, tuneAndStart_silent]
  | stop =>
      simp only [hcommand] at h
      obtain ⟨⟨fw₁, err⟩, hstop, heq⟩ := Option.map_eq_some_iff.mp h
      cases heq
      exact ⟨fw₁.outbox, _, _, stopRadio_hands hstop, rfl⟩
  | start =>
      simp only [hcommand, onStart, Option.some.injEq] at h
      subst h
      split
      · exact concludes_silent (startBle_outbox fw) _ _ _
      · exact ⟨fw.outbox, _, _, .refl _, rfl⟩
  | setBlePhys =>
      simp only [hcommand, onSetBlePhys, Option.some.injEq] at h
      subst h
      split
      · exact concludes_silent rfl _ _ _
      · exact ⟨fw.outbox, _, _, .refl _, rfl⟩
  | setBlePeriodic | setBleScan | unknown =>
      simp only [hcommand, Option.some.injEq] at h
      subst h
      exact ⟨fw.outbox, _, _, .refl _, rfl⟩
  | setAntenna =>
      simp only [hcommand, Option.some.injEq] at h
      subst h
      exact concludes_silent (setAntenna_outbox fw value) _ _ _
  | energyDetect =>
      simp only [hcommand, Option.some.injEq] at h
      subst h
      exact onEnergyDetect_concludes fw command value

/-! ## Every input -/

/-- The reply to a GET_INFO. -/
def isInfoReply (p : Platform) (f : Frame) : Bool :=
  f.type == .controlReply && f.payload.head?.any fun command => p.command command == .getInfo

theorem isInfoReply_reply (p : Platform) (command : UInt8) (status : Status) (value : UInt32) :
    isInfoReply p ⟨.controlReply, replyPayload p command status value⟩
      = (p.command command == .getInfo) := rfl

/-- The frames of every input but two. -/
structure Ordinary (p : Platform) (f : Frame) : Prop where
  sent : f.type ∈ Link.sentTypes
  stats : f.type ≠ .stats
  info : isInfoReply p f = false

theorem IsData.ordinary {f : Frame} (h : IsData f) : Ordinary p f := by
  obtain ⟨type, payload⟩ := f
  cases type with
  | packet => exact ⟨by simp [Link.sentTypes], by simp, rfl⟩
  | packetBatch => exact ⟨by simp [Link.sentTypes], by simp, rfl⟩
  | bleBatch => exact ⟨by simp [Link.sentTypes], by simp, rfl⟩
  | _ => cases h

/-- What an input does to the link. -/
inductive Handing (p : Platform) (fw fw' : Firmware) : Input → Prop
  | ordinary {i : Input} (h : Sends (Ordinary p) fw.outbox fw'.outbox) : Handing p fw fw' i
  | stats {fields : List Nat} (hread : fw.tick = .stats fields)
      (heq : fw'.outbox = (fw.outbox.send ⟨.stats, put32s fields⟩).1) : Handing p fw fw' .tickSend
  | info {o : Outbox} {i : Input} {f : Frame} (h : Sends IsData fw.outbox o)
      (hf : isInfoReply p f = true) (heq : fw'.outbox = ({ o with counters := {} }.send f).1) :
      Handing p fw fw' i

theorem onlyFollow_outbox {fw fw' : Firmware} (h : OnlyFollow fw fw') : fw'.outbox = fw.outbox := by
  obtain ⟨_, _, _, _, _, rfl⟩ := h
  rfl

/-- `stats_tick` hands over STATS with what it has read, or LINK. -/
theorem tickSend_handing {fw fw' : Firmware} (h : tickSend fw = some fw') :
    Handing p fw fw' .tickSend := by
  obtain ⟨f, hf, rfl⟩ := tickSend_eq h
  cases htick : fw.tick with
  | idle => simp [htick, StatsTick.frame] at hf
  | between => simp [htick, StatsTick.frame] at hf
  | stats fields =>
      rw [htick] at hf
      cases hf
      exact .stats htick rfl
  | link fields =>
      rw [htick] at hf
      cases hf
      exact .ordinary (.one fw.outbox ⟨by simp [Link.sentTypes], by simp, rfl⟩)

theorem onGetInfo_handing {fw fw' : Firmware} {command : UInt8} {i : Input}
    (hinfo : p.command command = .getInfo) (h : onGetInfo p fw command = some fw') :
    Handing p fw fw' i := by
  obtain ⟨fw₁, hboth, heq⟩ := Option.map_eq_some_iff.mp h
  cases heq
  refine .info (stopBoth_hands hboth)
    (f := ⟨.controlReply, replyPayload p command .ok snFirmwareVersion⟩) ?_ ?_
  · rw [isInfoReply_reply, hinfo]
    rfl
  · have hfresh : (freshSession fw₁).outbox = { fw₁.outbox with counters := {} } :=
      setAntenna_outbox _ 0
    rw [reply, hfresh]

/-- **What each input hands over.** -/
theorem step_handing {fw fw' : Firmware} {i : Input} (h : step p fw i = some fw') :
    Handing p fw fw' i := by
  have hsilent : fw'.outbox = fw.outbox → Handing p fw fw' i := fun heq =>
    .ordinary (heq ▸ .refl _)
  cases i with
  | hostFrame type payload =>
      cases snControlHandle_handled h with
      | filter payload => exact hsilent rfl
      | keys hset => exact hsilent (snRadioBleSetKeys_outbox hset)
      | ignored _ _ _ => exact hsilent rfl
      | @command command b0 b1 b2 b3 rest _ hcommand =>
          by_cases hinfo : p.command command = .getInfo
          · simp only [onCommand, hinfo] at hcommand
            exact onGetInfo_handing hinfo hcommand
          · obtain ⟨o, status, value, hsends, heq⟩ := onCommand_concludes hinfo hcommand
            refine .ordinary ((hsends.mono fun _ => IsData.ordinary).trans (heq ▸ .one o ?_))
            refine ⟨by simp [Link.sentTypes], by simp, ?_⟩
            rw [isInfoReply_reply, beq_eq_false_iff_ne]
            exact hinfo
  | received pkt => exact .ordinary ((receive_hands h).mono fun _ => IsData.ordinary)
  | batchLinger => exact .ordinary ((batchLinger_hands h).mono fun _ => IsData.ordinary)
  | bleLinger => exact .ordinary ((bleLinger_hands h).mono fun _ => IsData.ordinary)
  | hciPacket h4 data now =>
      obtain ⟨_, h⟩ := Option.ite_none_right_eq_some.mp h
      exact .ordinary ((fwdLoop_hands h).mono fun _ => IsData.ordinary)
  | radioEvent event =>
      cases h
      exact hsilent rfl
  | syncWork => exact hsilent (onlyFollow_outbox (syncWorkFn_onlyFollow h))
  | bigWork uptime =>
      obtain ⟨_, h⟩ := Option.ite_none_right_eq_some.mp h
      cases h
      exact hsilent (onlyFollow_outbox (bigWorkFn_onlyFollow fw uptime))
  | isoPathWork => exact hsilent (onlyFollow_outbox (isoPathWorkFn_onlyFollow h))
  | statsRead =>
      obtain ⟨_, rfl⟩ := statsRead_eq h
      exact hsilent rfl
  | linkRead queued =>
      obtain ⟨_, rfl⟩ := linkRead_eq h
      exact hsilent rfl
  | tickSend => exact tickSend_handing h
  | log =>
      simp only [step, processLog] at h
      split at h
      · cases h
      · rename_i line logs _
        cases h
        refine .ordinary ⟨(p.format line).map fun piece => ⟨.log, piece⟩, ?_, fun f hf => ?_⟩
        · rw [handAll, List.foldl_map]
          rfl
        · obtain ⟨piece, _, rfl⟩ := List.mem_map.mp hf
          exact ⟨by simp [Link.sentTypes], by simp, rfl⟩

/-! ## What `stats_tick` has read -/

theorem Move.tick_eq {E : Radio → UInt8 → UInt32 → Prop} {fw fw' : Firmware}
    (h : Move E fw fw') : fw'.tick = fw.tick := by
  cases h with
  | hci h =>
      obtain ⟨_, _, _, _, rfl⟩ := h
      rfl
  | flush h =>
      obtain ⟨_, _, rfl, _⟩ := flushBatch_effect h
      rfl
  | _ => rfl

theorem snControlHandle_tick {fw fw' : Firmware} {type : FrameType} {payload : List UInt8}
    (h : snControlHandle p fw type payload = some fw') : fw'.tick = fw.tick := by
  cases snControlHandle_handled h with
  | filter payload => rfl
  | keys hset =>
      obtain ⟨line, rfl⟩ | ⟨keys, keyCount, _, rfl⟩ := snRadioBleSetKeys_cases hset
      · rfl
      · rfl
  | command hcommand =>
      obtain ⟨fw₁, status, value, hmoves, rfl⟩ :=
        onCommand_replied (E := fun _ _ _ => True) (fun _ _ => trivial) hcommand
      have hkept : fw₁.tick = fw.tick :=
        row_keeps (R := fun fw fw' => fw'.tick = fw.tick) (fun _ => rfl)
          (fun hfirst hsecond => hsecond.trans hfirst) Move.tick_eq hmoves
      exact hkept
  | ignored _ _ _ => rfl

theorem onlyFollow_tick {fw fw' : Firmware} (h : OnlyFollow fw fw') : fw'.tick = fw.tick := by
  obtain ⟨_, _, _, _, _, rfl⟩ := h
  rfl

/-- What `stats_tick` has read it had read before, or it has read it just now. -/
theorem step_tick {fw fw' : Firmware} {i : Input} {fields : List Nat}
    (hs : step p fw i = some fw') (htick : fw'.tick = .stats fields) :
    fw.tick = .stats fields ∨ fields = statsFields fw := by
  have hsame : fw'.tick = fw.tick → fw.tick = .stats fields ∨ fields = statsFields fw :=
    fun heq => .inl (heq ▸ htick)
  cases i with
  | hostFrame type payload => exact hsame (snControlHandle_tick hs)
  | received pkt =>
      obtain ⟨_, _, _, rfl, _⟩ := receive_effect hs
      exact hsame rfl
  | radioEvent event =>
      cases hs
      exact hsame rfl
  | hciPacket h4 data now =>
      obtain ⟨_, hs⟩ := Option.ite_none_right_eq_some.mp hs
      obtain ⟨_, _, _, _, _, rfl, _⟩ := fwdLoop_effect hs
      exact hsame rfl
  | batchLinger =>
      obtain ⟨_, _, rfl, _⟩ := batchLinger_effect hs
      exact hsame rfl
  | bleLinger =>
      obtain ⟨_, _, _, rfl, _⟩ := bleLinger_effect hs
      exact hsame rfl
  | syncWork => exact hsame (onlyFollow_tick (syncWorkFn_onlyFollow hs))
  | bigWork uptime =>
      obtain ⟨_, hs⟩ := Option.ite_none_right_eq_some.mp hs
      cases hs
      exact hsame (onlyFollow_tick (bigWorkFn_onlyFollow fw uptime))
  | isoPathWork => exact hsame (onlyFollow_tick (isoPathWorkFn_onlyFollow hs))
  | statsRead =>
      obtain ⟨_, rfl⟩ := statsRead_eq hs
      cases htick
      exact .inr rfl
  | linkRead queued =>
      obtain ⟨_, rfl⟩ := linkRead_eq hs
      cases htick
  | tickSend =>
      obtain ⟨f, _, rfl⟩ := tickSend_eq hs
      have hsent : fw.tick.sent = .stats fields := htick
      unfold StatsTick.sent at hsent
      split at hsent
      · cases hsent
      · cases hsent
  | log =>
      have hs : processLog p fw = some fw' := hs
      unfold processLog at hs
      split at hs
      · cases hs
      · cases hs
        exact hsame rfl

end Nrf54Sniffer.Board
