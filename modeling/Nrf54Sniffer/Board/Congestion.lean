/-
Nrf54Sniffer.Board.Congestion — a link that refuses frames decides nothing but
the counters.

`SameCapture` relates two states of one firmware behind two links: the same
frames were handed to both, and only the counts of what the links did with them
differ. Every input keeps it, whatever either link answers. So back pressure
changes no packet, no batch, no command to the controller and no log line; it
only takes frames out of what the host gets.
-/
import Nrf54Sniffer.Ble.StartScript
import Nrf54Sniffer.Ble.Tallies
import Nrf54Sniffer.Board.Audit

namespace Nrf54Sniffer.Board

open Nrf54Sniffer.Lib
open Nrf54Sniffer.Wire
open Nrf54Sniffer.Radio154
open Nrf54Sniffer.Ble
open Nrf54Sniffer.Control
open Nrf54Sniffer.Batch (Batcher Packet snBatchAdd)

/-! ## The 802.15.4 batch -/

/-- The batcher with another count of packets refused. -/
def withDropped (n : Nat) (b : Batcher) : Batcher := { b with droppedPackets := n }

/-- The same batcher but for the count, and the same frames handed over. -/
def SameBatched (r r' : Batcher × Outbox) : Prop :=
  ∃ n o, SameHanded r.2 o ∧ r' = (withDropped n r.1, o)

section Batch

variable {o o' : Outbox} (h : SameHanded o o') (n : Nat) (b : Batcher)
include h

theorem flushLocked_same :
    Option.Rel SameBatched (Batch.flushLocked b o) (Batch.flushLocked (withDropped n b) o') := by
  have hcount : (withDropped n b).count = b.count := rfl
  unfold Batch.flushLocked
  rw [hcount]
  split
  · exact .some ⟨n, o', h, rfl⟩
  · split
    · unfold Batch.flushOne
      refine rel_bind_self fun entry => rel_bind_self fun psdu => rel_bind_self fun one => ?_
      refine rel_bind_self fun one => rel_bind_self fun payload => ?_
      exact .some ⟨_, _, h.send (.refl _), rfl⟩
    · unfold Batch.flushMany
      refine rel_bind_self fun buf => rel_bind_self fun payload => ?_
      exact .some ⟨_, _, h.send (.refl _), rfl⟩

theorem snBatchAdd_same (packet : Packet) :
    Option.Rel SameBatched (snBatchAdd b o packet) (snBatchAdd (withDropped n b) o' packet) := by
  have hclose : ∀ len, Option.Rel SameBatched (Batch.closeEarly b o packet len)
      (Batch.closeEarly (withDropped n b) o' packet len) := by
    intro len
    have hmust : Batch.mustClose (withDropped n b) packet len = Batch.mustClose b packet len := rfl
    unfold Batch.closeEarly
    rw [hmust]
    split
    · exact flushLocked_same h n b
    · exact .some ⟨n, o', h, rfl⟩
  have hput : ∀ (b : Batcher) (n len : Nat),
      Batch.putEntry (Batch.openFor (withDropped n b) packet) packet len
        = (Batch.putEntry (Batch.openFor b packet) packet len).map (withDropped n) := by
    intro b n len
    have hopen : Batch.openFor (withDropped n b) packet
        = withDropped n (Batch.openFor b packet) := by
      have hcount : (withDropped n b).count = b.count := rfl
      unfold Batch.openFor
      rw [hcount]
      split <;> rfl
    rw [hopen]
    simp only [Batch.putEntry, Option.bind_eq_bind, Option.map_bind, Function.comp_def]
    rfl
  unfold snBatchAdd
  refine rel_bind (hclose _) ?_
  rintro ⟨b₁, o₁⟩ _ ⟨n₁, o₁', h₁, rfl⟩
  dsimp only
  rw [hput]
  cases Batch.putEntry (Batch.openFor b₁ packet) packet
    (if packet.psdu.length > Batch.maxPsdu then Batch.maxPsdu else packet.psdu.length) with
  | none => exact .none
  | some b₂ =>
      have hcount : (withDropped n₁ b₂).count = b₂.count := rfl
      simp only [Option.bind_eq_bind, Option.map_some, Option.bind_some, hcount]
      split
      · refine rel_bind (flushLocked_same h₁ n₁ b₂) ?_
        rintro ⟨b₃, o₃⟩ _ ⟨n₃, o₃', h₃, rfl⟩
        exact .some ⟨n₃, o₃', h₃, rfl⟩
      · exact .some ⟨n₁, o₁', h₁, rfl⟩

end Batch

/-! ## The firmware -/

/-- What became of the frames, as the firmware counts it, and as `stats_tick`
has read it. -/
structure Tallies where
  batchDropped : Nat
  forwarded : Nat
  dropped : Nat
  read : List Nat

/-- `stats_tick` where it is, with other counts read. -/
def withRead (read : List Nat) : StatsTick → StatsTick
  | .stats _ => .stats read
  | .link _ => .link read
  | tick => tick

/-- The firmware behind another link. -/
def withLink (t : Tallies) (o : Outbox) (fw : Firmware) : Firmware :=
  { fw with
    batcher := withDropped t.batchDropped fw.batcher
    ble := withTallies t.forwarded t.dropped fw.ble
    outbox := o
    tick := withRead t.read fw.tick }

/-- Two states of one firmware, told apart by what their links did. -/
def SameCapture (fw fw' : Firmware) : Prop :=
  ∃ t o, SameHanded fw.outbox o ∧ fw' = withLink t o fw

/-- The same answer from two such states. -/
def SameCapturing {α : Type} (r r' : Firmware × α) : Prop := SameCapture r.1 r'.1 ∧ r.2 = r'.2

theorem SameCapture.logLine {fw fw' : Firmware} (h : SameCapture fw fw') (line : LogLine) :
    SameCapture (fw.logLine line) (fw'.logLine line) := by
  obtain ⟨t, o, hsame, rfl⟩ := h
  exact ⟨t, o, hsame, rfl⟩

/-! ## Commands to the controller -/

theorem hciCommand_sameCapture {fw fw' : Firmware} (h : SameCapture fw fw') (opcode : UInt16)
    (params : List UInt8) :
    SameCapturing (hciCommand fw opcode params) (hciCommand fw' opcode params) := by
  obtain ⟨t, o, hsame, rfl⟩ := h
  have hbus : (withLink t o fw).hci = fw.hci := rfl
  unfold hciCommand
  rw [hbus]
  cases fw.hci.next with
  | noBuffer => exact ⟨⟨t, o, hsame, rfl⟩, rfl⟩
  | sendError code => exact ⟨⟨t, o, hsame, rfl⟩, rfl⟩
  | timedOut => exact ⟨⟨t, o, hsame, rfl⟩, rfl⟩
  | answered status => exact ⟨⟨t, o, hsame, rfl⟩, rfl⟩

theorem sendCommand_sameCapture {fw fw' : Firmware} (h : SameCapture fw fw') (opcode : UInt16)
    (params : List UInt8) :
    SameCapturing (sendCommand fw opcode params) (sendCommand fw' opcode params) := by
  obtain ⟨hview, hanswer⟩ := hciCommand_sameCapture h opcode params
  unfold sendCommand
  simp only [← hanswer]
  refine ⟨?_, rfl⟩
  show SameCapture (if _ then _ else _) (if _ then _ else _)
  split
  · exact hview.logLine _
  · exact hview

theorem sendAll_sameCapture {fw fw' : Firmware} (h : SameCapture fw fw')
    (cs : List HciCommand) : SameCapturing (sendAll fw cs) (sendAll fw' cs) := by
  induction cs generalizing fw fw' with
  | nil => exact ⟨h, rfl⟩
  | cons c cs ih =>
      obtain ⟨hsent, herr⟩ := sendCommand_sameCapture h c.opcode c.params
      simp only [sendAll, andThen, ← herr]
      split
      · exact ih hsent
      · exact ⟨hsent, herr⟩

/-- START sends a script that goes by the filter and the keys. -/
theorem snRadioBleStart_sameCapture {fw fw' : Firmware} (h : SameCapture fw fw')
    (intervalMs windowMs : UInt16) (phys : UInt8) :
    SameCapturing (snRadioBleStart fw intervalMs windowMs phys)
      (snRadioBleStart fw' intervalMs windowMs phys) := by
  have hready : fw'.ble.ready = fw.ble.ready := by
    obtain ⟨_, _, _, rfl⟩ := h
    rfl
  have hscript : startScript fw'.ble intervalMs windowMs phys
      = startScript fw.ble intervalMs windowMs phys := by
    obtain ⟨_, _, _, rfl⟩ := h
    rfl
  cases hup : fw.ble.ready with
  | false =>
      unfold snRadioBleStart
      rw [hready, hup]
      exact ⟨h, rfl⟩
  | true =>
      rw [snRadioBleStart_eq hup, snRadioBleStart_eq (hready.trans hup), hscript]
      obtain ⟨hsent, herr⟩ :=
        sendAll_sameCapture h (startScript fw.ble intervalMs windowMs phys)
      simp only [andThen, ← herr]
      split
      · obtain ⟨t, o, hsame, heq⟩ := hsent
        rw [heq]
        exact ⟨⟨t, o, hsame, rfl⟩, rfl⟩
      · exact ⟨hsent, herr⟩

theorem startBle_sameCapture {fw fw' : Firmware} (h : SameCapture fw fw') :
    SameCapturing (startBle fw) (startBle fw') := by
  have hsettings : fw'.bleIntervalMs = fw.bleIntervalMs ∧ fw'.bleWindowMs = fw.bleWindowMs ∧
      fw'.blePhys = fw.blePhys := by
    obtain ⟨_, _, _, rfl⟩ := h
    exact ⟨rfl, rfl, rfl⟩
  unfold startBle
  rw [hsettings.1, hsettings.2.1, hsettings.2.2]
  obtain ⟨hview, herr⟩ :=
    snRadioBleStart_sameCapture h fw.bleIntervalMs fw.bleWindowMs fw.blePhys
  simp only [← herr]
  refine ⟨?_, rfl⟩
  show SameCapture (if _ then _ else _) (if _ then _ else _)
  split
  · exact hview.logLine _
  · exact hview

/-! ## The work items -/

theorem syncOne_sameCapture {fw fw' : Firmware} (h : SameCapture fw fw') (req : SyncReq) :
    SameCapture (syncOne fw req) (syncOne fw' req) := by
  have hmay : mayCreateSync fw'.ble = mayCreateSync fw.ble := by
    obtain ⟨_, _, _, rfl⟩ := h
    rfl
  obtain ⟨hview, herr⟩ := hciCommand_sameCapture h opLePerAdvCreateSync
    (perAdvCreateSyncParams req)
  unfold syncOne
  rw [hmay]
  split
  · simp only [← herr]
    split
    · obtain ⟨t, o, hsame, heq⟩ := hview
      rw [heq]
      exact ⟨t, o, hsame, rfl⟩
    · exact hview
  · exact h

theorem syncWorkFn_sameCapture {fw fw' : Firmware} (h : SameCapture fw fw') :
    Option.Rel SameCapture (syncWorkFn fw) (syncWorkFn fw') := by
  obtain ⟨t, o, hsame, rfl⟩ := h
  have hfollow : (withLink t o fw).ble.follow = fw.ble.follow := rfl
  unfold syncWorkFn
  rw [hfollow]
  split
  · split
    · exact .some ⟨t, o, hsame, rfl⟩
    · exact .none
  · split
    · exact .some ⟨t, o, hsame, rfl⟩
    · rename_i req syncQ _
      have htaken : SameCapture { fw with ble := leaveQueued fw.ble syncQ }
          { withLink t o fw with ble := leaveQueued (withLink t o fw).ble syncQ } :=
        ⟨t, o, hsame, rfl⟩
      exact .some (syncOne_sameCapture htaken req)
  · exact .none

theorem bigWorkFn_sameCapture {fw fw' : Firmware} (h : SameCapture fw fw') (uptime : Int) :
    SameCapture (bigWorkFn fw uptime) (bigWorkFn fw' uptime) := by
  have hfinish : ∀ (s : BleRadio) (f d : Nat) (joined : Bool),
      finishBig (withTallies f d s) joined uptime = withTallies f d (finishBig s joined uptime) := by
    intro s f d joined
    unfold finishBig
    split <;> rfl
  obtain ⟨t, o, hsame, rfl⟩ := h
  have hrunning : (withLink t o fw).ble.running = fw.ble.running := rfl
  have hbegun : SameCapture { fw with ble := beginBigWork fw.ble }
      { withLink t o fw with ble := beginBigWork (withLink t o fw).ble } := ⟨t, o, hsame, rfl⟩
  unfold bigWorkFn
  rw [hrunning]
  split
  · obtain ⟨⟨t', o', hsame', hsent⟩, herr⟩ :=
      hciCommand_sameCapture hbegun opLeBigCreateSync fw.ble.follow.bigParams
    refine ⟨t', o', hsame', ?_⟩
    have hjoined := hfinish (hciCommand { fw with ble := beginBigWork fw.ble } opLeBigCreateSync
      fw.ble.follow.bigParams).1.ble t'.forwarded t'.dropped
    show noteBigOutcome (hciCommand { withLink t o fw with
      ble := beginBigWork (withLink t o fw).ble } opLeBigCreateSync
        fw.ble.follow.bigParams) uptime = _
    unfold noteBigOutcome
    rw [hsent, ← herr]
    simp only [withLink, hjoined]
  · exact ⟨t, o, hsame, rfl⟩

theorem isoPathOne_sameCapture {fw fw' : Firmware} (h : SameCapture fw fw') (handle : UInt16) :
    SameCapture (isoPathOne fw handle) (isoPathOne fw' handle) := by
  have hrunning : fw'.ble.running = fw.ble.running := by
    obtain ⟨_, _, _, rfl⟩ := h
    rfl
  unfold isoPathOne
  rw [hrunning]
  split
  · exact (sendCommand_sameCapture h _ _).1
  · exact h

theorem isoPathWorkFn_sameCapture {fw fw' : Firmware} (h : SameCapture fw fw') :
    Option.Rel SameCapture (isoPathWorkFn fw) (isoPathWorkFn fw') := by
  obtain ⟨t, o, hsame, rfl⟩ := h
  have hfollow : (withLink t o fw).ble.follow = fw.ble.follow := rfl
  unfold isoPathWorkFn
  rw [hfollow]
  split
  · split
    · exact .some ⟨t, o, hsame, rfl⟩
    · exact .none
  · exact .none
  · rename_i i _
    split
    · rename_i handle _
      have hmoved : SameCapture { fw with ble := setLoop fw.ble (afterPath fw.ble i) }
          { withLink t o fw with
            ble := setLoop (withLink t o fw).ble (afterPath (withLink t o fw).ble i) } :=
        ⟨t, o, hsame, rfl⟩
      exact .some (isoPathOne_sameCapture hmoved handle)
    · exact .some ⟨t, o, hsame, rfl⟩

/-! ## The stops -/

theorem flushBatch_sameCapture {fw fw' : Firmware} (h : SameCapture fw fw') :
    Option.Rel SameCapture (flushBatch fw) (flushBatch fw') := by
  obtain ⟨t, o, hsame, rfl⟩ := h
  refine rel_map (flushLocked_same hsame t.batchDropped
    { fw.batcher with lingerArmed := false }) ?_
  rintro ⟨b, o₁⟩ _ ⟨n, o₁', hsame', rfl⟩
  exact ⟨{ t with batchDropped := n }, o₁', hsame', rfl⟩

theorem stop154_sameCapture {fw fw' : Firmware} (h : SameCapture fw fw') :
    Option.Rel SameCapturing (stop154 fw) (stop154 fw') := by
  obtain ⟨t, o, hsame, rfl⟩ := h
  have hstopped : SameCapture { fw with radio := (snRadio154Stop fw.radio).1 }
      { withLink t o fw with radio := (snRadio154Stop fw.radio).1 } := ⟨t, o, hsame, rfl⟩
  exact rel_map (flushBatch_sameCapture hstopped) fun _ _ hview => ⟨hview, rfl⟩

theorem stopBle_sameCapture {fw fw' : Firmware} (h : SameCapture fw fw') :
    Option.Rel SameCapturing (stopBle fw) (stopBle fw') := by
  obtain ⟨t, o, hsame, rfl⟩ := h
  have hready : (withLink t o fw).ble.ready = fw.ble.ready := rfl
  unfold stopBle snRadioBleStop
  rw [hready]
  split
  · refine rel_map (bleFlushLocked_same hsame t.forwarded t.dropped
      (setLinger (stopCapture fw.ble) false)) ?_
    rintro ⟨s, o₁⟩ _ ⟨f, d, o₁', hsame', rfl⟩
    have hflushed : SameCapture (flushedStop fw (s, o₁))
        (flushedStop (withLink t o fw) (withTallies f d s, o₁')) :=
      ⟨{ t with forwarded := f, dropped := d }, o₁', hsame', rfl⟩
    exact sendCommand_sameCapture hflushed opReset []
  · exact .some ⟨⟨t, o, hsame, rfl⟩, rfl⟩

theorem stopRadio_sameCapture {fw fw' : Firmware} (h : SameCapture fw fw') (radio : UInt8) :
    Option.Rel SameCapturing (stopRadio fw radio) (stopRadio fw' radio) := by
  unfold stopRadio
  split
  · exact stopBle_sameCapture h
  · exact stop154_sameCapture h

/-! ## The host's commands -/

theorem reply_sameCapture {fw fw' : Firmware} (h : SameCapture fw fw') (p : Platform)
    (command : UInt8) (status : Status) (value : UInt32) :
    SameCapture (reply p fw command status value) (reply p fw' command status value) := by
  obtain ⟨t, o, hsame, rfl⟩ := h
  exact ⟨t, _, hsame.send (.refl _), rfl⟩

theorem SameCapture.selectedRadio {fw fw' : Firmware} (h : SameCapture fw fw') :
    fw'.selectedRadio = fw.selectedRadio := by
  obtain ⟨_, _, _, rfl⟩ := h
  rfl

/-- A change to what has nothing to do with the link. -/
theorem SameCapture.change {fw fw' : Firmware} (h : SameCapture fw fw')
    {f : Firmware → Firmware} (hf : ∀ t o, f (withLink t o fw) = withLink t o (f fw))
    (hoff : (f fw).outbox = fw.outbox) : SameCapture (f fw) (f fw') := by
  obtain ⟨t, o, hsame, rfl⟩ := h
  exact ⟨t, o, by rw [hoff]; exact hsame, hf t o⟩

theorem onSetRadio_sameCapture {fw fw' : Firmware} (h : SameCapture fw fw') (p : Platform)
    (command : UInt8) (value : UInt32) :
    Option.Rel SameCapture (onSetRadio p fw command value) (onSetRadio p fw' command value) := by
  unfold onSetRadio
  rw [h.selectedRadio]
  split
  · exact .some (reply_sameCapture h p command .badValue value)
  · refine rel_map (R := SameCapture) ?_ fun fw₁ fw₁' h₁ => ?_
    · split
      · exact rel_map (stopRadio_sameCapture h fw.selectedRadio) fun _ _ hr => hr.1
      · exact .some h
    · exact reply_sameCapture (h₁.change (f := fun fw => { fw with selectedRadio := value.toUInt8 })
        (fun _ _ => rfl) rfl) p command .ok value

theorem tuneAndStart_sameCapture {fw fw' : Firmware} (h : SameCapture fw fw') (value : UInt32) :
    SameCapturing (tuneAndStart fw value) (tuneAndStart fw' value) := by
  obtain ⟨t, o, hsame, rfl⟩ := h
  have hradio : (withLink t o fw).radio = fw.radio := rfl
  unfold tuneAndStart
  rw [hradio]
  dsimp only
  repeat' split
  all_goals exact ⟨⟨t, o, hsame, rfl⟩, rfl⟩

theorem onSetChannel_sameCapture {fw fw' : Firmware} (h : SameCapture fw fw') (p : Platform)
    (command : UInt8) (value : UInt32) :
    Option.Rel SameCapture (onSetChannel p fw command value)
      (onSetChannel p fw' command value) := by
  unfold onSetChannel
  rw [h.selectedRadio]
  split
  · exact .some (reply_sameCapture h p command .badValue value)
  · refine rel_map (flushBatch_sameCapture h) fun fw fw' h => ?_
    obtain ⟨hview, hstatus⟩ := tuneAndStart_sameCapture h value
    rw [← hstatus]
    exact reply_sameCapture hview p command _ value

theorem onStart_sameCapture {fw fw' : Firmware} (h : SameCapture fw fw') (p : Platform)
    (command : UInt8) : SameCapture (onStart p fw command) (onStart p fw' command) := by
  unfold onStart
  rw [h.selectedRadio]
  split
  · obtain ⟨hview, herr⟩ := startBle_sameCapture h
    rw [← herr]
    exact reply_sameCapture hview p command _ 0
  · obtain ⟨t, o, hsame, rfl⟩ := h
    exact ⟨t, _, hsame.send (.refl _), rfl⟩

theorem setAntenna_sameCapture {fw fw' : Firmware} (h : SameCapture fw fw') (value : UInt32) :
    SameCapturing (setAntenna fw value) (setAntenna fw' value) := by
  obtain ⟨t, o, hsame, rfl⟩ := h
  have hswitch : (withLink t o fw).rfswCtl = fw.rfswCtl := rfl
  unfold setAntenna switchAntenna
  rw [hswitch]
  repeat' split
  all_goals exact ⟨⟨t, o, hsame, rfl⟩, rfl⟩

/-- GET_INFO starts both sets of counts again. -/
theorem onGetInfo_sameCapture {fw fw' : Firmware} (h : SameCapture fw fw') (p : Platform)
    (command : UInt8) :
    Option.Rel SameCapture (onGetInfo p fw command) (onGetInfo p fw' command) := by
  refine rel_map (R := SameCapture) ?_ fun fw fw' h => ?_
  · refine rel_bind (stopRadio_sameCapture h radio154) fun r r' hr => ?_
    exact rel_map (stopRadio_sameCapture hr.1 radioBle) fun _ _ hr => hr.1
  · obtain ⟨t, o, hsame, rfl⟩ := h
    refine reply_sameCapture (setAntenna_sameCapture ?_ 0).1 p command .ok snFirmwareVersion
    exact ⟨⟨0, 0, 0, t.read⟩, { o with counters := {} }, hsame, rfl⟩

theorem onEnergyDetect_sameCapture {fw fw' : Firmware} (h : SameCapture fw fw') (p : Platform)
    (command : UInt8) (value : UInt32) :
    SameCapture (onEnergyDetect p fw command value) (onEnergyDetect p fw' command value) := by
  obtain ⟨t, o, hsame, rfl⟩ := h
  have hselected : (withLink t o fw).selectedRadio = fw.selectedRadio := rfl
  have hradio : (withLink t o fw).radio = fw.radio := rfl
  unfold onEnergyDetect
  rw [hselected, hradio]
  dsimp only
  repeat' split
  all_goals exact ⟨t, _, hsame.send (.refl _), rfl⟩

theorem onCommand_sameCapture {fw fw' : Firmware} (h : SameCapture fw fw') (p : Platform)
    (command : UInt8) (value : UInt32) :
    Option.Rel SameCapture (onCommand p fw command value) (onCommand p fw' command value) := by
  unfold onCommand
  cases p.command command with
  | setRadio => exact onSetRadio_sameCapture h p command value
  | setBlePhys =>
      refine .some ?_
      unfold onSetBlePhys
      split
      · exact reply_sameCapture h p command .badValue value
      · exact reply_sameCapture (h.change (f := fun fw => { fw with blePhys := value.toUInt8 })
          (fun _ _ => rfl) rfl) p command .ok value
  | setBlePeriodic =>
      exact .some (reply_sameCapture (h.change
        (f := fun fw => { fw with ble := snRadioBleSetPeriodic fw.ble (value != 0) })
        (fun _ _ => rfl) rfl) p command .ok value)
  | setBleScan =>
      exact .some (reply_sameCapture (h.change
        (f := fun fw => { fw with
          bleIntervalMs := (value &&& 0xFFFF).toUInt16
          bleWindowMs := (value >>> 16).toUInt16 })
        (fun _ _ => rfl) rfl) p command .ok value)
  | setChannel => exact onSetChannel_sameCapture h p command value
  | start => exact .some (onStart_sameCapture h p command)
  | stop =>
      unfold onStop
      rw [h.selectedRadio]
      refine rel_map (stopRadio_sameCapture h fw.selectedRadio) ?_
      rintro ⟨fw, err⟩ ⟨fw', err'⟩ ⟨hview, herr⟩
      cases herr
      exact reply_sameCapture hview p command _ 0
  | getInfo => exact onGetInfo_sameCapture h p command
  | setAntenna =>
      obtain ⟨hview, herr⟩ := setAntenna_sameCapture h value
      simp only [onSetAntenna, ← herr]
      exact .some (reply_sameCapture hview p command _ value)
  | energyDetect => exact .some (onEnergyDetect_sameCapture h p command value)
  | unknown => exact .some (reply_sameCapture h p command .unknownCommand 0)

theorem snRadioBleSetKeys_sameCapture {fw fw' : Firmware} (h : SameCapture fw fw')
    (payload : List UInt8) :
    Option.Rel SameCapturing (snRadioBleSetKeys fw payload) (snRadioBleSetKeys fw' payload) := by
  unfold snRadioBleSetKeys
  split
  · exact .some ⟨h.logLine _, rfl⟩
  · cases badAddressType payload with
    | some type => exact .some ⟨h.logLine _, rfl⟩
    | none =>
        obtain ⟨t, o, hsame, rfl⟩ := h
        cases (ByteBuffer.zero (maxKeys * keyEntry)).write 0 payload with
        | none => exact .none
        | some keys => exact .some ⟨⟨t, o, hsame, rfl⟩, rfl⟩

theorem snControlHandle_sameCapture {fw fw' : Firmware} (h : SameCapture fw fw') (p : Platform)
    (type : FrameType) (payload : List UInt8) :
    Option.Rel SameCapture (snControlHandle p fw type payload)
      (snControlHandle p fw' type payload) := by
  unfold snControlHandle
  split
  · exact .some (h.change (f := fun fw => { fw with ble := snRadioBleSetFilter fw.ble payload })
      (fun _ _ => rfl) rfl)
  · exact rel_map (snRadioBleSetKeys_sameCapture h _) fun _ _ hr => hr.1
  · exact onCommand_sameCapture h p _ _
  · exact .some h

/-! ## Every input -/

/-- The same input; LINK may find another depth in the ring. -/
inductive SameInput : Input → Input → Prop where
  | same (i : Input) : SameInput i i
  | link (queued queued' : Nat) : SameInput (.linkRead queued) (.linkRead queued')

theorem fwdLoop_sameCapture {fw fw' : Firmware} (h : SameCapture fw fw') (h4 : UInt8)
    (data : List UInt8) (now : Readings) :
    Option.Rel SameCapture (fwdLoop fw h4 data now) (fwdLoop fw' h4 data now) := by
  obtain ⟨t, o, hsame, rfl⟩ := h
  have hslot : (withLink t o fw).slot = fw.slot := rfl
  have hrunning : (withLink t o fw).ble.running = fw.ble.running := rfl
  unfold fwdLoop
  rw [hslot, hrunning]
  refine rel_bind_self fun slot => ?_
  split
  · refine rel_map (forward_same hsame t.forwarded t.dropped fw.ble h4 data now) ?_
    rintro ⟨s, o₁⟩ _ ⟨f, d, o₁', hsame', rfl⟩
    exact ⟨{ t with forwarded := f, dropped := d }, o₁', hsame', rfl⟩
  · exact .some ⟨t, o, hsame, rfl⟩

theorem receive_sameCapture {fw fw' : Firmware} (h : SameCapture fw fw') (pkt : Option NetPkt) :
    Option.Rel SameCapture (receive fw pkt) (receive fw' pkt) := by
  obtain ⟨t, o, hsame, rfl⟩ := h
  have hradio : (withLink t o fw).radio = fw.radio := rfl
  unfold receive
  rw [hradio]
  unfold netRecvData
  cases pkt with
  | none => exact .some ⟨t, o, hsame, rfl⟩
  | some pkt =>
      dsimp only
      split
      · exact .some ⟨t, o, hsame, rfl⟩
      · split
        · exact .some ⟨t, o, hsame, rfl⟩
        · rw [Option.map_map, Option.map_map]
          refine rel_map (snBatchAdd_same hsame t.batchDropped fw.batcher _) ?_
          rintro ⟨b, o₁⟩ _ ⟨n, o₁', hsame', rfl⟩
          exact ⟨{ t with batchDropped := n }, o₁', hsame', rfl⟩

/-- Each reads its own counters. -/
theorem statsRead_sameCapture {fw fw' : Firmware} (h : SameCapture fw fw') :
    Option.Rel SameCapture (statsRead fw) (statsRead fw') := by
  obtain ⟨t, o, hsame, rfl⟩ := h
  have htick : (withLink t o fw).tick = withRead t.read fw.tick := rfl
  unfold statsRead
  rw [htick]
  cases fw.tick with
  | idle => exact .some ⟨{ t with read := statsFields (withLink t o fw) }, o, hsame, rfl⟩
  | stats fields => exact .none
  | between => exact .none
  | link fields => exact .none

theorem linkRead_sameCapture {fw fw' : Firmware} (h : SameCapture fw fw')
    (queued queued' : Nat) :
    Option.Rel SameCapture (linkRead fw queued) (linkRead fw' queued') := by
  obtain ⟨t, o, hsame, rfl⟩ := h
  have htick : (withLink t o fw).tick = withRead t.read fw.tick := rfl
  unfold linkRead
  rw [htick]
  cases fw.tick with
  | idle => exact .none
  | stats fields => exact .none
  | between =>
      exact .some ⟨{ t with read := linkFields (withLink t o fw) queued' }, o, hsame, rfl⟩
  | link fields => exact .none

/-- STATS and LINK agree in their types. -/
theorem tickSend_sameCapture {fw fw' : Firmware} (h : SameCapture fw fw') :
    Option.Rel SameCapture (tickSend fw) (tickSend fw') := by
  obtain ⟨t, o, hsame, rfl⟩ := h
  have htick : (withLink t o fw).tick = withRead t.read fw.tick := rfl
  unfold tickSend
  rw [htick]
  cases fw.tick with
  | idle => exact .none
  | stats fields => exact .some ⟨t, _, hsame.send (.counters rfl _ _), rfl⟩
  | between => exact .none
  | link fields => exact .some ⟨t, _, hsame.send (.counters rfl _ _), rfl⟩

theorem processLog_sameCapture {fw fw' : Firmware} (h : SameCapture fw fw') (p : Platform) :
    Option.Rel SameCapture (processLog p fw) (processLog p fw') := by
  obtain ⟨t, o, hsame, rfl⟩ := h
  have hlogs : (withLink t o fw).logs = fw.logs := rfl
  unfold processLog
  rw [hlogs]
  cases fw.logs with
  | nil => exact .none
  | cons line logs =>
      have hsent : ∀ (pieces : List (List UInt8)) (o o' : Outbox), SameHanded o o' →
          SameHanded (sendLog o pieces) (sendLog o' pieces) := by
        intro pieces
        induction pieces with
        | nil => exact fun _ _ h => h
        | cons piece pieces ih => exact fun o o' h => ih _ _ (h.send (.refl _))
      exact .some ⟨t, _, hsent (p.format line) _ _ hsame, rfl⟩

theorem step_sameCapture {fw fw' : Firmware} (h : SameCapture fw fw') (p : Platform)
    {i i' : Input} (hi : SameInput i i') :
    Option.Rel SameCapture (step p fw i) (step p fw' i') := by
  cases hi with
  | link queued queued' => exact linkRead_sameCapture h queued queued'
  | same =>
      have hfollow : fw'.ble.follow = fw.ble.follow := by
        obtain ⟨_, _, _, rfl⟩ := h
        rfl
      cases i with
      | hostFrame type payload => exact snControlHandle_sameCapture h p type payload
      | received pkt => exact receive_sameCapture h pkt
      | radioEvent event =>
          exact .some (h.change (f := fun fw => { fw with radio := radioEvent fw.radio event })
            (fun _ _ => rfl) rfl)
      | hciPacket h4 data now =>
          simp only [step]
          split
          · exact fwdLoop_sameCapture h h4 data now
          · exact .none
      | batchLinger =>
          obtain ⟨t, o, hsame, rfl⟩ := h
          refine rel_map (flushLocked_same hsame t.batchDropped fw.batcher) ?_
          rintro ⟨b, o₁⟩ _ ⟨n, o₁', hsame', rfl⟩
          exact ⟨{ t with batchDropped := n }, o₁', hsame', rfl⟩
      | bleLinger =>
          obtain ⟨t, o, hsame, rfl⟩ := h
          refine rel_map (bleFlushLocked_same hsame t.forwarded t.dropped fw.ble) ?_
          rintro ⟨s, o₁⟩ _ ⟨f, d, o₁', hsame', rfl⟩
          exact ⟨{ t with forwarded := f, dropped := d }, o₁', hsame', rfl⟩
      | syncWork => exact syncWorkFn_sameCapture h
      | bigWork uptime =>
          simp only [step, hfollow]
          split
          · exact .some (bigWorkFn_sameCapture h uptime)
          · exact .none
      | isoPathWork => exact isoPathWorkFn_sameCapture h
      | statsRead => exact statsRead_sameCapture h
      | linkRead queued => exact linkRead_sameCapture h queued queued
      | tickSend => exact tickSend_sameCapture h
      | log => exact processLog_sameCapture h p

/-! ## What the host gets -/

/-- The frames that carry no counters. -/
def dataFrames (frames : List Frame) : List Frame :=
  frames.filter fun f => !f.type.carriesCounters

theorem dataFrames_same {fs gs : List Frame} (h : List.Forall₂ SameFrame fs gs) :
    dataFrames fs = dataFrames gs := by
  induction h with
  | nil => rfl
  | @cons f g fs gs hfg _ ih =>
      unfold dataFrames at ih ⊢
      cases hf : f.type.carriesCounters with
      | true =>
          have hg : g.type.carriesCounters = true := hfg.1 ▸ hf
          simp [hf, hg, ih]
      | false =>
          obtain rfl := hfg.2 hf
          simp [hf, ih]

theorem acceptedOf_sublist (o : Outbox) : (acceptedOf o.log).Sublist o.frames := by
  have hkept : (acceptedOf o.log).Sublist ((callsOf o.log).map Prod.fst) :=
    List.filter_sublist.map _
  simpa [callsOf, Outbox.frames, Function.comp_def] using hkept

theorem acceptedOf_all {o : Outbox} (h : ∀ c ∈ o.log, c.2.ok = true) :
    acceptedOf o.log = o.frames := by
  have hall : (callsOf o.log).filter (fun c => c.2 == true) = callsOf o.log := by
    refine List.filter_eq_self.mpr fun c hc => ?_
    obtain ⟨e, he, rfl⟩ := List.mem_map.mp hc
    simp [h e he]
  rw [acceptedOf, keptFrames, hall]
  simp [callsOf, Outbox.frames, Function.comp_def]

/-- **Congestion only loses.** Two boards that differ in what their links
answer, given the same inputs: one runs as far as the other; the same frames
are handed over, one by one, STATS and LINK with their own counters; the
radios, the bus to the controller, the settings, the batches and the log lines
are the same. Where one link refused nothing, what the other accepted is what
the first did, with some of it missing. -/
theorem congestion_only_loses {p : Platform} {w : World} (answers : Nat → SendResult)
    {inputs inputs' : List Input} (h : List.Forall₂ SameInput inputs inputs') :
    Option.Rel (fun fw fw' => SameCapture fw fw' ∧
        ((∀ c ∈ fw.outbox.log, c.2.ok = true) →
          (dataFrames (acceptedOf fw'.outbox.log)).Sublist
            (dataFrames (acceptedOf fw.outbox.log))))
      ((machine p).run (boot w) inputs)
      ((machine p).run (boot { w with linkAnswers := answers }) inputs') := by
  have hboot : SameCapture (boot w) (boot { w with linkAnswers := answers }) :=
    ⟨⟨0, 0, 0, []⟩, { answers }, .nil, rfl⟩
  have hruns := (machine p).run_related (fun _ _ _ _ hs hi => step_sameCapture hs p hi) hboot h
  generalize (machine p).run (boot w) inputs = run at hruns ⊢
  generalize (machine p).run (boot { w with linkAnswers := answers }) inputs' = run' at hruns ⊢
  cases hruns with
  | none => exact .none
  | @some fw fw' hsame =>
      refine .some ⟨hsame, fun hall => ?_⟩
      obtain ⟨t, o, hframes, rfl⟩ := hsame
      rw [acceptedOf_all hall, dataFrames_same hframes]
      exact (acceptedOf_sublist o).filter _

/-- SET_CHANNEL, a packet, its linger, the counters and a STOP. -/
def shortCapture (queued : Nat) : List Input :=
  [.hostFrame .controlCmd [5, 11, 0, 0, 0], .received (some oneByte), .batchLinger,
   .statsRead, .tickSend, .linkRead queued, .tickSend, .hostFrame .controlCmd [3, 0, 0, 0, 0]]

/-- A link that refuses the second frame. -/
def refusesOne (n : Nat) : SendResult := if n = 1 then .noMem else .sent 16

/-- The packet is refused, and nothing else is different. -/
theorem congestion_only_loses_one :
    ∃ fw fw', (machine fullPlatform).run (boot calmWorld) (shortCapture 16) = some fw ∧
      (machine fullPlatform).run (boot { calmWorld with linkAnswers := refusesOne })
        (shortCapture 4000) = some fw' ∧
      SameCapture fw fw' ∧
      (dataFrames (acceptedOf fw'.outbox.log)).Sublist (dataFrames (acceptedOf fw.outbox.log)) ∧
      (dataFrames (acceptedOf fw.outbox.log)).length = 3 ∧
      (dataFrames (acceptedOf fw'.outbox.log)).length = 2 := by
  have hinputs : List.Forall₂ SameInput (shortCapture 16) (shortCapture 4000) :=
    .cons (.same _) (.cons (.same _) (.cons (.same _) (.cons (.same _) (.cons (.same _)
      (.cons (.link _ _) (.cons (.same _) (.cons (.same _) .nil)))))))
  have hfirst : ((machine fullPlatform).run (boot calmWorld) (shortCapture 16)).any (fun fw =>
      fw.outbox.log.all (fun c => c.2.ok) &&
        (dataFrames (acceptedOf fw.outbox.log)).length == 3) = true := by decide +kernel
  have hsecond : ((machine fullPlatform).run (boot { calmWorld with linkAnswers := refusesOne })
      (shortCapture 4000)).any (fun fw' =>
        (dataFrames (acceptedOf fw'.outbox.log)).length == 2) = true := by decide +kernel
  obtain ⟨fw, hfw, hfacts⟩ := (Option.any_eq_true _ _).mp hfirst
  obtain ⟨fw', hfw', hlost⟩ := (Option.any_eq_true _ _).mp hsecond
  have hruns := congestion_only_loses (p := fullPlatform) (w := calmWorld) refusesOne hinputs
  rw [hfw, hfw'] at hruns
  cases hruns with
  | some hsame =>
      simp only [Bool.and_eq_true, beq_iff_eq, List.all_eq_true] at hfacts hlost
      exact ⟨fw, fw', hfw, hfw', hsame.1, hsame.2 hfacts.1, hfacts.2, hlost⟩

end Nrf54Sniffer.Board
