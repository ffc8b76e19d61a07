/-
Nrf54Sniffer.Board.KeySecrecy — the resolving keys never reach the host.

A key is stored in the table and goes to the controller in the parameters of a
command. `SameView` relates two states that differ in these two places only.
Every input keeps it, with a BLE_KEYS frame on either side whose keys may
differ and whose lengths, types and addresses may not, so the two outboxes are
the same after every two such runs.
-/
import Nrf54Sniffer.Lib.TwoRuns
import Nrf54Sniffer.Ble.Secrets
import Nrf54Sniffer.Board.Machine

namespace Nrf54Sniffer.Board

open Nrf54Sniffer.Lib
open Nrf54Sniffer.Wire
open Nrf54Sniffer.Radio154
open Nrf54Sniffer.Ble
open Nrf54Sniffer.Control

/-! ## The same but for the keys -/

/-- The firmware with another table of keys and other commands behind it. -/
def withSecrets (keys : KeyTable) (log : List (HciCommand × HciAnswer)) (fw : Firmware) :
    Firmware :=
  { fw with ble := withKeys keys fw.ble, hci := { fw.hci with log } }

/-- Two states told apart by the table and by the commands sent, if at all. As
many commands have been sent, so the controller answers the next alike. -/
def SameView (fw fw' : Firmware) : Prop :=
  ∃ keys log, log.length = fw.hci.log.length ∧ fw' = withSecrets keys log fw

/-- The same answer from two such states. -/
def SameAnswer {α : Type} (r r' : Firmware × α) : Prop := SameView r.1 r'.1 ∧ r.2 = r'.2

theorem SameView.refl (fw : Firmware) : SameView fw fw := ⟨fw.ble.keys, fw.hci.log, rfl, rfl⟩

/-- What the host can see of a state: the frames handed to the link, and the
lines still to be logged. -/
def hostView (fw : Firmware) : List (Frame × SendResult) × List LogLine :=
  (fw.outbox.log, fw.logs)

theorem SameView.hostView {fw fw' : Firmware} (h : SameView fw fw') :
    hostView fw = hostView fw' := by
  obtain ⟨keys, log, _, rfl⟩ := h
  rfl

/-! ## Commands to the controller -/

/-- The parameters decide nothing. -/
theorem hciCommand_sameView {fw fw' : Firmware} (h : SameView fw fw') (opcode : UInt16)
    (params params' : List UInt8) :
    SameAnswer (hciCommand fw opcode params) (hciCommand fw' opcode params') := by
  obtain ⟨keys, log, hlen, rfl⟩ := h
  have hnext : (withSecrets keys log fw).hci.next = fw.hci.next :=
    congrArg fw.hci.answers hlen
  have hpush : fw.hci.push ⟨opcode, params⟩ =
      { fw.hci with log := fw.hci.log ++ [(⟨opcode, params⟩, fw.hci.next)] } := rfl
  have hpush' : (withSecrets keys log fw).hci.push ⟨opcode, params'⟩ =
      { fw.hci with log := log ++ [(⟨opcode, params'⟩, fw.hci.next)] } := by
    rw [HciBus.push, hnext]
    rfl
  unfold hciCommand
  simp only [hnext, hpush, hpush']
  generalize fw.hci.next = answer
  have hpushed : (log ++ [((⟨opcode, params'⟩ : HciCommand), answer)]).length =
      (fw.hci.log ++ [((⟨opcode, params⟩ : HciCommand), answer)]).length := by
    simp [hlen]
  cases answer with
  | noBuffer => exact ⟨⟨keys, _, hpushed, rfl⟩, rfl⟩
  | sendError code => exact ⟨⟨keys, _, hpushed, rfl⟩, rfl⟩
  | timedOut => exact ⟨⟨keys, _, hpushed, rfl⟩, rfl⟩
  | answered status => exact ⟨⟨keys, _, hpushed, rfl⟩, rfl⟩

theorem SameView.logLine {fw fw' : Firmware} (h : SameView fw fw') (line : LogLine) :
    SameView (fw.logLine line) (fw'.logLine line) := by
  obtain ⟨keys, log, hlen, rfl⟩ := h
  exact ⟨keys, log, hlen, rfl⟩

/-- A refusal is logged with the opcode and the status. -/
theorem sendCommand_sameView {fw fw' : Firmware} (h : SameView fw fw') (opcode : UInt16)
    (params params' : List UInt8) :
    SameAnswer (sendCommand fw opcode params) (sendCommand fw' opcode params') := by
  obtain ⟨hview, hanswer⟩ := hciCommand_sameView h opcode params params'
  unfold sendCommand
  simp only [← hanswer]
  refine ⟨?_, rfl⟩
  show SameView (if _ then _ else _) (if _ then _ else _)
  split
  · exact hview.logLine _
  · exact hview

theorem andThen_sameView {r r' : Firmware × Int} {next next' : Firmware → Firmware × Int}
    (h : SameAnswer r r')
    (hnext : ∀ fw fw', SameView fw fw' → SameAnswer (next fw) (next' fw')) :
    SameAnswer (andThen r next) (andThen r' next') := by
  unfold andThen
  rw [← h.2]
  split
  · exact hnext _ _ h.1
  · exact h

/-- Two loops of commands with the same opcodes. -/
theorem sendAll_sameView {fw fw' : Firmware} (h : SameView fw fw') {cs cs' : List HciCommand}
    (hcs : List.Forall₂ (fun c c' => c.opcode = c'.opcode) cs cs') :
    SameAnswer (sendAll fw cs) (sendAll fw' cs') := by
  induction hcs generalizing fw fw' with
  | nil => exact ⟨h, rfl⟩
  | @cons c c' cs cs' hopcode _ ih =>
      have hsent := sendCommand_sameView h c.opcode c.params c'.params
      rw [sendAll, sendAll, ← hopcode]
      exact andThen_sameView hsent fun fw fw' h => ih h

/-! ## START -/

theorem SameView.keyCount {fw fw' : Firmware} (h : SameView fw fw') :
    fw'.ble.keyCount = fw.ble.keyCount := by
  obtain ⟨_, _, _, rfl⟩ := h
  rfl

/-- As many keys, so the same opcodes in the same order. -/
theorem keyCommands_sameOpcodes (s s' : BleRadio) (indices : List Nat) :
    List.Forall₂ (fun c c' : HciCommand => c.opcode = c'.opcode)
      (indices.flatMap fun i => keyCommands (keyAt s i))
      (indices.flatMap fun i => keyCommands (keyAt s' i)) := by
  induction indices with
  | nil => exact .nil
  | cons i indices ih => exact .cons rfl (.cons rfl ih)

theorem applyKeys_sameView {fw fw' : Firmware} (h : SameView fw fw') :
    SameAnswer (applyKeys fw) (applyKeys fw') := by
  refine andThen_sameView (sendCommand_sameView h _ _ _) fun fw₁ fw₁' h₁ => ?_
  refine andThen_sameView (sendCommand_sameView h₁ _ _ _) fun fw₂ fw₂' h₂ => ?_
  rw [h₂.keyCount]
  refine andThen_sameView
    (sendAll_sameView h₂ (keyCommands_sameOpcodes _ _ _)) fun fw₃ fw₃' h₃ => ?_
  rw [h₃.keyCount]
  split
  · exact sendCommand_sameView h₃ _ _ _
  · exact ⟨h₃, rfl⟩

theorem applyFilter_sameView {fw fw' : Firmware} (h : SameView fw fw') :
    SameAnswer (applyFilter fw) (applyFilter fw') := by
  refine andThen_sameView (applyKeys_sameView h) fun fw₁ fw₁' h₁ => ?_
  refine andThen_sameView (sendCommand_sameView h₁ _ _ _) fun fw₂ fw₂' h₂ => ?_
  have hfilter : fw₂'.ble.filter = fw₂.ble.filter := by
    obtain ⟨_, _, _, rfl⟩ := h₂
    rfl
  rw [hfilter]
  exact sendAll_sameView h₂ (List.forall₂_same.mpr fun _ _ => rfl)

theorem scanSetup_sameView {fw fw' : Firmware} (h : SameView fw fw') :
    SameAnswer (scanSetup fw) (scanSetup fw') :=
  andThen_sameView (sendCommand_sameView h _ _ _) fun _ _ h =>
  andThen_sameView (sendCommand_sameView h _ _ _) fun _ _ h =>
  andThen_sameView (sendCommand_sameView h _ _ _) fun _ _ h =>
  andThen_sameView (sendCommand_sameView h _ _ _) fun _ _ h => applyFilter_sameView h

theorem snRadioBleStart_sameView {fw fw' : Firmware} (h : SameView fw fw')
    (intervalMs windowMs : UInt16) (phys : UInt8) :
    SameAnswer (snRadioBleStart fw intervalMs windowMs phys)
      (snRadioBleStart fw' intervalMs windowMs phys) := by
  have hready : fw'.ble.ready = fw.ble.ready := by
    obtain ⟨_, _, _, rfl⟩ := h
    rfl
  unfold snRadioBleStart
  rw [hready]
  split
  · exact ⟨h, rfl⟩
  · refine andThen_sameView (scanSetup_sameView h) fun fw₁ fw₁' h₁ => ?_
    refine andThen_sameView ?_ fun fw₂ fw₂' h₂ => ?_
    · split
      · exact andThen_sameView (sendCommand_sameView h₁ _ _ _) fun _ _ h =>
          sendCommand_sameView h _ _ _
      · exact andThen_sameView (sendCommand_sameView h₁ _ _ _) fun _ _ h =>
          sendCommand_sameView h _ _ _
    · obtain ⟨keys, log, hlen, rfl⟩ := h₂
      exact ⟨⟨keys, log, hlen, rfl⟩, rfl⟩

theorem startBle_sameView {fw fw' : Firmware} (h : SameView fw fw') :
    SameAnswer (startBle fw) (startBle fw') := by
  have hsettings : fw'.bleIntervalMs = fw.bleIntervalMs ∧ fw'.bleWindowMs = fw.bleWindowMs ∧
      fw'.blePhys = fw.blePhys := by
    obtain ⟨_, _, _, rfl⟩ := h
    exact ⟨rfl, rfl, rfl⟩
  unfold startBle
  rw [hsettings.1, hsettings.2.1, hsettings.2.2]
  obtain ⟨hview, herr⟩ := snRadioBleStart_sameView h fw.bleIntervalMs fw.bleWindowMs fw.blePhys
  simp only [← herr]
  refine ⟨?_, rfl⟩
  show SameView (if _ then _ else _) (if _ then _ else _)
  split
  · exact hview.logLine _
  · exact hview

/-! ## The work items -/

theorem takeSyncSlot_sameView {fw fw' : Firmware} (h : SameView fw fw') :
    SameView (takeSyncSlot fw) (takeSyncSlot fw') := by
  obtain ⟨keys, log, hlen, rfl⟩ := h
  exact ⟨keys, log, hlen, rfl⟩

theorem syncOne_sameView {fw fw' : Firmware} (h : SameView fw fw') (req : SyncReq) :
    SameView (syncOne fw req) (syncOne fw' req) := by
  have hmay : mayCreateSync fw'.ble = mayCreateSync fw.ble := by
    obtain ⟨_, _, _, rfl⟩ := h
    rfl
  obtain ⟨hview, herr⟩ := hciCommand_sameView h opLePerAdvCreateSync
    (perAdvCreateSyncParams req) (perAdvCreateSyncParams req)
  unfold syncOne
  rw [hmay]
  split
  · simp only [← herr]
    split
    · exact takeSyncSlot_sameView hview
    · exact hview
  · exact h

theorem syncWorkFn_sameView {fw fw' : Firmware} (h : SameView fw fw') :
    Option.Rel SameView (syncWorkFn fw) (syncWorkFn fw') := by
  obtain ⟨keys, log, hlen, rfl⟩ := h
  have hfollow : (withSecrets keys log fw).ble.follow = fw.ble.follow := rfl
  unfold syncWorkFn
  rw [hfollow]
  split
  · split
    · exact .some ⟨keys, log, hlen, rfl⟩
    · exact .none
  · split
    · exact .some ⟨keys, log, hlen, rfl⟩
    · rename_i req syncQ _
      have htaken : SameView { fw with ble := leaveQueued fw.ble syncQ }
          { withSecrets keys log fw with
            ble := leaveQueued (withSecrets keys log fw).ble syncQ } :=
        ⟨keys, log, hlen, rfl⟩
      exact .some (syncOne_sameView htaken req)
  · exact .none

theorem noteBigOutcome_sameView {r r' : Firmware × Int × Option UInt8} (h : SameAnswer r r')
    (uptime : Int) : SameView (noteBigOutcome r uptime) (noteBigOutcome r' uptime) := by
  obtain ⟨fw, err, status⟩ := r
  obtain ⟨fw', err', status'⟩ := r'
  obtain ⟨⟨keys, log, hlen, hsent⟩, herr⟩ := h
  cases hsent
  cases herr
  have hfinish : finishBig (withKeys keys fw.ble) (err = 0) uptime =
      withKeys keys (finishBig fw.ble (err = 0) uptime) := by
    unfold finishBig
    split <;> rfl
  refine ⟨keys, log, hlen, ?_⟩
  simp only [noteBigOutcome, withSecrets, hfinish]

theorem bigWorkFn_sameView {fw fw' : Firmware} (h : SameView fw fw') (uptime : Int) :
    SameView (bigWorkFn fw uptime) (bigWorkFn fw' uptime) := by
  obtain ⟨keys, log, hlen, rfl⟩ := h
  have hrunning : (withSecrets keys log fw).ble.running = fw.ble.running := rfl
  have hbegun : SameView { fw with ble := beginBigWork fw.ble }
      { withSecrets keys log fw with ble := beginBigWork (withSecrets keys log fw).ble } :=
    ⟨keys, log, hlen, rfl⟩
  unfold bigWorkFn
  rw [hrunning]
  split
  · exact noteBigOutcome_sameView (hciCommand_sameView hbegun _ _ _) uptime
  · exact ⟨keys, log, hlen, rfl⟩

theorem isoPathOne_sameView {fw fw' : Firmware} (h : SameView fw fw') (handle : UInt16) :
    SameView (isoPathOne fw handle) (isoPathOne fw' handle) := by
  have hrunning : fw'.ble.running = fw.ble.running := by
    obtain ⟨_, _, _, rfl⟩ := h
    rfl
  unfold isoPathOne
  rw [hrunning]
  split
  · exact (sendCommand_sameView h _ _ _).1
  · exact h

theorem isoPathWorkFn_sameView {fw fw' : Firmware} (h : SameView fw fw') :
    Option.Rel SameView (isoPathWorkFn fw) (isoPathWorkFn fw') := by
  obtain ⟨keys, log, hlen, rfl⟩ := h
  have hfollow : (withSecrets keys log fw).ble.follow = fw.ble.follow := rfl
  unfold isoPathWorkFn
  rw [hfollow]
  split
  · split
    · exact .some ⟨keys, log, hlen, rfl⟩
    · exact .none
  · exact .none
  · rename_i i _
    split
    · rename_i handle _
      have hmoved : SameView { fw with ble := setLoop fw.ble (afterPath fw.ble i) }
          { withSecrets keys log fw with
            ble := setLoop (withSecrets keys log fw).ble
              (afterPath (withSecrets keys log fw).ble i) } :=
        ⟨keys, log, hlen, rfl⟩
      exact .some (isoPathOne_sameView hmoved handle)
    · exact .some ⟨keys, log, hlen, rfl⟩

/-! ## The stops -/

/-- The flush of the 802.15.4 batch. -/
theorem flushBatch_sameView {fw fw' : Firmware} (h : SameView fw fw') :
    Option.Rel SameView (flushBatch fw) (flushBatch fw') := by
  obtain ⟨keys, log, hlen, rfl⟩ := h
  have hbatch : Batch.snBatchFlush (withSecrets keys log fw).batcher
      (withSecrets keys log fw).outbox = Batch.snBatchFlush fw.batcher fw.outbox := rfl
  unfold flushBatch
  rw [hbatch]
  cases Batch.snBatchFlush fw.batcher fw.outbox with
  | none => exact .none
  | some r => exact .some ⟨keys, log, hlen, rfl⟩

/-- The 802.15.4 half has nothing to do with the keys. -/
theorem stop154_sameView {fw fw' : Firmware} (h : SameView fw fw') :
    Option.Rel SameAnswer (stop154 fw) (stop154 fw') := by
  obtain ⟨keys, log, hlen, rfl⟩ := h
  have hstopped : SameView { fw with radio := (snRadio154Stop fw.radio).1 }
      { withSecrets keys log fw with radio := (snRadio154Stop fw.radio).1 } :=
    ⟨keys, log, hlen, rfl⟩
  exact rel_map (flushBatch_sameView hstopped) fun _ _ hview => ⟨hview, rfl⟩

/-- The BLE half wipes the table. -/
theorem stopBle_sameView {fw fw' : Firmware} (h : SameView fw fw') :
    Option.Rel SameAnswer (stopBle fw) (stopBle fw') := by
  obtain ⟨keys, log, hlen, rfl⟩ := h
  have hready : (withSecrets keys log fw).ble.ready = fw.ble.ready := rfl
  have hflush : stopFlush (stopCapture (withSecrets keys log fw).ble)
      (withSecrets keys log fw).outbox = stopFlush (stopCapture fw.ble) fw.outbox := rfl
  unfold stopBle snRadioBleStop
  rw [hready, hflush]
  split
  · cases stopFlush (stopCapture fw.ble) fw.outbox with
    | none => exact .none
    | some r =>
        have hflushed : SameView (flushedStop fw r) (flushedStop (withSecrets keys log fw) r) :=
          ⟨r.1.keys, log, hlen, rfl⟩
        exact .some (sendCommand_sameView hflushed opReset [] [])
  · exact .some ⟨⟨keys, log, hlen, rfl⟩, rfl⟩

theorem stopRadio_sameView {fw fw' : Firmware} (h : SameView fw fw') (radio : UInt8) :
    Option.Rel SameAnswer (stopRadio fw radio) (stopRadio fw' radio) := by
  unfold stopRadio
  split
  · exact stopBle_sameView h
  · exact stop154_sameView h

/-! ## The host's commands -/

theorem reply_sameView {fw fw' : Firmware} (h : SameView fw fw') (p : Platform)
    (command : UInt8) (status : Status) (value : UInt32) :
    SameView (reply p fw command status value) (reply p fw' command status value) := by
  obtain ⟨keys, log, hlen, rfl⟩ := h
  exact ⟨keys, log, hlen, rfl⟩

theorem onSetRadio_sameView {fw fw' : Firmware} (h : SameView fw fw') (p : Platform)
    (command : UInt8) (value : UInt32) :
    Option.Rel SameView (onSetRadio p fw command value) (onSetRadio p fw' command value) := by
  have hselected : fw'.selectedRadio = fw.selectedRadio := by
    obtain ⟨_, _, _, rfl⟩ := h
    rfl
  have hselect : ∀ fw fw', SameView fw fw' →
      SameView (reply p { fw with selectedRadio := value.toUInt8 } command .ok value)
        (reply p { fw' with selectedRadio := value.toUInt8 } command .ok value) := by
    rintro fw _ ⟨keys, log, hlen, rfl⟩
    exact ⟨keys, log, hlen, rfl⟩
  unfold onSetRadio
  rw [hselected]
  split
  · exact .some (reply_sameView h p command .badValue value)
  · refine rel_map ?_ hselect
    split
    · exact rel_map (stopRadio_sameView h fw.selectedRadio) fun _ _ hr => hr.1
    · exact .some h

theorem tuneAndStart_sameView {fw fw' : Firmware} (h : SameView fw fw') (value : UInt32) :
    SameAnswer (tuneAndStart fw value) (tuneAndStart fw' value) := by
  obtain ⟨keys, log, hlen, rfl⟩ := h
  have hradio : (withSecrets keys log fw).radio = fw.radio := rfl
  simp only [tuneAndStart, hradio]
  split
  · exact ⟨⟨keys, log, hlen, rfl⟩, rfl⟩
  · split
    · exact ⟨⟨keys, log, hlen, rfl⟩, rfl⟩
    · exact ⟨⟨keys, log, hlen, rfl⟩, rfl⟩

theorem onSetChannel_sameView {fw fw' : Firmware} (h : SameView fw fw') (p : Platform)
    (command : UInt8) (value : UInt32) :
    Option.Rel SameView (onSetChannel p fw command value) (onSetChannel p fw' command value) := by
  have hselected : fw'.selectedRadio = fw.selectedRadio := by
    obtain ⟨_, _, _, rfl⟩ := h
    rfl
  unfold onSetChannel
  rw [hselected]
  split
  · exact .some (reply_sameView h p command .badValue value)
  · refine rel_map (flushBatch_sameView h) fun fw fw' h => ?_
    obtain ⟨hview, hstatus⟩ := tuneAndStart_sameView h value
    rw [← hstatus]
    exact reply_sameView hview p command _ value

theorem onStart_sameView {fw fw' : Firmware} (h : SameView fw fw') (p : Platform)
    (command : UInt8) : SameView (onStart p fw command) (onStart p fw' command) := by
  have hselected : fw'.selectedRadio = fw.selectedRadio := by
    obtain ⟨_, _, _, rfl⟩ := h
    rfl
  unfold onStart
  rw [hselected]
  split
  · obtain ⟨hview, herr⟩ := startBle_sameView h
    rw [← herr]
    exact reply_sameView hview p command _ 0
  · obtain ⟨keys, log, hlen, rfl⟩ := h
    exact ⟨keys, log, hlen, rfl⟩

theorem onStop_sameView {fw fw' : Firmware} (h : SameView fw fw') (p : Platform)
    (command : UInt8) : Option.Rel SameView (onStop p fw command) (onStop p fw' command) := by
  have hselected : fw'.selectedRadio = fw.selectedRadio := by
    obtain ⟨_, _, _, rfl⟩ := h
    rfl
  unfold onStop
  rw [hselected]
  refine rel_map (stopRadio_sameView h fw.selectedRadio) ?_
  rintro ⟨fw, err⟩ ⟨fw', err'⟩ ⟨hview, herr⟩
  cases herr
  exact reply_sameView hview p command _ 0

theorem setAntenna_sameView {fw fw' : Firmware} (h : SameView fw fw') (value : UInt32) :
    SameAnswer (setAntenna fw value) (setAntenna fw' value) := by
  obtain ⟨keys, log, hlen, rfl⟩ := h
  have hswitch : (withSecrets keys log fw).rfswCtl = fw.rfswCtl := rfl
  unfold setAntenna switchAntenna
  rw [hswitch]
  repeat' split
  all_goals exact ⟨⟨keys, log, hlen, rfl⟩, rfl⟩

theorem onGetInfo_sameView {fw fw' : Firmware} (h : SameView fw fw') (p : Platform)
    (command : UInt8) :
    Option.Rel SameView (onGetInfo p fw command) (onGetInfo p fw' command) := by
  refine rel_map (R := SameView) ?_ fun fw fw' h => ?_
  · refine rel_bind (stopRadio_sameView h radio154) fun r r' hr => ?_
    exact rel_map (stopRadio_sameView hr.1 radioBle) fun _ _ hr => hr.1
  · obtain ⟨keys, log, hlen, rfl⟩ := h
    refine reply_sameView (setAntenna_sameView ?_ 0).1 p command .ok snFirmwareVersion
    exact ⟨keys, log, hlen, rfl⟩

theorem onEnergyDetect_sameView {fw fw' : Firmware} (h : SameView fw fw') (p : Platform)
    (command : UInt8) (value : UInt32) :
    SameView (onEnergyDetect p fw command value) (onEnergyDetect p fw' command value) := by
  obtain ⟨keys, log, hlen, rfl⟩ := h
  have hselected : (withSecrets keys log fw).selectedRadio = fw.selectedRadio := rfl
  have hradio : (withSecrets keys log fw).radio = fw.radio := rfl
  unfold onEnergyDetect
  simp only [hselected, hradio]
  repeat' split
  all_goals exact ⟨keys, log, hlen, rfl⟩

theorem onCommand_sameView {fw fw' : Firmware} (h : SameView fw fw') (p : Platform)
    (command : UInt8) (value : UInt32) :
    Option.Rel SameView (onCommand p fw command value) (onCommand p fw' command value) := by
  unfold onCommand
  cases p.command command with
  | setRadio => exact onSetRadio_sameView h p command value
  | setBlePhys =>
      obtain ⟨keys, log, hlen, rfl⟩ := h
      refine .some ?_
      unfold onSetBlePhys
      split
      · exact ⟨keys, log, hlen, rfl⟩
      · exact ⟨keys, log, hlen, rfl⟩
  | setBlePeriodic =>
      obtain ⟨keys, log, hlen, rfl⟩ := h
      exact .some ⟨keys, log, hlen, rfl⟩
  | setBleScan =>
      obtain ⟨keys, log, hlen, rfl⟩ := h
      exact .some ⟨keys, log, hlen, rfl⟩
  | setChannel => exact onSetChannel_sameView h p command value
  | start => exact .some (onStart_sameView h p command)
  | stop => exact onStop_sameView h p command
  | getInfo => exact onGetInfo_sameView h p command
  | setAntenna =>
      obtain ⟨hview, herr⟩ := setAntenna_sameView h value
      simp only [onSetAntenna, ← herr]
      exact .some (reply_sameView hview p command _ value)
  | energyDetect => exact .some (onEnergyDetect_sameView h p command value)
  | unknown => exact .some (reply_sameView h p command .unknownCommand 0)

/-! ## Storing the keys -/

/-- Bytes of an entry before its key: the type and the address. -/
def identityBytes : Nat := 7

/-- Two payloads of BLE_KEYS with the same length, types and addresses. -/
def SameIdentities (payload payload' : List UInt8) : Prop :=
  payload.length = payload'.length ∧
    ∀ i, i % keyEntry < identityBytes → payload[i]? = payload'[i]?

/-- The types are checked, so the same frame is refused. -/
theorem SameIdentities.badAddressType {payload payload' : List UInt8}
    (h : SameIdentities payload payload') :
    badAddressType payload = badAddressType payload' := by
  obtain ⟨hlen, hbytes⟩ := h
  have htype : ∀ i, payload[keyEntry * i]? = payload'[keyEntry * i]? := by
    intro i
    refine hbytes _ ?_
    rw [Nat.mul_mod_right]
    decide
  simp only [Ble.badAddressType, hlen, htype]

/-- Whether a write fits depends on the lengths. -/
theorem write_sameLength {cap : Nat} (b : ByteBuffer cap) (off : Nat) {src src' : List UInt8}
    (h : src.length = src'.length) :
    Option.Rel (fun _ _ => True) (b.write off src) (b.write off src') := by
  unfold ByteBuffer.write
  by_cases hfits : off + src.length ≤ cap
  · rw [dif_pos hfits, dif_pos (h ▸ hfits)]
    exact .some trivial
  · rw [dif_neg hfits, dif_neg (h ▸ hfits)]
    exact .none

theorem snRadioBleSetKeys_sameView {fw fw' : Firmware} (h : SameView fw fw')
    {payload payload' : List UInt8} (hp : SameIdentities payload payload') :
    Option.Rel SameAnswer (snRadioBleSetKeys fw payload) (snRadioBleSetKeys fw' payload') := by
  unfold snRadioBleSetKeys
  rw [← hp.badAddressType, ← hp.1]
  split
  · exact .some ⟨h.logLine _, rfl⟩
  · cases badAddressType payload with
    | some type => exact .some ⟨h.logLine _, rfl⟩
    | none =>
        obtain ⟨keys, log, hlen, rfl⟩ := h
        exact rel_map (write_sameLength _ 0 hp.1) fun _ stored _ =>
          ⟨⟨stored, log, hlen, rfl⟩, rfl⟩

/-! ## Every input -/

/-- The same input, or BLE_KEYS frames that differ in the keys only. -/
inductive SameButKeys : Input → Input → Prop where
  | same (i : Input) : SameButKeys i i
  | keys {payload payload' : List UInt8} (h : SameIdentities payload payload') :
      SameButKeys (.hostFrame .bleKeys payload) (.hostFrame .bleKeys payload')

theorem SameIdentities.refl (payload : List UInt8) : SameIdentities payload payload :=
  ⟨rfl, fun _ _ => rfl⟩

/-- A frame of the host. -/
theorem snControlHandle_sameView {fw fw' : Firmware} (h : SameView fw fw') (p : Platform)
    (type : FrameType) (payload : List UInt8) :
    Option.Rel SameView (snControlHandle p fw type payload)
      (snControlHandle p fw' type payload) := by
  unfold snControlHandle
  split
  · obtain ⟨keys, log, hlen, rfl⟩ := h
    exact .some ⟨keys, log, hlen, rfl⟩
  · exact rel_map (snRadioBleSetKeys_sameView h (.refl _)) fun _ _ hr => hr.1
  · exact onCommand_sameView h p _ _
  · exact .some h

theorem fwdLoop_sameView {fw fw' : Firmware} (h : SameView fw fw') (h4 : UInt8)
    (data : List UInt8) (now : Readings) :
    Option.Rel SameView (fwdLoop fw h4 data now) (fwdLoop fw' h4 data now) := by
  obtain ⟨keys, log, hlen, rfl⟩ := h
  have hslot : (withSecrets keys log fw).slot = fw.slot := rfl
  have hrunning : (withSecrets keys log fw).ble.running = fw.ble.running := rfl
  unfold fwdLoop
  rw [hslot, hrunning]
  cases noteAnswer fw.slot h4 data with
  | none => exact .none
  | some slot =>
      simp only [Option.bind_some]
      split
      · have hforward : forward (withSecrets keys log fw).ble (withSecrets keys log fw).outbox h4
            data now = (forward fw.ble fw.outbox h4 data now).map (withKeysFst keys) :=
          forward_withKeys keys fw.ble fw.outbox h4 data now
        simp only [forwardPacket, hforward]
        cases forward fw.ble fw.outbox h4 data now with
        | none => exact .none
        | some r => exact .some ⟨keys, log, hlen, rfl⟩
      · exact .some ⟨keys, log, hlen, rfl⟩

/-- One input, the same on both sides. -/
theorem step_sameView {fw fw' : Firmware} (h : SameView fw fw') (p : Platform) (i : Input) :
    Option.Rel SameView (step p fw i) (step p fw' i) := by
  cases i with
  | hostFrame type payload => exact snControlHandle_sameView h p type payload
  | received pkt =>
      obtain ⟨keys, log, hlen, rfl⟩ := h
      have hrecv : netRecvData (withSecrets keys log fw).radio (withSecrets keys log fw).batcher
          (withSecrets keys log fw).outbox pkt =
          netRecvData fw.radio fw.batcher fw.outbox pkt := rfl
      simp only [step, receive, hrecv]
      cases netRecvData fw.radio fw.batcher fw.outbox pkt with
      | none => exact .none
      | some r => exact .some ⟨keys, log, hlen, rfl⟩
  | radioEvent event =>
      obtain ⟨keys, log, hlen, rfl⟩ := h
      exact .some ⟨keys, log, hlen, rfl⟩
  | hciPacket h4 data now =>
      simp only [step]
      split
      · exact fwdLoop_sameView h h4 data now
      · exact .none
  | batchLinger =>
      obtain ⟨keys, log, hlen, rfl⟩ := h
      have hexpired : Batch.lingerExpired (withSecrets keys log fw).batcher
          (withSecrets keys log fw).outbox = Batch.lingerExpired fw.batcher fw.outbox := rfl
      simp only [step, batchLinger, hexpired]
      cases Batch.lingerExpired fw.batcher fw.outbox with
      | none => exact .none
      | some r => exact .some ⟨keys, log, hlen, rfl⟩
  | bleLinger =>
      obtain ⟨keys, log, hlen, rfl⟩ := h
      have hexpired : bleLingerExpired (withSecrets keys log fw).ble
          (withSecrets keys log fw).outbox =
          (bleLingerExpired fw.ble fw.outbox).map (withKeysFst keys) :=
        bleFlushLocked_withKeys keys fw.ble fw.outbox
      simp only [step, bleLinger, hexpired]
      cases bleLingerExpired fw.ble fw.outbox with
      | none => exact .none
      | some r => exact .some ⟨keys, log, hlen, rfl⟩
  | syncWork => exact syncWorkFn_sameView h
  | bigWork uptime =>
      have hfollow : fw'.ble.follow = fw.ble.follow := by
        obtain ⟨_, _, _, rfl⟩ := h
        rfl
      simp only [step, hfollow]
      split
      · exact .some (bigWorkFn_sameView h uptime)
      · exact .none
  | isoPathWork => exact isoPathWorkFn_sameView h
  | statsRead =>
      obtain ⟨keys, log, hlen, rfl⟩ := h
      have htick : (withSecrets keys log fw).tick = fw.tick := rfl
      simp only [step, statsRead, htick]
      split
      · exact .some ⟨keys, log, hlen, rfl⟩
      · exact .none
  | linkRead queued =>
      obtain ⟨keys, log, hlen, rfl⟩ := h
      have htick : (withSecrets keys log fw).tick = fw.tick := rfl
      simp only [step, linkRead, htick]
      split
      · exact .some ⟨keys, log, hlen, rfl⟩
      · exact .none
  | tickSend =>
      obtain ⟨keys, log, hlen, rfl⟩ := h
      have htick : (withSecrets keys log fw).tick = fw.tick := rfl
      simp only [step, tickSend, htick]
      cases fw.tick.frame with
      | none => exact .none
      | some f => exact .some ⟨keys, log, hlen, rfl⟩
  | log =>
      obtain ⟨keys, hci, hlen, rfl⟩ := h
      have hlogs : (withSecrets keys hci fw).logs = fw.logs := rfl
      simp only [step, processLog]
      rw [hlogs]
      cases fw.logs with
      | nil => exact .none
      | cons line logs => exact .some ⟨keys, hci, hlen, rfl⟩

/-- **The keys stay on the board.** Two runs whose inputs differ in the keys
alone hand the same frames to the link and log the same lines. -/
theorem keys_stay_on_board {p : Platform} {w : World} {inputs inputs' : List Input}
    (h : List.Forall₂ SameButKeys inputs inputs') :
    ((machine p).run (boot w) inputs).map hostView =
      ((machine p).run (boot w) inputs').map hostView := by
  refine (machine p).run_observed ?_ (fun _ _ h => h.hostView) (SameView.refl _) h
  intro fw fw' i i' hview hi
  cases hi with
  | same => exact step_sameView hview p i
  | keys hkeys =>
      exact rel_map (snRadioBleSetKeys_sameView hview hkeys) fun _ _ hr => hr.1

/-! ## Two captures under different keys -/

/-- One device and its key, every byte of which is `byte`. -/
def keyOf (byte : UInt8) : List UInt8 := [0, 1, 2, 3, 4, 5, 6] ++ List.replicate 16 byte

/-- The key is stored, BLE selected and started, and a line is logged. -/
def captureUnder (byte : UInt8) : List Input :=
  [.hostFrame .bleKeys (keyOf byte), .hostFrame .controlCmd [4, 2, 0, 0, 0],
   .hostFrame .controlCmd [2, 0, 0, 0, 0], .log]

theorem sameIdentities_keyOf (byte byte' : UInt8) : SameIdentities (keyOf byte) (keyOf byte') := by
  refine ⟨rfl, fun i hi => ?_⟩
  by_cases hlt : i < keyEntry
  · have hseven : i < 7 := by
      rw [Nat.mod_eq_of_lt hlt] at hi
      exact hi
    rw [keyOf, keyOf, List.getElem?_append_left hseven, List.getElem?_append_left hseven]
  · have hlen : ∀ byte, (keyOf byte).length = keyEntry := fun _ => rfl
    rw [List.getElem?_eq_none (by rw [hlen]; omega), List.getElem?_eq_none (by rw [hlen]; omega)]

/-- The controllers are told different things, the hosts the same. -/
theorem keys_stay_on_board_captures :
    ∃ t t', (machine fullPlatform).run (boot calmWorld) (captureUnder 0xAA) = some t ∧
      (machine fullPlatform).run (boot calmWorld) (captureUnder 0xBB) = some t' ∧
      t.hci.log ≠ t'.hci.log ∧ t.outbox.log ≠ [] ∧ hostView t = hostView t' := by
  have hsame : List.Forall₂ SameButKeys (captureUnder 0xAA) (captureUnder 0xBB) :=
    .cons (.keys (sameIdentities_keyOf _ _))
      (.cons (.same _) (.cons (.same _) (.cons (.same _) .nil)))
  have hview := keys_stay_on_board (p := fullPlatform) (w := calmWorld) hsame
  have hruns : (((machine fullPlatform).run (boot calmWorld) (captureUnder 0xAA)).any fun t =>
      ((machine fullPlatform).run (boot calmWorld) (captureUnder 0xBB)).any fun t' =>
        t.hci.log != t'.hci.log && !t.outbox.log.isEmpty) = true := by decide +kernel
  obtain ⟨t, ht, hruns'⟩ := (Option.any_eq_true _ _).mp hruns
  obtain ⟨t', ht', hfacts⟩ := (Option.any_eq_true _ _).mp hruns'
  simp only [Bool.and_eq_true, bne_iff_ne, Bool.not_eq_true', List.isEmpty_eq_false_iff] at hfacts
  rw [ht, ht', Option.map_some, Option.map_some, Option.some.injEq] at hview
  exact ⟨t, t', ht, ht', hfacts.1, hfacts.2, hview⟩

end Nrf54Sniffer.Board
