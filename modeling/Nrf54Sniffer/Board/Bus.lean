/-
Nrf54Sniffer.Board.Bus — what each input puts on the controller's bus.

There are five ways: START's script up to the first command that is not
accepted, the Reset of a stop, and a request of each of the three work items
(`Issues`, in three kinds `Issues.kinds`). Every other input puts nothing there.
`step_issues` says so once, with what becomes of the running flag; what holds of
the controller over a run is read off it.
-/
import Nrf54Sniffer.Lib.InDoubt
import Nrf54Sniffer.Board.KeyLife
import Nrf54Sniffer.Board.ScanFlag

namespace Nrf54Sniffer.Board

open Nrf54Sniffer.Lib
open Nrf54Sniffer.Wire
open Nrf54Sniffer.Radio154
open Nrf54Sniffer.Ble
open Nrf54Sniffer.Control

/-! ## The commands -/

/-- Commands and how they came out. -/
abbrev Traffic := List (HciCommand × HciAnswer)

/-- START's commands, with the settings there are. -/
def Firmware.script (fw : Firmware) : List HciCommand :=
  startScript fw.ble fw.bleIntervalMs fw.bleWindowMs fw.blePhys

/-- The controller accepts START's commands. -/
def Firmware.startAccepted (fw : Firmware) : Prop :=
  GetsThrough HciAnswer.accepted fw.hci.answers fw.hci.log.length fw.script

def reset : HciCommand := ⟨opReset, []⟩

def createSync (req : SyncReq) : HciCommand := ⟨opLePerAdvCreateSync, perAdvCreateSyncParams req⟩

def bigCreateSync (params : List UInt8) : HciCommand := ⟨opLeBigCreateSync, params⟩

def setupIsoPath (handle : UInt16) : HciCommand := ⟨opLeSetupIsoPath, setupIsoPathParams handle⟩

/-- A START that gets as far as the controller. -/
def StartsBle (p : Platform) (fw : Firmware) : Input → Prop
  | .hostFrame .controlCmd (command :: _ :: _ :: _ :: _ :: _) =>
      p.command command = .start ∧ fw.selectedRadio = radioBle ∧ fw.ble.ready = true
  | _ => False

/-- A stop that gets as far as the controller. -/
def StopsBle (p : Platform) (fw : Firmware) : Input → Prop
  | .hostFrame .controlCmd payload => EndsBle p fw payload ∧ fw.ble.ready = true
  | _ => False

theorem StartsBle.command {p : Platform} {fw : Firmware} {i : Input} (h : StartsBle p fw i) :
    ∃ command b0 b1 b2 b3 rest,
      i = .hostFrame .controlCmd (command :: b0 :: b1 :: b2 :: b3 :: rest) := by
  unfold StartsBle at h
  split at h
  · exact ⟨_, _, _, _, _, _, rfl⟩
  · exact h.elim

theorem StopsBle.command {p : Platform} {fw : Firmware} {i : Input} (h : StopsBle p fw i) :
    ∃ command b0 b1 b2 b3 rest,
      i = .hostFrame .controlCmd (command :: b0 :: b1 :: b2 :: b3 :: rest) := by
  unfold StopsBle EndsBle at h
  split at h
  · obtain ⟨h, _⟩ := h
    split at h
    · exact ⟨_, _, _, _, _, _, rfl⟩
    · exact h.elim
  · exact h.elim

/-- Neither. -/
def Plain (p : Platform) (fw : Firmware) (i : Input) : Prop :=
  ¬ StartsBle p fw i ∧ ¬ StopsBle p fw i

/-- What an input puts on the bus, and the running flag after it. -/
inductive Issues (p : Platform) (fw : Firmware) : Input → Bool → Traffic → Prop where
  | quiet {i : Input} (hplain : Plain p fw i) : Issues p fw i fw.ble.running []
  | start {i : Input} {running : Bool} (hstarts : StartsBle p fw i)
      (hrunning : running = true ↔ fw.ble.running = true ∨ fw.startAccepted) :
      Issues p fw i running (fw.hci.issues fw.script)
  | stop {i : Input} (hstops : StopsBle p fw i) : Issues p fw i false [(reset, fw.hci.next)]
  | train {req : SyncReq} {syncQ : List SyncReq} (hqueue : fw.ble.follow.syncQ = req :: syncQ)
      (hon : fw.ble.running = true ∧ fw.ble.periodicEnabled = true) :
      Issues p fw .syncWork fw.ble.running [(createSync req, fw.hci.next)]
  | broadcast {uptime : Int} (hon : fw.ble.running = true) :
      Issues p fw (.bigWork uptime) fw.ble.running
        [(bigCreateSync fw.ble.follow.bigParams, fw.hci.next)]
  | stream {handle : UInt16} (hhandle : handle ∈ fw.ble.follow.bisHandles)
      (hon : fw.ble.running = true) :
      Issues p fw .isoPathWork fw.ble.running [(setupIsoPath handle, fw.hci.next)]

/-- The opcodes of the work items. -/
def followOpcodes : List UInt16 := [opLePerAdvCreateSync, opLeBigCreateSync, opLeSetupIsoPath]

/-- Requests of the work items, or nothing. -/
def Follows (new : Traffic) : Prop := ∀ x ∈ new, x.1.opcode ∈ followOpcodes

/-- The five ways in three kinds, as far as the scan goes. -/
theorem Issues.kinds {p : Platform} {fw : Firmware} {i : Input} {running : Bool} {new : Traffic}
    (h : Issues p fw i running new) :
    (StartsBle p fw i ∧ new = fw.hci.issues fw.script ∧
      (running = true ↔ fw.ble.running = true ∨ fw.startAccepted)) ∨
    (StopsBle p fw i ∧ new = [(reset, fw.hci.next)] ∧ running = false) ∨
    (Plain p fw i ∧ Follows new ∧ running = fw.ble.running) := by
  cases h with
  | quiet hplain => exact .inr (.inr ⟨hplain, fun x hx => absurd hx List.not_mem_nil, rfl⟩)
  | start hstarts hrunning => exact .inl ⟨hstarts, rfl, hrunning⟩
  | stop hstops => exact .inr (.inl ⟨hstops, rfl, rfl⟩)
  | train _ _ =>
      refine .inr (.inr ⟨⟨nofun, nofun⟩, fun x hx => ?_, rfl⟩)
      rw [List.mem_singleton.mp hx]
      exact (by decide : opLePerAdvCreateSync ∈ followOpcodes)
  | broadcast _ =>
      refine .inr (.inr ⟨⟨nofun, nofun⟩, fun x hx => ?_, rfl⟩)
      rw [List.mem_singleton.mp hx]
      exact (by decide : opLeBigCreateSync ∈ followOpcodes)
  | stream _ _ =>
      refine .inr (.inr ⟨⟨nofun, nofun⟩, fun x hx => ?_, rfl⟩)
      rw [List.mem_singleton.mp hx]
      exact (by decide : opLeSetupIsoPath ∈ followOpcodes)

/-! ## New commands at the end of the bus -/

/-- The bus has these at its end. -/
def Adds (fw fw' : Firmware) (new : Traffic) : Prop :=
  fw'.hci = { fw.hci with log := fw.hci.log ++ new }

theorem Adds.same {fw fw' : Firmware} (h : fw'.hci = fw.hci) : Adds fw fw' [] := by
  simp [Adds, h]

theorem Adds.pushed {fw fw' : Firmware} {c : HciCommand} (h : fw'.hci = fw.hci.push c) :
    Adds fw fw' [(c, fw.hci.next)] := h

theorem Adds.trans {fw fw' fw'' : Firmware} {new new' : Traffic} (h : Adds fw fw' new)
    (h' : Adds fw' fw'' new') : Adds fw fw'' (new ++ new') := by
  unfold Adds at h h' ⊢
  rw [h', h]
  simp

theorem Adds.log {fw fw' : Firmware} {new : Traffic} (h : Adds fw fw' new) :
    fw'.hci.log = fw.hci.log ++ new := by
  rw [h]

/-- The bus and the flag are as they were. -/
structure Quiet (fw fw' : Firmware) : Prop where
  hci : fw'.hci = fw.hci
  running : fw'.ble.running = fw.ble.running

theorem Quiet.trans {fw fw' fw'' : Firmware} (h : Quiet fw fw') (h' : Quiet fw' fw'') :
    Quiet fw fw'' :=
  ⟨h'.hci.trans h.hci, h'.running.trans h.running⟩

theorem Quiet.issues {p : Platform} {fw fw' : Firmware} {i : Input} (h : Quiet fw fw')
    (hplain : Plain p fw i) : ∃ new, Adds fw fw' new ∧ Issues p fw i fw'.ble.running new := by
  refine ⟨[], .same h.hci, ?_⟩
  rw [h.running]
  exact .quiet hplain

/-! ## The work items -/

/-- A request is sent in a capture that follows trains, or dropped. -/
theorem syncOne_adds (fw : Firmware) (req : SyncReq) :
    Quiet fw (syncOne fw req) ∨
    ((fw.ble.running = true ∧ fw.ble.periodicEnabled = true) ∧
      Adds fw (syncOne fw req) [(createSync req, fw.hci.next)] ∧
      (syncOne fw req).ble.running = fw.ble.running) := by
  obtain ⟨_, _, _, _, honly⟩ :=
    hciCommand_onlyHci fw opLePerAdvCreateSync (perAdvCreateSyncParams req)
  have hpushed := hciCommand_hci fw opLePerAdvCreateSync (perAdvCreateSyncParams req)
  unfold syncOne
  split
  · rename_i hmay
    simp only [mayCreateSync, Bool.and_eq_true] at hmay
    refine .inr ⟨hmay.1, .pushed ?_, ?_⟩
    · dsimp only
      split
      · exact hpushed
      · exact hpushed
    · dsimp only
      split
      · simp only [takeSyncSlot, honly, withHci]
      · simp only [honly, withHci]
  · exact .inl ⟨rfl, rfl⟩

/-- So is the path of a stream, in a capture. -/
theorem isoPathOne_adds (fw : Firmware) (handle : UInt16) :
    Quiet fw (isoPathOne fw handle) ∨
    (fw.ble.running = true ∧
      Adds fw (isoPathOne fw handle) [(setupIsoPath handle, fw.hci.next)] ∧
      (isoPathOne fw handle).ble.running = fw.ble.running) := by
  obtain ⟨_, _, _, _, honly⟩ :=
    sendCommand_onlyHci fw opLeSetupIsoPath (setupIsoPathParams handle)
  have hpushed := (sendCommand_spec fw (setupIsoPathParams handle)
    (by decide : opLeSetupIsoPath ≠ 0)).2.1
  unfold isoPathOne
  split
  · rename_i hon
    refine .inr ⟨hon, .pushed hpushed, ?_⟩
    rw [honly]
    rfl
  · exact .inl ⟨rfl, rfl⟩

theorem syncWorkFn_issues (p : Platform) {fw fw' : Firmware} (h : syncWorkFn fw = some fw') :
    ∃ new, Adds fw fw' new ∧ Issues p fw .syncWork fw'.ble.running new := by
  obtain ⟨syncWork, loop, rfl⟩ | ⟨req, syncQ, hqueue, rfl⟩ := syncWorkFn_cases h
  · exact Quiet.issues ⟨rfl, rfl⟩ ⟨nofun, nofun⟩
  · rcases syncOne_adds { fw with ble := leaveQueued fw.ble syncQ } req with
      hquiet | ⟨hon, hadds, hrunning⟩
    · exact Quiet.issues ⟨hquiet.hci, hquiet.running⟩ ⟨nofun, nofun⟩
    · refine ⟨_, hadds, ?_⟩
      rw [hrunning]
      exact .train hqueue hon

theorem bigWorkFn_issues (p : Platform) (fw : Firmware) (uptime : Int) :
    ∃ new, Adds fw (bigWorkFn fw uptime) new ∧
      Issues p fw (.bigWork uptime) (bigWorkFn fw uptime).ble.running new := by
  have hfinish : ∀ (s : BleRadio) (joined : Bool),
      (finishBig s joined uptime).running = s.running := by
    intro s joined
    unfold finishBig
    split
    · rfl
    · rfl
  cases hon : fw.ble.running with
  | false =>
      refine Quiet.issues ⟨by simp [bigWorkFn, hon], ?_⟩ ⟨nofun, nofun⟩
      simp only [bigWorkFn, hon, Bool.false_eq_true, if_false, hfinish]
      exact hon
  | true =>
      have hrunning : (bigWorkFn fw uptime).ble.running = fw.ble.running := by
        obtain ⟨_, _, _, _, honly⟩ := hciCommand_onlyHci
          { fw with ble := beginBigWork fw.ble } opLeBigCreateSync fw.ble.follow.bigParams
        simp only [bigWorkFn, hon, if_true, noteBigOutcome, hfinish, honly, withHci]
        exact hon
      refine ⟨[(bigCreateSync fw.ble.follow.bigParams, fw.hci.next)], .pushed ?_, ?_⟩
      · simp only [bigWorkFn, hon, if_true, noteBigOutcome]
        exact hciCommand_hci _ _ _
      · rw [hrunning]
        exact .broadcast hon

theorem isoPathWorkFn_issues (p : Platform) {fw fw' : Firmware} (h : isoPathWorkFn fw = some fw') :
    ∃ new, Adds fw fw' new ∧ Issues p fw .isoPathWork fw'.ble.running new := by
  obtain ⟨isoPathWork, loop, rfl⟩ | ⟨handle, i, _, hstream, rfl⟩ := isoPathWorkFn_cases h
  · exact Quiet.issues ⟨rfl, rfl⟩ ⟨nofun, nofun⟩
  · rcases isoPathOne_adds { fw with ble := setLoop fw.ble (afterPath fw.ble i) } handle with
      hquiet | ⟨hon, hadds, hrunning⟩
    · exact Quiet.issues ⟨hquiet.hci, hquiet.running⟩ ⟨nofun, nofun⟩
    · refine ⟨_, hadds, ?_⟩
      rw [hrunning]
      exact .stream (List.mem_of_getElem? hstream) hon

/-! ## The control thread -/

/-- Where it is `due`, the controller is reset and the flag cleared; where not,
neither is touched. -/
def Stops (due : Prop) (fw fw' : Firmware) : Prop :=
  (due ∧ fw'.hci = fw.hci.push reset ∧ fw'.ble.running = false) ∨ (¬ due ∧ Quiet fw fw')

theorem Stops.quiet {due : Prop} {fw fw₁ fw' : Firmware} (h : Stops due fw fw₁)
    (hquiet : Quiet fw₁ fw') : Stops due fw fw' := by
  rcases h with ⟨hdue, hhci, hoff⟩ | ⟨hdue, hbefore⟩
  · exact .inl ⟨hdue, hquiet.hci.trans hhci, hquiet.running.trans hoff⟩
  · exact .inr ⟨hdue, hbefore.trans hquiet⟩

theorem Stops.issues {p : Platform} {due : Prop} {fw fw' : Firmware} {i : Input}
    (h : Stops due fw fw') (hdue : StopsBle p fw i ↔ due) (hstarts : ¬ StartsBle p fw i) :
    ∃ new, Adds fw fw' new ∧ Issues p fw i fw'.ble.running new := by
  rcases h with ⟨hyes, hhci, hoff⟩ | ⟨hno, hquiet⟩
  · refine ⟨[(reset, fw.hci.next)], .pushed hhci, ?_⟩
    rw [hoff]
    exact .stop (hdue.mpr hyes)
  · exact hquiet.issues ⟨hstarts, fun hstops => hno (hdue.mp hstops)⟩

theorem stopRadio_stops {fw fw' : Firmware} {radio : UInt8} {err : Int}
    (hs : stopRadio fw radio = some (fw', err)) :
    Stops (radio = radioBle ∧ fw.ble.ready = true) fw fw' := by
  unfold stopRadio at hs
  split at hs
  · rename_i hble
    cases hready : fw.ble.ready with
    | false =>
        rw [stopBle_notReady hready] at hs
        cases hs
        exact .inr ⟨by simp, ⟨rfl, rfl⟩⟩
    | true =>
        obtain ⟨batch, stats, outbox, hsent, _⟩ := stopBle_effect hready hs
        have hsent := congrArg Prod.fst hsent
        have hpushed := (sendCommand_spec (flushedStop fw
          ({ stopCapture fw.ble with batch, stats }, outbox)) [] (by decide : opReset ≠ 0)).2.1
        obtain ⟨_, _, _, _, honly⟩ := sendCommand_onlyHci (flushedStop fw
          ({ stopCapture fw.ble with batch, stats }, outbox)) opReset []
        rw [← hsent] at hpushed honly
        have honly : fw' = _ := honly
        refine .inl ⟨⟨hble, rfl⟩, hpushed, ?_⟩
        rw [honly]
        rfl
  · rename_i hother
    obtain ⟨batcher, outbox, rfl, _⟩ := stop154_effect hs
    exact .inr ⟨fun h => hother h.1, ⟨rfl, rfl⟩⟩

/-- GET_INFO stops both radios, and only one of them is the controller's. -/
theorem stopBoth_stops {fw fw' : Firmware} (hs : stopBoth fw = some fw') :
    Stops (fw.ble.ready = true) fw fw' := by
  obtain ⟨⟨fw₁, _⟩, hstopped, hboth⟩ := Option.bind_eq_some_iff.mp hs
  obtain ⟨⟨fw₂, _⟩, hstopped', heq⟩ := Option.map_eq_some_iff.mp hboth
  cases heq
  obtain ⟨batcher, outbox, rfl, _⟩ := stop154_effect hstopped
  rcases stopRadio_stops hstopped' with ⟨hdue, hhci, hoff⟩ | ⟨hdue, hquiet⟩
  · exact .inl ⟨hdue.2, hhci, hoff⟩
  · exact .inr ⟨fun hready => hdue ⟨rfl, hready⟩, hquiet.hci, hquiet.running⟩

theorem setAntenna_quiet (fw : Firmware) (value : UInt32) : Quiet fw (setAntenna fw value).1 := by
  unfold setAntenna switchAntenna
  split
  · exact ⟨rfl, rfl⟩
  · split
    · exact ⟨rfl, rfl⟩
    · split
      · exact ⟨rfl, rfl⟩
      · exact ⟨rfl, rfl⟩

theorem onEnergyDetect_quiet (p : Platform) (fw : Firmware) (command : UInt8) (value : UInt32) :
    Quiet fw (onEnergyDetect p fw command value) := by
  unfold onEnergyDetect
  split
  · exact ⟨rfl, rfl⟩
  · simp only
    split
    · exact ⟨rfl, rfl⟩
    · split
      · exact ⟨rfl, rfl⟩
      · exact ⟨rfl, rfl⟩

theorem onSetChannel_quiet {p : Platform} {fw fw' : Firmware} {command : UInt8} {value : UInt32}
    (hs : onSetChannel p fw command value = some fw') : Quiet fw fw' := by
  unfold onSetChannel at hs
  split at hs
  · cases hs
    exact ⟨rfl, rfl⟩
  · obtain ⟨fw₁, hflush, heq⟩ := Option.map_eq_some_iff.mp hs
    cases heq
    obtain ⟨batcher, outbox, rfl, _⟩ := flushBatch_effect hflush
    unfold tuneAndStart
    simp only
    split
    · exact ⟨rfl, rfl⟩
    · split
      · exact ⟨rfl, rfl⟩
      · exact ⟨rfl, rfl⟩

/-- START of the BLE radio, where the controller is ready. -/
theorem startBle_bus {fw : Firmware} (hready : fw.ble.ready = true) :
    Adds fw (startBle fw).1 (fw.hci.issues fw.script) ∧
      ((startBle fw).1.ble.running = true ↔ fw.ble.running = true ∨ fw.startAccepted) := by
  have hbus := snRadioBleStart_hci hready fw.bleIntervalMs fw.bleWindowMs fw.blePhys
  have hok := start_ok_iff_accepted hready fw.bleIntervalMs fw.bleWindowMs fw.blePhys
  obtain ⟨fw₁, ⟨_, _, _, _, rfl⟩, hr⟩ :=
    snRadioBleStart_outcome hready fw.bleIntervalMs fw.bleWindowMs fw.blePhys
  have hrunning : (snRadioBleStart fw fw.bleIntervalMs fw.bleWindowMs fw.blePhys).1.ble.running
      = true ↔ fw.ble.running = true ∨ fw.startAccepted := by
    have hok : _ ↔ fw.startAccepted := hok
    rw [← hok, hr]
    split
    · rename_i hzero
      exact ⟨fun _ => .inr hzero, fun _ => rfl⟩
    · rename_i hfailed
      exact ⟨.inl, fun h => h.elim id fun hzero => absurd hzero hfailed⟩
  unfold startBle
  simp only
  split
  · exact ⟨hbus, hrunning⟩
  · exact ⟨hbus, hrunning⟩

/-- Most commands neither start nor stop. -/
theorem plain_of_command {p : Platform} {fw : Firmware} {command b0 b1 b2 b3 : UInt8}
    {rest : List UInt8} (hstart : p.command command ≠ .start) (hstop : p.command command ≠ .stop)
    (hinfo : p.command command ≠ .getInfo) (hradio : p.command command ≠ .setRadio) :
    Plain p fw (.hostFrame .controlCmd (command :: b0 :: b1 :: b2 :: b3 :: rest)) := by
  constructor
  · rintro ⟨h, _⟩
    exact hstart h
  · rintro ⟨h | ⟨h, _⟩ | ⟨h, _⟩, _⟩
    · exact hinfo h
    · exact hstop h
    · exact hradio h

theorem onSetRadio_issues {p : Platform} {fw fw' : Firmware} {command b0 b1 b2 b3 : UInt8}
    {rest : List UInt8} (hcommand : p.command command = .setRadio)
    (hs : onSetRadio p fw command (getLe32 b0 b1 b2 b3) = some fw') :
    ∃ new, Adds fw fw' new ∧
      Issues p fw (.hostFrame .controlCmd (command :: b0 :: b1 :: b2 :: b3 :: rest))
        fw'.ble.running new := by
  have hstarts : ¬ StartsBle p fw (.hostFrame .controlCmd (command :: b0 :: b1 :: b2 :: b3 :: rest)) :=
    fun h => by
      have hcommand' := h.1
      rw [hcommand] at hcommand'
      cases hcommand'
  have hstops : StopsBle p fw (.hostFrame .controlCmd (command :: b0 :: b1 :: b2 :: b3 :: rest)) ↔
      (fw.selectedRadio = radioBle ∧ getLe32 b0 b1 b2 b3 = radio154.toUInt32) ∧
        fw.ble.ready = true := by
    simp [StopsBle, EndsBle, hcommand]
  unfold onSetRadio at hs
  split at hs
  · rename_i hbad
    cases hs
    have hquiet : Quiet fw (reply p fw command .badValue (getLe32 b0 b1 b2 b3)) := ⟨rfl, rfl⟩
    exact hquiet.issues ⟨hstarts, fun h => hbad.1 (hstops.mp h).1.2⟩
  · rename_i hgood
    obtain ⟨fw₁, hleft, heq⟩ := Option.map_eq_some_iff.mp hs
    cases heq
    split at hleft
    · rename_i hleaves
      obtain ⟨⟨fw₂, err⟩, hstopped, heq⟩ := Option.map_eq_some_iff.mp hleft
      cases heq
      refine ((stopRadio_stops hstopped).quiet ⟨rfl, rfl⟩).issues ?_ hstarts
      rw [hstops]
      refine and_congr_left fun _ => ⟨And.left, fun hble => ⟨hble, ?_⟩⟩
      refine Decidable.byContradiction fun hvalue => ?_
      rw [hble] at hleaves
      exact hgood ⟨hvalue, hleaves⟩
    · rename_i hstays
      cases hleft
      have hquiet : Quiet fw (reply p { fw with selectedRadio := (getLe32 b0 b1 b2 b3).toUInt8 }
          command .ok (getLe32 b0 b1 b2 b3)) := ⟨rfl, rfl⟩
      refine hquiet.issues ⟨hstarts, fun h => hstays ?_⟩
      obtain ⟨⟨hble, hvalue⟩, _⟩ := hstops.mp h
      rw [hble, hvalue]
      decide

theorem onStart_issues {p : Platform} {fw : Firmware} {command b0 b1 b2 b3 : UInt8}
    {rest : List UInt8} (hcommand : p.command command = .start) :
    ∃ new, Adds fw (onStart p fw command) new ∧
      Issues p fw (.hostFrame .controlCmd (command :: b0 :: b1 :: b2 :: b3 :: rest))
        (onStart p fw command).ble.running new := by
  have hstops : ¬ StopsBle p fw (.hostFrame .controlCmd (command :: b0 :: b1 :: b2 :: b3 :: rest)) := by
    simp [StopsBle, EndsBle, hcommand]
  unfold onStart
  split
  · rename_i hselected
    cases hready : fw.ble.ready with
    | false =>
        have hrefused : snRadioBleStart fw fw.bleIntervalMs fw.bleWindowMs fw.blePhys
            = (fw, -eNoDev) := by simp [snRadioBleStart, hready]
        have hquiet : Quiet fw (startBle fw).1 := by
          unfold startBle
          rw [hrefused]
          simp only
          split
          · exact ⟨rfl, rfl⟩
          · exact ⟨rfl, rfl⟩
        refine (hquiet.trans ⟨rfl, rfl⟩).issues ⟨fun h => ?_, hstops⟩
        have hready' := h.2.2
        rw [hready] at hready'
        cases hready'
    | true =>
        obtain ⟨hadds, hrunning⟩ := startBle_bus hready
        exact ⟨_, hadds, .start ⟨hcommand, hselected, hready⟩ hrunning⟩
  · rename_i hother
    refine Quiet.issues ?_ ⟨fun h => hother h.2.1, hstops⟩
    exact ⟨rfl, rfl⟩

theorem onStop_issues {p : Platform} {fw fw' : Firmware} {command b0 b1 b2 b3 : UInt8}
    {rest : List UInt8} (hcommand : p.command command = .stop)
    (hs : onStop p fw command = some fw') :
    ∃ new, Adds fw fw' new ∧
      Issues p fw (.hostFrame .controlCmd (command :: b0 :: b1 :: b2 :: b3 :: rest))
        fw'.ble.running new := by
  obtain ⟨⟨fw₁, err⟩, hstopped, heq⟩ := Option.map_eq_some_iff.mp hs
  cases heq
  refine ((stopRadio_stops hstopped).quiet ⟨rfl, rfl⟩).issues ?_ ?_
  · simp [StopsBle, EndsBle, hcommand]
  · simp [StartsBle, hcommand]

theorem onGetInfo_issues {p : Platform} {fw fw' : Firmware} {command b0 b1 b2 b3 : UInt8}
    {rest : List UInt8} (hcommand : p.command command = .getInfo)
    (hs : onGetInfo p fw command = some fw') :
    ∃ new, Adds fw fw' new ∧
      Issues p fw (.hostFrame .controlCmd (command :: b0 :: b1 :: b2 :: b3 :: rest))
        fw'.ble.running new := by
  obtain ⟨fw₂, hboth, heq⟩ := Option.map_eq_some_iff.mp hs
  cases heq
  have hcleared : Quiet fw₂ (defaultSettings (resetCounters { fw₂ with selectedRadio := radio154 })) :=
    ⟨rfl, rfl⟩
  have hfresh : Quiet fw₂ (reply p (freshSession fw₂) command .ok snFirmwareVersion) :=
    (hcleared.trans (setAntenna_quiet _ 0)).trans ⟨rfl, rfl⟩
  refine ((stopBoth_stops hboth).quiet hfresh).issues ?_ ?_
  · simp [StopsBle, EndsBle, hcommand]
  · simp [StartsBle, hcommand]

theorem onCommand_issues {p : Platform} {fw fw' : Firmware} {command b0 b1 b2 b3 : UInt8}
    {rest : List UInt8} (hs : onCommand p fw command (getLe32 b0 b1 b2 b3) = some fw') :
    ∃ new, Adds fw fw' new ∧
      Issues p fw (.hostFrame .controlCmd (command :: b0 :: b1 :: b2 :: b3 :: rest))
        fw'.ble.running new := by
  have hquiet : ∀ {fw' : Firmware} {c : Command}, p.command command = c → c ≠ .start → c ≠ .stop →
      c ≠ .getInfo → c ≠ .setRadio → Quiet fw fw' → ∃ new, Adds fw fw' new ∧
        Issues p fw (.hostFrame .controlCmd (command :: b0 :: b1 :: b2 :: b3 :: rest))
          fw'.ble.running new := by
    intro fw' c hc hstart hstop hinfo hradio h
    rw [← hc] at hstart hstop hinfo hradio
    exact h.issues (plain_of_command hstart hstop hinfo hradio)
  unfold onCommand at hs
  split at hs
  case h_1 hcommand => exact onSetRadio_issues hcommand hs
  case h_2 hcommand =>
    cases hs
    refine hquiet hcommand nofun nofun nofun nofun ?_
    unfold onSetBlePhys
    split
    · exact ⟨rfl, rfl⟩
    · exact ⟨rfl, rfl⟩
  case h_3 hcommand =>
    cases hs
    exact hquiet hcommand nofun nofun nofun nofun ⟨rfl, rfl⟩
  case h_4 hcommand =>
    cases hs
    exact hquiet hcommand nofun nofun nofun nofun ⟨rfl, rfl⟩
  case h_5 hcommand => exact hquiet hcommand nofun nofun nofun nofun (onSetChannel_quiet hs)
  case h_6 hcommand =>
    cases hs
    exact onStart_issues hcommand
  case h_7 hcommand => exact onStop_issues hcommand hs
  case h_8 hcommand => exact onGetInfo_issues hcommand hs
  case h_9 hcommand =>
    cases hs
    exact hquiet hcommand nofun nofun nofun nofun ((setAntenna_quiet fw _).trans ⟨rfl, rfl⟩)
  case h_10 hcommand =>
    cases hs
    exact hquiet hcommand nofun nofun nofun nofun (onEnergyDetect_quiet p fw command _)
  case h_11 hcommand =>
    cases hs
    exact hquiet hcommand nofun nofun nofun nofun ⟨rfl, rfl⟩

/-! ## Every input -/

/-- **What a step issues.** -/
theorem step_issues {p : Platform} {fw fw' : Firmware} {i : Input}
    (hs : step p fw i = some fw') :
    ∃ new, Adds fw fw' new ∧ Issues p fw i fw'.ble.running new := by
  cases i with
  | hostFrame type payload =>
      have hs : snControlHandle p fw type payload = some fw' := hs
      unfold snControlHandle at hs
      split at hs
      · cases hs
        refine Quiet.issues ?_ ⟨nofun, nofun⟩
        exact ⟨rfl, rfl⟩
      · obtain ⟨⟨fw₁, err⟩, hkeys, heq⟩ := Option.map_eq_some_iff.mp hs
        cases heq
        refine Quiet.issues ?_ ⟨nofun, nofun⟩
        obtain ⟨line, rfl⟩ | ⟨keys, keyCount, _, rfl⟩ := snRadioBleSetKeys_cases hkeys
        · exact ⟨rfl, rfl⟩
        · exact ⟨rfl, rfl⟩
      · exact onCommand_issues hs
      · rename_i _ _ _ hshort
        cases hs
        refine Quiet.issues ?_ ⟨fun h => ?_, fun h => ?_⟩
        · exact ⟨rfl, rfl⟩
        · obtain ⟨command, b0, b1, b2, b3, rest, heq⟩ := h.command
          cases heq
          exact hshort _ _ _ _ _ _ rfl rfl
        · obtain ⟨command, b0, b1, b2, b3, rest, heq⟩ := h.command
          cases heq
          exact hshort _ _ _ _ _ _ rfl rfl
  | received pkt =>
      obtain ⟨captured, batcher, outbox, rfl, _⟩ := receive_effect hs
      refine Quiet.issues ?_ ⟨nofun, nofun⟩
      exact ⟨rfl, rfl⟩
  | hciPacket h4 data now =>
      obtain ⟨_, hs⟩ := Option.ite_none_right_eq_some.mp hs
      obtain ⟨slot, batch, stats, follow, outbox, rfl, _⟩ := fwdLoop_effect hs
      refine Quiet.issues ?_ ⟨nofun, nofun⟩
      exact ⟨rfl, rfl⟩
  | batchLinger =>
      obtain ⟨batcher, outbox, rfl, _⟩ := batchLinger_effect hs
      refine Quiet.issues ?_ ⟨nofun, nofun⟩
      exact ⟨rfl, rfl⟩
  | bleLinger =>
      obtain ⟨batch, stats, outbox, rfl, _⟩ := bleLinger_effect hs
      refine Quiet.issues ?_ ⟨nofun, nofun⟩
      exact ⟨rfl, rfl⟩
  | syncWork => exact syncWorkFn_issues p hs
  | bigWork uptime =>
      obtain ⟨_, hs⟩ := Option.ite_none_right_eq_some.mp hs
      cases hs
      exact bigWorkFn_issues p fw uptime
  | isoPathWork => exact isoPathWorkFn_issues p hs
  | radioEvent event =>
      cases hs
      refine Quiet.issues ?_ ⟨nofun, nofun⟩
      exact ⟨rfl, rfl⟩
  | statsRead =>
      obtain ⟨_, rfl⟩ := statsRead_eq hs
      exact Quiet.issues ⟨rfl, rfl⟩ ⟨nofun, nofun⟩
  | linkRead queued =>
      obtain ⟨_, rfl⟩ := linkRead_eq hs
      exact Quiet.issues ⟨rfl, rfl⟩ ⟨nofun, nofun⟩
  | tickSend =>
      obtain ⟨f, _, rfl⟩ := tickSend_eq hs
      exact Quiet.issues ⟨rfl, rfl⟩ ⟨nofun, nofun⟩
  | log =>
      have hs : processLog p fw = some fw' := hs
      unfold processLog at hs
      split at hs
      · cases hs
      · cases hs
        refine Quiet.issues ?_ ⟨nofun, nofun⟩
        exact ⟨rfl, rfl⟩

end Nrf54Sniffer.Board
