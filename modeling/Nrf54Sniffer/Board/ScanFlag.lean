/-
Nrf54Sniffer.Board.ScanFlag — the BLE running flag and the scan it stands for.

`ScanOn` reads the scan off the commands so far: an enable was accepted, and no
Reset since. The flag implies it in every run in which no START finds a running
capture, has its Reset accepted and then fails (`RestartHolds`). Such a START
returns with the flag still set, as in `failed_restart_keeps_flag`.

Everything but a BLE START keeps the implication by not resetting the
controller, or by clearing the flag (`Keeps`).
-/
import Nrf54Sniffer.Ble.StartScript
import Nrf54Sniffer.Board.Effects

namespace Nrf54Sniffer.Board

open Nrf54Sniffer.Lib
open Nrf54Sniffer.Wire
open Nrf54Sniffer.Radio154
open Nrf54Sniffer.Ble
open Nrf54Sniffer.Control

/-! ## The scan -/

/-- The commands that switch a scan on. -/
def enablesScan (c : HciCommand) : Bool :=
  (c.opcode == opLeSetScanEnable || c.opcode == opLeSetExtScanEnable) && c.params.head? == some 1

/-- A scan was enabled, and the controller has not been reset since. -/
def ScanOn (log : List (HciCommand × HciAnswer)) : Prop :=
  ∃ pre x post, log = pre ++ x :: post ∧ enablesScan x.1 = true ∧ x.2.accepted = true ∧
    ∀ y ∈ post, y.1.opcode = opReset → y.2.accepted = false

/-- The entries of a log among which no Reset was accepted. -/
def NoReset (new : List (HciCommand × HciAnswer)) : Prop :=
  ∀ y ∈ new, y.1.opcode = opReset → y.2.accepted = false

/-- Whether a scan is on can be read off the log from its start. -/
theorem scanOn_cons_iff (x : HciCommand × HciAnswer) (log : List (HciCommand × HciAnswer)) :
    ScanOn (x :: log) ↔
      (enablesScan x.1 = true ∧ x.2.accepted = true ∧ NoReset log) ∨ ScanOn log := by
  constructor
  · rintro ⟨pre, y, post, heq, henables, haccepted, hpost⟩
    cases pre with
    | nil =>
        obtain ⟨rfl, rfl⟩ := List.cons.inj heq
        exact .inl ⟨henables, haccepted, hpost⟩
    | cons z pre => exact .inr ⟨pre, y, post, (List.cons.inj heq).2, henables, haccepted, hpost⟩
  · rintro (⟨henables, haccepted, hlog⟩ | ⟨pre, y, post, rfl, henables, haccepted, hpost⟩)
    · exact ⟨[], x, log, rfl, henables, haccepted, hlog⟩
    · exact ⟨x :: pre, y, post, rfl, henables, haccepted, hpost⟩

instance decidableNoReset (new : List (HciCommand × HciAnswer)) : Decidable (NoReset new) :=
  inferInstanceAs (Decidable (∀ y ∈ new, y.1.opcode = opReset → y.2.accepted = false))

instance decidableScanOn : (log : List (HciCommand × HciAnswer)) → Decidable (ScanOn log)
  | [] => isFalse (by rintro ⟨pre, x, post, heq, _⟩; simp at heq)
  | x :: log =>
      have : Decidable (ScanOn log) := decidableScanOn log
      decidable_of_iff _ (scanOn_cons_iff x log).symm

theorem ScanOn.append {log new : List (HciCommand × HciAnswer)} (h : ScanOn log)
    (hnew : NoReset new) : ScanOn (log ++ new) := by
  obtain ⟨pre, x, post, rfl, henables, haccepted, hpost⟩ := h
  refine ⟨pre, x, post ++ new, by simp, henables, haccepted, ?_⟩
  intro y hy
  rcases List.mem_append.mp hy with hy | hy
  · exact hpost y hy
  · exact hnew y hy

/-! ## What keeps the implication -/

/-- The bus has new entries, none of them a Reset that was accepted. -/
def LogAdds (fw fw' : Firmware) : Prop :=
  ∃ new, fw'.hci.log = fw.hci.log ++ new ∧ NoReset new

theorem LogAdds.same {fw fw' : Firmware} (h : fw'.hci = fw.hci) : LogAdds fw fw' :=
  ⟨[], by simp [h], by simp [NoReset]⟩

theorem LogAdds.trans {fw fw' fw'' : Firmware} (h : LogAdds fw fw') (h' : LogAdds fw' fw'') :
    LogAdds fw fw'' := by
  obtain ⟨new, hnew, hplain⟩ := h
  obtain ⟨new', hnew', hplain'⟩ := h'
  refine ⟨new ++ new', by rw [hnew', hnew, List.append_assoc], ?_⟩
  intro y hy
  rcases List.mem_append.mp hy with hy | hy
  · exact hplain y hy
  · exact hplain' y hy

/-- The flag is not set, and unless it is cleared the controller is not reset. -/
structure Keeps (fw fw' : Firmware) : Prop where
  running : fw'.ble.running = true → fw.ble.running = true
  ready : fw'.ble.ready = fw.ble.ready
  log : fw'.ble.running = true → LogAdds fw fw'

theorem Keeps.trans {fw fw' fw'' : Firmware} (h : Keeps fw fw') (h' : Keeps fw' fw'') :
    Keeps fw fw'' where
  running hrun := h.running (h'.running hrun)
  ready := h'.ready.trans h.ready
  log hrun := (h.log (h'.running hrun)).trans (h'.log hrun)

/-- Work aside from the capture that sends no Reset. -/
theorem Keeps.ofAside {fw fw' : Firmware} (h : Aside fw fw') (hlog : LogAdds fw fw') :
    Keeps fw fw' where
  running := by rw [h.runningBle]; exact id
  ready := h.ready
  log _ := hlog

/-- Nothing the flag or the bus are concerned with. -/
theorem Keeps.same {fw fw' : Firmware} (hrunning : fw'.ble.running = fw.ble.running)
    (hready : fw'.ble.ready = fw.ble.ready) (hhci : fw'.hci = fw.hci) : Keeps fw fw' where
  running := by rw [hrunning]; exact id
  ready := hready
  log _ := .same hhci

/-- A reply, or what else the link and the log are given. -/
theorem Keeps.reply {fw fw' : Firmware} (h : Keeps fw fw') (p : Platform) (command : UInt8)
    (status : Status) (value : UInt32) : Keeps fw (Control.reply p fw' command status value) :=
  h.trans (.same rfl rfl rfl)

/-! ## Commands to the controller -/

theorem hciCommand_logAdds (fw : Firmware) {opcode : UInt16} (params : List UInt8)
    (hop : opcode ≠ opReset) : LogAdds fw (hciCommand fw opcode params).1 := by
  refine ⟨[(⟨opcode, params⟩, fw.hci.next)], by rw [hciCommand_hci]; rfl, ?_⟩
  intro y hy
  rw [List.mem_singleton.mp hy]
  intro hreset
  exact absurd hreset hop

theorem syncOne_logAdds (fw : Firmware) (req : SyncReq) : LogAdds fw (syncOne fw req) := by
  have h := hciCommand_logAdds fw (perAdvCreateSyncParams req)
    (by decide : opLePerAdvCreateSync ≠ opReset)
  unfold syncOne
  split
  · simp only
    split
    · exact h.trans (.same rfl)
    · exact h
  · exact .same rfl

theorem syncWorkFn_logAdds {fw fw' : Firmware} (h : syncWorkFn fw = some fw') :
    LogAdds fw fw' := by
  obtain ⟨syncWork, loop, rfl⟩ | ⟨req, syncQ, _, rfl⟩ := syncWorkFn_cases h
  · exact .same rfl
  · have htaken : LogAdds fw { fw with ble := leaveQueued fw.ble syncQ } := .same rfl
    exact htaken.trans (syncOne_logAdds _ req)

theorem bigWorkFn_logAdds (fw : Firmware) (uptime : Int) : LogAdds fw (bigWorkFn fw uptime) := by
  have hbegun : LogAdds fw { fw with ble := beginBigWork fw.ble } := .same rfl
  unfold bigWorkFn
  split
  · exact hbegun.trans ((hciCommand_logAdds _ _ (by decide : opLeBigCreateSync ≠ opReset)).trans
      (.same rfl))
  · exact .same rfl

theorem isoPathOne_logAdds (fw : Firmware) (handle : UInt16) :
    LogAdds fw (isoPathOne fw handle) := by
  unfold isoPathOne
  split
  · have hlogged : ∀ (fw : Firmware) (opcode : UInt16) (params : List UInt8),
        LogAdds (hciCommand fw opcode params).1 (sendCommand fw opcode params).1 := by
      intro fw opcode params
      unfold sendCommand
      simp only
      split
      · exact .same rfl
      · exact .same rfl
    exact (hciCommand_logAdds fw _ (by decide : opLeSetupIsoPath ≠ opReset)).trans (hlogged _ _ _)
  · exact .same rfl

theorem isoPathWorkFn_logAdds {fw fw' : Firmware} (h : isoPathWorkFn fw = some fw') :
    LogAdds fw fw' := by
  obtain ⟨isoPathWork, loop, rfl⟩ | ⟨handle, i, _, _, rfl⟩ := isoPathWorkFn_cases h
  · exact .same rfl
  · have hmoved : LogAdds fw { fw with ble := setLoop fw.ble (afterPath fw.ble i) } := .same rfl
    exact hmoved.trans (isoPathOne_logAdds _ handle)

/-! ## The control thread -/

theorem setAntenna_keeps (fw : Firmware) (value : UInt32) : Keeps fw (setAntenna fw value).1 := by
  refine .ofAside (setAntenna_aside fw value) (.same ?_)
  unfold setAntenna switchAntenna
  split
  · rfl
  · split
    · rfl
    · split
      · rfl
      · rfl

theorem onEnergyDetect_keeps (p : Platform) (fw : Firmware) (command : UInt8) (value : UInt32) :
    Keeps fw (onEnergyDetect p fw command value) := by
  refine .ofAside (onEnergyDetect_aside p fw command value) (.same ?_)
  unfold onEnergyDetect
  split
  · rfl
  · simp only
    split
    · rfl
    · split
      · rfl
      · rfl

theorem stopBle_keeps {fw fw' : Firmware} {err : Int} (hs : stopBle fw = some (fw', err)) :
    Keeps fw fw' := by
  cases hready : fw.ble.ready with
  | false =>
      rw [stopBle_notReady hready] at hs
      cases hs
      exact .same rfl rfl rfl
  | true =>
      obtain ⟨batch, stats, outbox, hsent, _⟩ := stopBle_effect hready hs
      have honly := sendCommand_onlyHci
        (flushedStop fw ({ stopCapture fw.ble with batch, stats }, outbox)) opReset []
      rw [← hsent] at honly
      obtain ⟨_, _, _, _, heq⟩ := honly
      have hoff : fw'.ble.running = false := by
        have heq : fw' = _ := heq
        rw [heq]
        rfl
      have heq : fw' = _ := heq
      exact ⟨by simp [hoff], by rw [heq]; rfl, by simp [hoff]⟩

theorem stopRadio_keeps {fw fw' : Firmware} {radio : UInt8} {err : Int}
    (hs : stopRadio fw radio = some (fw', err)) : Keeps fw fw' := by
  unfold stopRadio at hs
  split at hs
  · exact stopBle_keeps hs
  · obtain ⟨batcher, outbox, rfl, _⟩ := stop154_effect hs
    exact .same rfl rfl rfl

theorem onSetRadio_keeps {p : Platform} {fw fw' : Firmware} {command : UInt8} {value : UInt32}
    (hs : onSetRadio p fw command value = some fw') : Keeps fw fw' := by
  unfold onSetRadio at hs
  split at hs
  · cases hs
    exact .same rfl rfl rfl
  · obtain ⟨fw₁, hleft, heq⟩ := Option.map_eq_some_iff.mp hs
    cases heq
    have hkeeps : Keeps fw fw₁ := by
      split at hleft
      · obtain ⟨⟨fw₂, err⟩, hstopped, heq⟩ := Option.map_eq_some_iff.mp hleft
        cases heq
        exact stopRadio_keeps hstopped
      · cases hleft
        exact .same rfl rfl rfl
    exact hkeeps.trans (.same rfl rfl rfl)

theorem onSetChannel_keeps {p : Platform} {fw fw' : Firmware} {command : UInt8} {value : UInt32}
    (hs : onSetChannel p fw command value = some fw') : Keeps fw fw' := by
  unfold onSetChannel at hs
  split at hs
  · cases hs
    exact .same rfl rfl rfl
  · obtain ⟨fw₁, hflush, heq⟩ := Option.map_eq_some_iff.mp hs
    cases heq
    obtain ⟨batcher, outbox, rfl, _⟩ := flushBatch_effect hflush
    refine Keeps.reply ?_ _ _ _ _
    unfold tuneAndStart
    simp only
    split
    · exact .same rfl rfl rfl
    · split
      · exact .same rfl rfl rfl
      · exact .same rfl rfl rfl

theorem onGetInfo_keeps {p : Platform} {fw fw' : Firmware} {command : UInt8}
    (hs : onGetInfo p fw command = some fw') : Keeps fw fw' := by
  obtain ⟨fw₂, hboth, heq⟩ := Option.map_eq_some_iff.mp hs
  cases heq
  obtain ⟨⟨fw₁, _⟩, hstopped, hboth⟩ := Option.bind_eq_some_iff.mp hboth
  obtain ⟨⟨fw₂, _⟩, hstopped', heq⟩ := Option.map_eq_some_iff.mp hboth
  cases heq
  have hreset : Keeps fw₂ (defaultSettings (resetCounters { fw₂ with selectedRadio := radio154 })) :=
    .same rfl rfl rfl
  exact (((stopRadio_keeps hstopped).trans (stopRadio_keeps hstopped')).trans
    (hreset.trans (setAntenna_keeps _ _))).reply _ _ _ _

theorem snRadioBleSetKeys_keeps {fw fw' : Firmware} {payload : List UInt8} {err : Int}
    (hs : snRadioBleSetKeys fw payload = some (fw', err)) : Keeps fw fw' := by
  refine .ofAside (snRadioBleSetKeys_aside hs) (.same ?_)
  obtain ⟨line, rfl⟩ | ⟨keys, keyCount, _, rfl⟩ := snRadioBleSetKeys_cases hs
  · rfl
  · rfl

/-! ## START -/

/-- The flag is only ever set where the controller is ready, and implies the
scan. -/
structure FlagHolds (fw : Firmware) : Prop where
  ready : fw.ble.running = true → fw.ble.ready = true
  scan : fw.ble.running = true → ScanOn fw.hci.log

theorem FlagHolds.keeps {fw fw' : Firmware} (h : FlagHolds fw) (hk : Keeps fw fw') :
    FlagHolds fw' where
  ready hrun := by
    rw [hk.ready]
    exact h.ready (hk.running hrun)
  scan hrun := by
    obtain ⟨new, hlog, hnew⟩ := hk.log hrun
    rw [hlog]
    exact (h.scan (hk.running hrun)).append hnew

/-- A START of a capture that runs: its Reset is not accepted, or everything
is. -/
def RestartHolds (fw : Firmware) : Prop :=
  fw.selectedRadio = radioBle → fw.ble.running = true →
    fw.hci.next.accepted = false ∨
      ∀ i < (startScript fw.ble fw.bleIntervalMs fw.bleWindowMs fw.blePhys).length,
        (fw.hci.answers (fw.hci.log.length + i)).accepted = true

/-- A script let through leaves the scan on: its last command enables it. -/
theorem scanOn_issued {bus : HciBus} {s : BleRadio} {intervalMs windowMs : UInt16} {phys : UInt8}
    (hok : ∀ x ∈ bus.issues (startScript s intervalMs windowMs phys), x.2.accepted = true) :
    ScanOn (bus.log ++ bus.issues (startScript s intervalMs windowMs phys)) := by
  have hscript := issued_fst_of_all_ok hok
  have hlast : ∃ front last, startScript s intervalMs windowMs phys = front ++ [last] ∧
      enablesScan last = true := by
    unfold startScript scanScript
    split
    · exact ⟨setupScript s ++ [_], _, by rw [List.append_assoc]; rfl, by decide⟩
    · exact ⟨setupScript s ++ [_], _, by rw [List.append_assoc]; rfl, by decide⟩
  obtain ⟨front, last, hfront, henables⟩ := hlast
  rw [hfront] at hscript
  obtain ⟨pre, end', hsplit, _, hend⟩ := List.map_eq_append_iff.mp hscript
  obtain ⟨x, hx, hfst⟩ : ∃ x, end' = [x] ∧ x.1 = last := by
    obtain ⟨x, rest, hcons, hfst, hnil⟩ := List.map_eq_cons_iff.mp hend
    exact ⟨x, by rw [hcons, List.map_eq_nil_iff.mp hnil], hfst⟩
  have hmem : x ∈ bus.issues (startScript s intervalMs windowMs phys) := by
    show x ∈ issued _ _ _ _
    rw [hfront, hsplit, hx]
    simp
  refine ⟨bus.log ++ pre, x, [], ?_, by rw [hfst]; exact henables, hok x hmem, by simp⟩
  show bus.log ++ issued _ _ _ _ = _
  rw [hfront, hsplit, hx]
  simp

/-- A script whose Reset is not accepted issues nothing else. -/
theorem issues_refused {bus : HciBus} (s : BleRadio) (intervalMs windowMs : UInt16) (phys : UInt8)
    (h : bus.next.accepted = false) :
    bus.issues (startScript s intervalMs windowMs phys) = [(⟨opReset, []⟩, bus.next)] :=
  issued_cons_refused h _ _

theorem startBle_flagHolds {fw : Firmware} (h : FlagHolds fw)
    (hselected : fw.selectedRadio = radioBle)
    (hrestart : RestartHolds fw) : FlagHolds (startBle fw).1 := by
  have hstart : FlagHolds (snRadioBleStart fw fw.bleIntervalMs fw.bleWindowMs fw.blePhys).1 := by
    cases hready : fw.ble.ready with
    | false =>
        have hrefused : snRadioBleStart fw fw.bleIntervalMs fw.bleWindowMs fw.blePhys
            = (fw, -eNoDev) := by simp [snRadioBleStart, hready]
        rw [hrefused]
        exact h
    | true =>
        have hlog := congrArg HciBus.log
          (snRadioBleStart_hci hready fw.bleIntervalMs fw.bleWindowMs fw.blePhys)
        have hok := snRadioBleStart_ok_iff hready fw.bleIntervalMs fw.bleWindowMs fw.blePhys
        obtain ⟨fw', ⟨_, _, _, _, rfl⟩, hr⟩ :=
          snRadioBleStart_outcome hready fw.bleIntervalMs fw.bleWindowMs fw.blePhys
        by_cases hzero : (snRadioBleStart fw fw.bleIntervalMs fw.bleWindowMs fw.blePhys).2 = 0
        · refine ⟨fun _ => ?_, fun _ => ?_⟩
          · rw [hr, if_pos hzero]
            exact hready
          · rw [hlog]
            exact scanOn_issued (hok.mp hzero)
        · have hflags : (snRadioBleStart fw fw.bleIntervalMs fw.bleWindowMs fw.blePhys).1.ble.running
              = fw.ble.running := by
            rw [hr, if_neg hzero]
            rfl
          refine ⟨fun _ => ?_, fun hrun => ?_⟩
          · rw [hr, if_neg hzero]
            exact hready
          · rw [hflags] at hrun
            rw [hlog]
            rcases hrestart hselected hrun with hreset | hall
            · rw [issues_refused _ _ _ _ hreset]
              refine (h.scan hrun).append ?_
              intro y hy _
              rw [List.mem_singleton.mp hy]
              exact hreset
            · exact absurd (hok.mpr ((issued_all_ok_iff _ _).mpr hall)) hzero
  unfold startBle
  simp only
  split
  · exact hstart.keeps (.same rfl rfl rfl)
  · exact hstart

/-! ## Every run -/

/-- The condition on a step. -/
def StartHolds (p : Platform) (fw : Firmware) : Input → Prop
  | .hostFrame .controlCmd (command :: _ :: _ :: _ :: _ :: _) =>
      p.command command = .start → RestartHolds fw
  | _ => True

theorem onCommand_flagHolds {p : Platform} {fw fw' : Firmware} {command : UInt8} {value : UInt32}
    (h : FlagHolds fw) (hrestart : p.command command = .start → RestartHolds fw)
    (hs : onCommand p fw command value = some fw') : FlagHolds fw' := by
  unfold onCommand at hs
  split at hs
  case h_1 => exact h.keeps (onSetRadio_keeps hs)
  case h_2 =>
    cases hs
    refine h.keeps ?_
    unfold onSetBlePhys
    split
    · exact .same rfl rfl rfl
    · exact .same rfl rfl rfl
  case h_3 => cases hs; exact h.keeps (.same rfl rfl rfl)
  case h_4 => cases hs; exact h.keeps (.same rfl rfl rfl)
  case h_5 => exact h.keeps (onSetChannel_keeps hs)
  case h_6 hcommand =>
    cases hs
    unfold onStart
    split
    · rename_i hselected
      exact (startBle_flagHolds h hselected (hrestart hcommand)).keeps (.same rfl rfl rfl)
    · exact h.keeps (.same rfl rfl rfl)
  case h_7 =>
    obtain ⟨⟨fw₁, err⟩, hstopped, heq⟩ := Option.map_eq_some_iff.mp hs
    cases heq
    exact h.keeps ((stopRadio_keeps hstopped).reply _ _ _ _)
  case h_8 => exact h.keeps (onGetInfo_keeps hs)
  case h_9 => cases hs; exact h.keeps ((setAntenna_keeps fw value).reply _ _ _ _)
  case h_10 => cases hs; exact h.keeps (onEnergyDetect_keeps p fw command value)
  case h_11 => cases hs; exact h.keeps (.same rfl rfl rfl)

/-- Every step that meets the condition keeps the implication. -/
theorem step_flagHolds {p : Platform} {fw fw' : Firmware} {i : Input} (h : FlagHolds fw)
    (hstart : StartHolds p fw i) (hs : step p fw i = some fw') : FlagHolds fw' := by
  cases i with
  | hostFrame type payload =>
      have hs : snControlHandle p fw type payload = some fw' := hs
      unfold snControlHandle at hs
      split at hs
      · cases hs
        exact h.keeps (.same rfl rfl rfl)
      · obtain ⟨⟨fw₁, err⟩, hkeys, heq⟩ := Option.map_eq_some_iff.mp hs
        cases heq
        exact h.keeps (snRadioBleSetKeys_keeps hkeys)
      · exact onCommand_flagHolds h hstart hs
      · cases hs
        exact h
  | received pkt =>
      obtain ⟨captured, batcher, outbox, rfl, _⟩ := receive_effect hs
      exact h.keeps (.same rfl rfl rfl)
  | hciPacket h4 data now =>
      obtain ⟨_, hs⟩ := Option.ite_none_right_eq_some.mp hs
      obtain ⟨slot, batch, stats, follow, outbox, rfl, _⟩ := fwdLoop_effect hs
      exact h.keeps (.same rfl rfl rfl)
  | batchLinger =>
      obtain ⟨batcher, outbox, rfl, _⟩ := batchLinger_effect hs
      exact h.keeps (.same rfl rfl rfl)
  | bleLinger =>
      obtain ⟨batch, stats, outbox, rfl, _⟩ := bleLinger_effect hs
      exact h.keeps (.same rfl rfl rfl)
  | syncWork => exact h.keeps (.ofAside (step_aside rfl hs) (syncWorkFn_logAdds hs))
  | bigWork uptime =>
      refine h.keeps (.ofAside (step_aside rfl hs) ?_)
      obtain ⟨_, hs⟩ := Option.ite_none_right_eq_some.mp hs
      cases hs
      exact bigWorkFn_logAdds fw uptime
  | isoPathWork => exact h.keeps (.ofAside (step_aside rfl hs) (isoPathWorkFn_logAdds hs))
  | radioEvent event => cases hs; exact h.keeps (.same rfl rfl rfl)
  | statsRead =>
      obtain ⟨_, rfl⟩ := statsRead_eq hs
      exact h.keeps (.same rfl rfl rfl)
  | linkRead queued =>
      obtain ⟨_, rfl⟩ := linkRead_eq hs
      exact h.keeps (.same rfl rfl rfl)
  | tickSend =>
      obtain ⟨f, _, rfl⟩ := tickSend_eq hs
      exact h.keeps (.same rfl rfl rfl)
  | log =>
      refine h.keeps (.ofAside (step_aside rfl hs) (.same ?_))
      have hs : processLog p fw = some fw' := hs
      unfold processLog at hs
      split at hs
      · cases hs
      · cases hs
        rfl

/-- **The flag never outlives the scan**, in every run whose restarts hold. -/
theorem scanOn_of_startHolds {p : Platform} {w : World} {inputs : List Input} {t : Firmware}
    (hmeets : (machine p).RunMeets (StartHolds p) (boot w) inputs)
    (hrun : (machine p).run (boot w) inputs = some t) (hflag : t.ble.running = true) :
    ScanOn t.hci.log := by
  have hinit : FlagHolds (boot w) := ⟨(by intro h; cases h), (by intro h; cases h)⟩
  have h := (machine p).run_invariant_of
    (fun _ _ _ h hcond hstep => step_flagHolds h hcond hstep) hinit hmeets hrun
  exact h.scan hflag

/-! ## A restart that fails -/

/-- SET_RADIO to BLE, START, and START again. -/
def restart : List Input :=
  [.hostFrame .controlCmd [4, 2, 0, 0, 0], .hostFrame .controlCmd [2, 0, 0, 0, 0],
   .hostFrame .controlCmd [2, 0, 0, 0, 0]]

instance decidableRestartHolds (fw : Firmware) : Decidable (RestartHolds fw) :=
  inferInstanceAs (Decidable (fw.selectedRadio = radioBle → fw.ble.running = true →
    fw.hci.next.accepted = false ∨
      ∀ i < (startScript fw.ble fw.bleIntervalMs fw.bleWindowMs fw.blePhys).length,
        (fw.hci.answers (fw.hci.log.length + i)).accepted = true))

/-- The board after SET_RADIO and the first START. -/
def selectedBle : Firmware :=
  reply fullPlatform { boot calmWorld with selectedRadio := radioBle } 4 .ok 2

theorem scanOn_of_startHolds_restart :
    ∃ t, (machine fullPlatform).run (boot calmWorld) restart = some t ∧
      t.ble.running = true ∧ ScanOn t.hci.log := by
  have hmeets : (machine fullPlatform).RunMeets (StartHolds fullPlatform) (boot calmWorld)
      restart := by
    refine ⟨nofun, fun s₁ h₁ => ⟨fun _ => ?_, fun s₂ h₂ => ⟨fun _ => ?_, fun _ _ => trivial⟩⟩⟩
    · have heq : selectedBle = s₁ := Option.some.inj h₁
      rw [← heq]
      decide +kernel
    · have heq : selectedBle = s₁ := Option.some.inj h₁
      rw [← heq] at h₂
      have heq : onStart fullPlatform selectedBle 2 = s₂ := Option.some.inj h₂
      rw [← heq]
      decide +kernel
  have hruns : (((machine fullPlatform).run (boot calmWorld) restart).any fun t =>
      t.ble.running) = true := by decide +kernel
  obtain ⟨t, ht, hflag⟩ := (Option.any_eq_true _ _).mp hruns
  exact ⟨t, ht, hflag, scanOn_of_startHolds hmeets ht hflag⟩

/-- **A restart that fails.** The controller accepts the Reset of the second
START and refuses the next command. START answers FAILED, the flag is still
set, and the controller was reset last. -/
theorem failed_restart_keeps_flag :
    ¬ ∀ (p : Platform) (w : World) (inputs : List Input) (t : Firmware),
      (machine p).run (boot w) inputs = some t → t.ble.running = true → ScanOn t.hci.log := by
  intro hall
  let w : World :=
    { calmWorld with hciAnswers := fun n => if n = 10 then .answered 0x0C else .answered 0 }
  have hruns : (((machine fullPlatform).run (boot w) restart).any fun t =>
      t.ble.running && !decide (ScanOn t.hci.log)) = true := by decide +kernel
  obtain ⟨t, ht, hbad⟩ := (Option.any_eq_true _ _).mp hruns
  obtain ⟨hflag, hoff⟩ := Bool.and_eq_true_iff.mp hbad
  have hoff : ¬ ScanOn t.hci.log := by simpa using hoff
  exact hoff (hall fullPlatform w restart t ht hflag)

end Nrf54Sniffer.Board
