/-
Nrf54Sniffer.Control.ScanTiming — the interval and the window START gives the
controller.

SET_BLE_SCAN stores two numbers of milliseconds. START puts the interval where
none was asked for, cuts the window to it, and only then turns both into units
of 0.625 ms, in sixteen bits. `asked` says what the host asked for in natural
numbers; the controller is told that up to an interval of 40959 ms. From 40960
on the units wrap, and a window just below the limit can come out longer than
its interval (`window_outgrows_interval`).
-/
import Nrf54Sniffer.Ble.ControllerTheorems
import Nrf54Sniffer.Control.Domain

namespace Nrf54Sniffer.Control

open Nrf54Sniffer.Lib
open Nrf54Sniffer.Wire
open Nrf54Sniffer.Ble
open Nrf54Sniffer.Board

/-! ## The timing asked for -/

/-- The interval in milliseconds: 60 where none is given. -/
def askedInterval (intervalMs : Nat) : Nat := if intervalMs = 0 then 60 else intervalMs

/-- The window: the whole interval where none is given, or too much. -/
def askedWindow (intervalMs windowMs : Nat) : Nat :=
  if windowMs = 0 ∨ windowMs > askedInterval intervalMs then askedInterval intervalMs else windowMs

/-- The commands that carry scan parameters. -/
def setsScan (c : HciCommand) : Bool :=
  c.opcode == opLeSetScanParam || c.opcode == opLeSetExtScanParam

/-- The blocks of scan parameters a command sets, as the controller reads
them. -/
def scanBlocks (c : HciCommand) : List PhyScan :=
  if c.opcode = opLeSetScanParam then (setScanParam {} c.params).scan.elim [] Scan.each
  else if c.opcode = opLeSetExtScanParam then (setExtScanParam {} c.params).scan.elim [] Scan.each
  else []

/-- Every block a command sets has the timing asked for, in units of 0.625 ms,
and a window no longer than its interval. -/
def TimedAsAsked (intervalMs windowMs : Nat) (c : HciCommand) : Prop :=
  ∀ b ∈ scanBlocks c, b.interval = askedInterval intervalMs * 1000 / 625 ∧
    b.window = askedWindow intervalMs windowMs * 1000 / 625 ∧ b.window ≤ b.interval

theorem scanInterval_toNat (intervalMs : UInt16) :
    (scanInterval intervalMs).toNat = askedInterval intervalMs.toNat := by
  have hzero : intervalMs = 0 ↔ intervalMs.toNat = 0 := UInt16.toNat_inj.symm
  unfold scanInterval askedInterval
  simp only [hzero]
  split
  · rfl
  · rfl

theorem scanWindow_toNat (intervalMs windowMs : UInt16) :
    (scanWindow (scanInterval intervalMs) windowMs).toNat
      = askedWindow intervalMs.toNat windowMs.toNat := by
  have hzero : windowMs = 0 ↔ windowMs.toNat = 0 := UInt16.toNat_inj.symm
  have hlong : windowMs > scanInterval intervalMs ↔
      windowMs.toNat > askedInterval intervalMs.toNat := by
    rw [← scanInterval_toNat]
    exact UInt16.lt_iff_toNat_lt
  unfold scanWindow askedWindow
  simp only [hzero, hlong]
  split
  · exact scanInterval_toNat intervalMs
  · rfl

/-! ## The script -/

/-- The command of `scanScript` that carries the parameters. -/
def scanParam (s : BleRadio) (phys : UInt8) (interval window : UInt16) : HciCommand :=
  if phys = 0 then ⟨opLeSetScanParam, legacyScanParams s interval window⟩
  else ⟨opLeSetExtScanParam, extScanParams s phys interval window⟩

/-- The one that switches the scan on. -/
def scanEnable (phys : UInt8) : HciCommand :=
  if phys = 0 then ⟨opLeSetScanEnable, [0x01, 0x00]⟩
  else ⟨opLeSetExtScanEnable, [0x01, 0x00, 0x00, 0x00, 0x00, 0x00]⟩

theorem scanScript_eq (s : BleRadio) (phys : UInt8) (interval window : UInt16) :
    scanScript s phys interval window = [scanParam s phys interval window, scanEnable phys] := by
  unfold scanScript scanParam scanEnable
  split
  · rfl
  · rfl

/-- One block for each PHY, all with the same timing. -/
theorem scanBlocks_scanParam (s : BleRadio) (phys : UInt8) (interval window : UInt16) :
    scanBlocks (scanParam s phys interval window)
      = List.replicate (phyCount phys)
          { passive := true, interval := interval.toNat, window := window.toNat } := by
  unfold scanParam phyCount
  split
  · rw [← phyScan_putLe16]
    rfl
  · rw [← phyScans_blocks]
    rfl

/-- Only two commands carry blocks. -/
theorem scanBlocks_of_not_setsScan {c : HciCommand} (h : setsScan c = false) :
    scanBlocks c = [] := by
  obtain ⟨hlegacy, hext⟩ := Bool.or_eq_false_iff.mp h
  rw [scanBlocks, if_neg (beq_eq_false_iff_ne.mp hlegacy), if_neg (beq_eq_false_iff_ne.mp hext)]

theorem setsScan_scanParam (s : BleRadio) (phys : UInt8) (interval window : UInt16) :
    setsScan (scanParam s phys interval window) = true := by
  unfold scanParam
  split
  · rfl
  · rfl

theorem setsScan_scanEnable (phys : UInt8) : setsScan (scanEnable phys) = false := by
  unfold scanEnable
  split
  · rfl
  · rfl

/-- Before its scan parameters START carries none. -/
theorem setupScript_not_setsScan (s : BleRadio) : ∀ c ∈ setupScript s, setsScan c = false := by
  have hnone : (setupOpcodes.all fun op =>
      !(op == opLeSetScanParam || op == opLeSetExtScanParam)) = true := by decide
  intro c hc
  have hop := List.all_eq_true.mp hnone c.opcode (setupScript_opcode s c hc)
  exact (Bool.not_eq_true' _).mp hop

/-! ## Every START -/

/-- START comes to its scan parameters: the controller is ready, and accepts
every command of the setup. -/
def ReachesScan (fw : Firmware) : Prop :=
  fw.ble.ready = true ∧
    ∀ i < (setupScript fw.ble).length,
      (fw.hci.answers (fw.hci.log.length + i)).accepted = true

/-- What START sends that carries scan parameters: one command, where it comes
to it. -/
theorem start_setsScan (fw : Firmware) (intervalMs windowMs : UInt16) (phys : UInt8) :
    ∃ sent, (snRadioBleStart fw intervalMs windowMs phys).1.hci.log = fw.hci.log ++ sent ∧
      ∀ c, (c ∈ sent.map Prod.fst ∧ setsScan c = true) ↔
        ReachesScan fw ∧ c = scanParam fw.ble phys (unitsPerMs (scanInterval intervalMs))
          (unitsPerMs (scanWindow (scanInterval intervalMs) windowMs)) := by
  cases hready : fw.ble.ready with
  | false =>
      refine ⟨[], by simp [snRadioBleStart, hready], fun c => ?_⟩
      simp [ReachesScan, hready]
  | true =>
      have hlog := congrArg HciBus.log (snRadioBleStart_hci hready intervalMs windowMs phys)
      refine ⟨_, hlog, fun c => ?_⟩
      have hbefore : ∀ (k : Nat) (d : HciCommand), d ∈ (issued HciAnswer.accepted fw.hci.answers k
          (setupScript fw.ble)).map Prod.fst → setsScan d = false := by
        intro k d hd
        obtain ⟨x, hx, rfl⟩ := List.mem_map.mp hd
        exact setupScript_not_setsScan fw.ble x.1 (mem_of_mem_issued hx)
      by_cases hsetup : ∀ i < (setupScript fw.ble).length,
          (fw.hci.answers (fw.hci.log.length + i)).accepted = true
      · have hissued : fw.hci.issues (startScript fw.ble intervalMs windowMs phys) = _ :=
          issued_append_ok _ hsetup
        rw [hissued, scanScript_eq, List.map_append, List.mem_append]
        constructor
        · rintro ⟨hc | hc, hsets⟩
          · rw [hbefore _ c hc] at hsets
            cases hsets
          · obtain ⟨x, hx, rfl⟩ := List.mem_map.mp hc
            rcases List.mem_cons.mp (mem_of_mem_issued hx) with heq | hx
            · exact ⟨⟨hready, hsetup⟩, heq⟩
            · rw [List.mem_singleton.mp hx, setsScan_scanEnable] at hsets
              cases hsets
        · rintro ⟨_, rfl⟩
          exact ⟨.inr (by simp [issued]), setsScan_scanParam _ _ _ _⟩
      · have hissued : fw.hci.issues (startScript fw.ble intervalMs windowMs phys) = _ :=
          issued_append_refused _ hsetup
        rw [hissued]
        constructor
        · rintro ⟨hc, hsets⟩
          rw [hbefore _ c hc] at hsets
          cases hsets
        · rintro ⟨⟨_, hreached⟩, _⟩
          exact absurd hreached hsetup

/-- The parameters carry the timing asked for exactly where the interval fits
its sixteen bits: the window is no longer. -/
theorem timedAsAsked_scanParam_iff (s : BleRadio) (phys : UInt8) (intervalMs windowMs : UInt16) :
    TimedAsAsked intervalMs.toNat windowMs.toNat
        (scanParam s phys (unitsPerMs (scanInterval intervalMs))
          (unitsPerMs (scanWindow (scanInterval intervalMs) windowMs))) ↔
      askedInterval intervalMs.toNat ≤ 40959 := by
  have hpos := phyCount_pos phys
  have hwindow := scanWindow_le (scanInterval intervalMs) windowMs
  have hunits := unitsPerMs_toNat (scanInterval intervalMs)
  have hunits' := unitsPerMs_toNat (scanWindow (scanInterval intervalMs) windowMs)
  simp only [scanUnits, scanInterval_toNat, scanWindow_toNat] at hunits hunits' hwindow
  unfold TimedAsAsked
  rw [scanBlocks_scanParam]
  constructor
  · intro h
    have hblock := h _ (List.mem_replicate.mpr ⟨Nat.pos_iff_ne_zero.mp hpos, rfl⟩)
    have hinterval := hblock.1
    simp only at hinterval
    omega
  · intro hfits b hb
    have hlt : askedInterval intervalMs.toNat * 1000 / 625 < 65536 := by omega
    have hle : askedWindow intervalMs.toNat windowMs.toNat * 1000 / 625
        ≤ askedInterval intervalMs.toNat * 1000 / 625 :=
      Nat.div_le_div_right (Nat.mul_le_mul_right 1000 hwindow)
    rw [Nat.mod_eq_of_lt hlt] at hunits
    rw [Nat.mod_eq_of_lt (Nat.lt_of_le_of_lt hle hlt)] at hunits'
    obtain ⟨_, rfl⟩ := List.mem_replicate.mp hb
    dsimp only
    rw [hunits, hunits']
    exact ⟨rfl, rfl, hle⟩

/-- A frame with SET_BLE_SCAN: the interval in the low half of its value, the
window in the high half. -/
def setBleScanFrame (command : UInt8) (intervalMs windowMs : UInt16) : List UInt8 :=
  command :: (putLe16 intervalMs ++ putLe16 windowMs)

/-- SET_BLE_SCAN stores both, whatever they are, and answers OK. -/
theorem setBleScan_stores {p : Platform} {command : UInt8}
    (hcommand : p.command command = .setBleScan)
    (fw : Firmware) (intervalMs windowMs : UInt16) :
    ∃ value, snControlHandle p fw .controlCmd (setBleScanFrame command intervalMs windowMs)
      = some (reply p { fw with bleIntervalMs := intervalMs, bleWindowMs := windowMs } command .ok
          value) := by
  refine ⟨getLe32 (intervalMs &&& 0xFF).toUInt8 (intervalMs >>> 8).toUInt8
    (windowMs &&& 0xFF).toUInt8 (windowMs >>> 8).toUInt8, ?_⟩
  simp only [setBleScanFrame, putLe16, List.cons_append, List.nil_append, snControlHandle,
    onCommand, hcommand, onSetBleScan, getLe32_low, getLe32_high, getLe16_putLe16]

theorem startBle_hci (fw : Firmware) :
    (startBle fw).1.hci
      = (snRadioBleStart fw fw.bleIntervalMs fw.bleWindowMs fw.blePhys).1.hci := by
  unfold startBle
  dsimp only
  split
  · rfl
  · rfl

/-- **The scan is timed as asked.** Whatever SET_BLE_SCAN stores, and whatever
else the board holds, the scan parameters of the START that follows have one
block for each PHY, and each carries the interval and the window asked for:
exactly where the interval is at most 40959 ms, or START does not come to its
scan parameters. -/
theorem scan_timing_iff {p : Platform} {scan start : UInt8}
    (hscan : p.command scan = .setBleScan) (hstart : p.command start = .start) {fw : Firmware}
    (hselected : fw.selectedRadio = radioBle) (intervalMs windowMs : UInt16)
    (b0 b1 b2 b3 : UInt8) :
    ∃ fw' fw'' sent,
      snControlHandle p fw .controlCmd (setBleScanFrame scan intervalMs windowMs) = some fw' ∧
      snControlHandle p fw' .controlCmd [start, b0, b1, b2, b3] = some fw'' ∧
      fw''.hci.log = fw.hci.log ++ sent ∧
      (∀ c ∈ sent.map Prod.fst, setsScan c = true →
        (scanBlocks c).length = phyCount fw.blePhys) ∧
      ((∀ c ∈ sent.map Prod.fst, TimedAsAsked intervalMs.toNat windowMs.toNat c) ↔
        (ReachesScan fw → askedInterval intervalMs.toNat ≤ 40959)) := by
  obtain ⟨value, hstored⟩ := setBleScan_stores hscan fw intervalMs windowMs
  let fw₁ := reply p { fw with bleIntervalMs := intervalMs, bleWindowMs := windowMs } scan .ok value
  obtain ⟨sent, hlog, hsent⟩ := start_setsScan fw₁ intervalMs windowMs fw.blePhys
  refine ⟨fw₁, reply p (startBle fw₁).1 start (okOrFailed (startBle fw₁).2) 0, sent, hstored,
    ?_, ?_, ?_, ?_⟩
  · have hselected₁ : fw₁.selectedRadio = radioBle := hselected
    simp only [snControlHandle, onCommand, hstart, onStart, if_pos hselected₁]
  · show (startBle fw₁).1.hci.log = _
    rw [startBle_hci]
    exact hlog
  · intro c hc hsets
    obtain ⟨_, rfl⟩ := (hsent c).mp ⟨hc, hsets⟩
    rw [scanBlocks_scanParam, List.length_replicate]
  · constructor
    · intro h hreaches
      have hmem := (hsent _).mpr ⟨hreaches, rfl⟩
      exact (timedAsAsked_scanParam_iff _ _ _ _).mp (h _ hmem.1)
    · intro hfits c hc
      cases hsets : setsScan c with
      | false =>
          intro b hb
          rw [scanBlocks_of_not_setsScan hsets] at hb
          cases hb
      | true =>
          obtain ⟨hreaches, rfl⟩ := (hsent c).mp ⟨hc, hsets⟩
          exact (timedAsAsked_scanParam_iff _ _ _ _).mpr (hfits hreaches)

/-- A platform with SET_RADIO as 1, SET_BLE_SCAN as 2 and START as 3. -/
def scanPlatform : Platform where
  command
    | 1 => .setRadio
    | 2 => .setBleScan
    | 3 => .start
    | _ => .unknown
  status := plainPlatform.status
  format := plainPlatform.format

/-- A scan every 100 ms for 50 ms, on a board with BLE selected. -/
theorem scan_timing_iff_hundred :
    let fw : Firmware := { boot calmWorld with selectedRadio := radioBle }
    ∃ fw' fw'' sent,
      snControlHandle scanPlatform fw .controlCmd (setBleScanFrame 2 100 50) = some fw' ∧
      snControlHandle scanPlatform fw' .controlCmd [3, 0, 0, 0, 0] = some fw'' ∧
      fw''.hci.log = fw.hci.log ++ sent ∧
      (∀ c ∈ sent.map Prod.fst, setsScan c = true → (scanBlocks c).length = phyCount fw.blePhys) ∧
      ((∀ c ∈ sent.map Prod.fst, TimedAsAsked 100 50 c) ↔
        (ReachesScan fw → askedInterval 100 ≤ 40959)) :=
  @scan_timing_iff scanPlatform 2 3 rfl rfl _ rfl 100 50 0 0 0 0

/-- **A window longer than its interval.** Asked to scan for 40959 ms of every
60000, a board that boots calmly answers OK and tells its controller a window
of 65534 units in an interval of 30464. -/
theorem window_outgrows_interval :
    ∃ fw, (machine scanPlatform).run (boot calmWorld)
        [.hostFrame .controlCmd [1, 2, 0, 0, 0],
         .hostFrame .controlCmd (setBleScanFrame 2 60000 40959),
         .hostFrame .controlCmd [3, 0, 0, 0, 0]] = some fw ∧
      Answers scanPlatform fw 3 .ok ∧
      ∃ c ∈ fw.hci.log.map Prod.fst,
        scanBlocks c = [{ passive := true, interval := 30464, window := 65534 }] ∧
          ¬TimedAsAsked 60000 40959 c := by
  have hruns : (((machine scanPlatform).run (boot calmWorld)
      [.hostFrame .controlCmd [1, 2, 0, 0, 0],
       .hostFrame .controlCmd (setBleScanFrame 2 60000 40959),
       .hostFrame .controlCmd [3, 0, 0, 0, 0]]).any fun fw =>
        fw.outbox.log.getLast? ==
            some (⟨.controlReply, replyPayload scanPlatform 3 .ok 0⟩, .sent 16) &&
          (fw.hci.log.map Prod.fst).any fun c =>
            scanBlocks c == [{ passive := true, interval := 30464, window := 65534 }]) = true := by
    decide +kernel
  obtain ⟨fw, hrun, hfacts⟩ := (Option.any_eq_true _ _).mp hruns
  obtain ⟨hreply, hsent⟩ := Bool.and_eq_true_iff.mp hfacts
  obtain ⟨c, hc, hblocks⟩ := List.any_eq_true.mp hsent
  have hblocks := beq_iff_eq.mp hblocks
  refine ⟨fw, hrun, ⟨0, _, beq_iff_eq.mp hreply⟩, c, hc, hblocks, fun htimed => ?_⟩
  have hblock := htimed { passive := true, interval := 30464, window := 65534 } (by simp [hblocks])
  exact absurd hblock.2.2 (by decide)

end Nrf54Sniffer.Control
