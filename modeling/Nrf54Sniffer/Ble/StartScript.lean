/-
Nrf54Sniffer.Ble.StartScript — START as a script of commands.

The filter and the keys do not change while START runs, so the commands it
would send are known when it begins: `startScript`. `snRadioBleStart_eq` says
that it sends this script up to the first command that is not accepted, and
that `scan_started` follows when all are.
-/
import Nrf54Sniffer.Ble.CommandTheorems
import Nrf54Sniffer.Lib.Script

namespace Nrf54Sniffer.Ble

open Nrf54Sniffer.Lib
open Nrf54Sniffer.Wire
open Nrf54Sniffer.Board

/-! ## The script -/

/-- The command completed, with success. -/
def HciAnswer.accepted (a : HciAnswer) : Bool := a == .answered hciSuccess

/-- The commands of `apply_keys`. -/
def keyScript (s : BleRadio) : List HciCommand :=
  [⟨opLeSetAddrResEnable, [0x00]⟩, ⟨opLeClearRl, []⟩] ++
  (List.range s.keyCount).flatMap (fun i => keyCommands (keyAt s i)) ++
  if s.keyCount > 0 then [⟨opLeSetAddrResEnable, [0x01]⟩] else []

/-- The commands of `apply_filter`. -/
def filterScript (s : BleRadio) : List HciCommand :=
  keyScript s ++ [⟨opLeClearFal, []⟩] ++ s.filter.map fun entry => ⟨opLeAddDevToFal, entry⟩

/-- The scan parameters and the enable, legacy or extended. -/
def scanScript (s : BleRadio) (phys : UInt8) (interval window : UInt16) : List HciCommand :=
  if phys = 0 then
    [⟨opLeSetScanParam, legacyScanParams s interval window⟩, ⟨opLeSetScanEnable, [0x01, 0x00]⟩]
  else
    [⟨opLeSetExtScanParam, extScanParams s phys interval window⟩,
     ⟨opLeSetExtScanEnable, [0x01, 0x00, 0x00, 0x00, 0x00, 0x00]⟩]

/-- The commands before the scan parameters. -/
def setupScript (s : BleRadio) : List HciCommand :=
  [⟨opReset, []⟩, ⟨opSetEventMask, allEvents⟩, ⟨opLeSetEventMask, allLeEvents⟩,
   ⟨opLeSetRandomAddress, staticRandomAddr⟩] ++ filterScript s

/-- Every command of START. -/
def startScript (s : BleRadio) (intervalMs windowMs : UInt16) (phys : UInt8) : List HciCommand :=
  setupScript s ++
    scanScript s phys (unitsPerMs (scanInterval intervalMs))
      (unitsPerMs (scanWindow (scanInterval intervalMs) windowMs))

/-! ## Scripts and `andThen` -/

theorem sendAll_append (fw : Firmware) (cs ds : List HciCommand) :
    sendAll fw (cs ++ ds) = andThen (sendAll fw cs) fun fw' => sendAll fw' ds := by
  induction cs generalizing fw with
  | nil => rfl
  | cons c cs ih =>
      simp only [List.cons_append, sendAll]
      unfold andThen
      split
      · exact ih _
      · rfl

/-- One command is a script. -/
theorem sendCommand_eq_sendAll (fw : Firmware) (opcode : UInt16) (params : List UInt8) :
    sendCommand fw opcode params = sendAll fw [⟨opcode, params⟩] := by
  simp only [sendAll]
  unfold andThen
  split
  · rename_i hzero
    rw [← hzero]
  · rfl

/-- A script and then what comes to a script again, in every state commands can
leave. -/
theorem sendAll_andThen {fw : Firmware} {cs ds : List HciCommand}
    {next : Firmware → Firmware × Int}
    (hnext : ∀ fw', OnlyHci fw fw' → next fw' = sendAll fw' ds) :
    andThen (sendAll fw cs) next = sendAll fw (cs ++ ds) := by
  rw [sendAll_append]
  unfold andThen
  split
  · exact hnext _ (OnlyHci.sendAll (.refl fw) cs)
  · rfl

/-- The same, one command at a time. -/
theorem sendCommand_andThen {fw : Firmware} {opcode : UInt16} {params : List UInt8}
    {ds : List HciCommand} {next : Firmware → Firmware × Int}
    (hnext : ∀ fw', OnlyHci fw fw' → next fw' = sendAll fw' ds) :
    andThen (sendCommand fw opcode params) next = sendAll fw (⟨opcode, params⟩ :: ds) := by
  rw [sendCommand_eq_sendAll, sendAll_andThen hnext]
  rfl

/-- Commands leave the filter and the keys as they are. -/
theorem OnlyHci.tables {fw fw' : Firmware} (h : OnlyHci fw fw') :
    fw'.ble.filter = fw.ble.filter ∧ fw'.ble.keys = fw.ble.keys ∧
      fw'.ble.keyCount = fw.ble.keyCount := by
  obtain ⟨_, _, _, _, rfl⟩ := h
  exact ⟨rfl, rfl, rfl⟩

theorem OnlyHci.keyAt {fw fw' : Firmware} (h : OnlyHci fw fw') (i : Nat) :
    keyAt fw'.ble i = keyAt fw.ble i := by
  unfold Ble.keyAt
  rw [h.tables.2.1]

theorem OnlyHci.keyScript {fw fw' : Firmware} (h : OnlyHci fw fw') :
    keyScript fw'.ble = keyScript fw.ble := by
  unfold Ble.keyScript
  simp only [h.keyAt, h.tables.2.2]

theorem OnlyHci.filterScript {fw fw' : Firmware} (h : OnlyHci fw fw') :
    filterScript fw'.ble = filterScript fw.ble := by
  unfold Ble.filterScript
  rw [h.keyScript, h.tables.1]

theorem OnlyHci.filterPolicy {fw fw' : Firmware} (h : OnlyHci fw fw') :
    filterPolicy fw'.ble = filterPolicy fw.ble := by
  unfold Ble.filterPolicy
  rw [h.tables.1]

theorem OnlyHci.scanScript {fw fw' : Firmware} (h : OnlyHci fw fw') (phys : UInt8)
    (interval window : UInt16) :
    scanScript fw'.ble phys interval window = scanScript fw.ble phys interval window := by
  unfold Ble.scanScript legacyScanParams extScanParams
  rw [h.filterPolicy]

/-! ## START -/

theorem applyKeys_eq (fw : Firmware) : applyKeys fw = sendAll fw (keyScript fw.ble) := by
  have hlast : ∀ fw', OnlyHci fw fw' →
      (if fw'.ble.keyCount > 0 then sendCommand fw' opLeSetAddrResEnable [0x01] else (fw', 0))
        = sendAll fw' (if fw.ble.keyCount > 0 then [⟨opLeSetAddrResEnable, [0x01]⟩] else []) := by
    intro fw' h
    rw [h.tables.2.2]
    split
    · exact sendCommand_eq_sendAll fw' _ _
    · rfl
  refine sendCommand_andThen fun fw₁ h₁ => ?_
  refine sendCommand_andThen fun fw₂ h₂ => ?_
  simp only [(h₁.trans h₂).keyAt, (h₁.trans h₂).tables.2.2]
  exact sendAll_andThen fun fw₃ h₃ => hlast fw₃ ((h₁.trans h₂).trans h₃)

theorem applyFilter_eq (fw : Firmware) : applyFilter fw = sendAll fw (filterScript fw.ble) := by
  unfold applyFilter filterScript
  rw [applyKeys_eq, List.append_assoc]
  refine sendAll_andThen fun fw₁ h₁ => ?_
  refine sendCommand_andThen fun fw₂ h₂ => ?_
  rw [(h₁.trans h₂).tables.1]
  rfl

theorem scanSetup_eq (fw : Firmware) : scanSetup fw = sendAll fw (setupScript fw.ble) := by
  refine sendCommand_andThen fun fw₁ h₁ => ?_
  refine sendCommand_andThen fun fw₂ h₂ => ?_
  refine sendCommand_andThen fun fw₃ h₃ => ?_
  refine sendCommand_andThen fun fw₄ h₄ => ?_
  rw [applyFilter_eq, (((h₁.trans h₂).trans h₃).trans h₄).filterScript]
  rfl

/-- The scan commands are a script. -/
theorem startScan_eq (fw : Firmware) (phys : UInt8) (interval window : UInt16) :
    (if phys = 0 then startLegacyScan fw interval window
      else startExtScan fw phys interval window) = sendAll fw (scanScript fw.ble phys interval window) := by
  unfold scanScript
  split
  · exact sendCommand_andThen fun fw₁ _ => sendCommand_eq_sendAll fw₁ _ _
  · exact sendCommand_andThen fun fw₁ _ => sendCommand_eq_sendAll fw₁ _ _

theorem andThen_assoc (r : Firmware × Int) (f g : Firmware → Firmware × Int) :
    andThen r (fun fw => andThen (f fw) g) = andThen (andThen r f) g := by
  unfold andThen
  split
  · rfl
  · rfl

/-! ## The outcome -/

/-- A command is on the bus, however it is answered. -/
theorem hciCommand_hci (fw : Firmware) (opcode : UInt16) (params : List UInt8) :
    (hciCommand fw opcode params).1.hci = fw.hci.push ⟨opcode, params⟩ := by
  unfold hciCommand
  cases fw.hci.next with
  | noBuffer => rfl
  | sendError code => rfl
  | timedOut => rfl
  | answered status => rfl

/-- It leaves following alone. -/
theorem hciCommand_follow (fw : Firmware) (opcode : UInt16) (params : List UInt8) :
    (hciCommand fw opcode params).1.ble.follow = fw.ble.follow := by
  unfold hciCommand
  cases fw.hci.next with
  | noBuffer => rfl
  | sendError code => rfl
  | timedOut => rfl
  | answered status => rfl

/-- It succeeds when it is accepted. An opcode of 0 would not be matched to any
answer. -/
theorem hciCommand_ok_iff (fw : Firmware) {opcode : UInt16} (params : List UInt8)
    (hop : opcode ≠ 0) :
    (hciCommand fw opcode params).2.1 = 0 ↔ fw.hci.next.accepted = true := by
  unfold hciCommand
  cases hnext : fw.hci.next with
  | noBuffer => simp [eNoBufs, HciAnswer.accepted]
  | sendError code =>
      simp only [HciAnswer.accepted, beq_iff_eq, reduceCtorEq, iff_false]
      omega
  | timedOut => simp [eTimedOut, HciAnswer.accepted]
  | answered status =>
      have hcredit : ((CmdSlot.arm opcode).credit opcode status).taken.pendingStatus = status := by
        simp [CmdSlot.credit, CmdSlot.arm, CmdSlot.taken, hop]
      simp only [hcredit]
      by_cases hstatus : status = 0
      · simp [hstatus, HciAnswer.accepted, hciSuccess]
      · simp [hstatus, HciAnswer.accepted, hciSuccess, eIo]

/-- The three of `send_command`. -/
theorem sendCommand_spec (fw : Firmware) {opcode : UInt16} (params : List UInt8)
    (hop : opcode ≠ 0) :
    (sendCommand fw opcode params).1.ble.follow = fw.ble.follow ∧
    (sendCommand fw opcode params).1.hci = fw.hci.push ⟨opcode, params⟩ ∧
    ((sendCommand fw opcode params).2 = 0 ↔ fw.hci.next.accepted = true) := by
  unfold sendCommand
  refine ⟨?_, ?_, hciCommand_ok_iff fw params hop⟩
  · dsimp only
    split
    · exact hciCommand_follow fw opcode params
    · exact hciCommand_follow fw opcode params
  · dsimp only
    split
    · exact hciCommand_hci fw opcode params
    · exact hciCommand_hci fw opcode params

/-- Every command of the script has an opcode. -/
abbrev HasOpcodes (cs : List HciCommand) : Prop := ∀ c ∈ cs, c.opcode ≠ 0

/-- What a script issues on the bus it finds. -/
def HciBus.issues (bus : HciBus) (cs : List HciCommand) : List (HciCommand × HciAnswer) :=
  issued HciAnswer.accepted bus.answers bus.log.length cs

/-- A script of commands: what it issues is on the bus, and it succeeds when
all of it was accepted. -/
theorem sendAll_spec {cs : List HciCommand} (hcs : HasOpcodes cs) (fw : Firmware) :
    (sendAll fw cs).1.hci = { fw.hci with log := fw.hci.log ++ fw.hci.issues cs } ∧
    ((sendAll fw cs).2 = 0 ↔ ∀ x ∈ fw.hci.issues cs, x.2.accepted = true) := by
  induction cs generalizing fw with
  | nil => simp [sendAll, HciBus.issues]
  | cons c cs ih =>
      obtain ⟨hop, hrest⟩ := List.forall_mem_cons.mp hcs
      obtain ⟨-, hbus, hok⟩ := sendCommand_spec fw c.params hop
      simp only [sendAll, andThen]
      cases haccepted : fw.hci.next.accepted with
      | false =>
          have hfailed : ¬ (sendCommand fw c.opcode c.params).2 = 0 := by simp [hok, haccepted]
          have hissues : fw.hci.issues (c :: cs) = [(c, fw.hci.next)] :=
            issued_cons_refused haccepted c cs
          rw [if_neg hfailed, hissues]
          exact ⟨hbus, by simp [hfailed, haccepted]⟩
      | true =>
          have hissues : fw.hci.issues (c :: cs)
              = (c, fw.hci.next) :: (fw.hci.push c).issues cs := by
            have hgoes : (fw.hci.answers fw.hci.log.length).accepted = true := haccepted
            have hnext := issued_cons_ok hgoes c cs
            simpa [HciBus.issues, HciBus.push, HciBus.next] using hnext
          rw [if_pos (hok.mpr haccepted), hissues]
          obtain ⟨hbus', hok'⟩ := ih hrest (sendCommand fw c.opcode c.params).1
          rw [hbus', hok', hbus]
          exact ⟨by simp [HciBus.push], by simp [haccepted]⟩

/-! ## START -/

/-- The opcodes of the commands before the scan parameters. -/
def setupOpcodes : List UInt16 :=
  [opReset, opSetEventMask, opLeSetEventMask, opLeSetRandomAddress, opLeSetAddrResEnable,
   opLeClearRl, opLeAddDevToRl, opLeSetPrivacyMode, opLeClearFal, opLeAddDevToFal]

theorem keyScript_opcode (s : BleRadio) : ∀ c ∈ keyScript s, c.opcode ∈ setupOpcodes := by
  unfold keyScript
  simp only [List.forall_mem_append]
  refine ⟨⟨by decide, fun c hc => ?_⟩, ?_⟩
  · obtain ⟨i, _, hc⟩ := List.mem_flatMap.mp hc
    simp only [keyCommands, List.mem_cons, List.not_mem_nil, or_false] at hc
    rcases hc with rfl | rfl
    · exact (by decide : opLeAddDevToRl ∈ setupOpcodes)
    · exact (by decide : opLeSetPrivacyMode ∈ setupOpcodes)
  · split
    · decide
    · decide

/-- Whatever the keys and the filter are. -/
theorem setupScript_opcode (s : BleRadio) : ∀ c ∈ setupScript s, c.opcode ∈ setupOpcodes := by
  unfold setupScript filterScript
  simp only [List.forall_mem_append]
  refine ⟨by decide, ⟨keyScript_opcode s, by decide⟩, fun c hc => ?_⟩
  obtain ⟨entry, _, rfl⟩ := List.mem_map.mp hc
  exact (by decide : opLeAddDevToFal ∈ setupOpcodes)

theorem hasOpcodes_scanScript (s : BleRadio) (phys : UInt8) (interval window : UInt16) :
    HasOpcodes (scanScript s phys interval window) := by
  unfold scanScript
  split
  · exact List.forall_mem_cons.mpr ⟨(by decide : opLeSetScanParam ≠ 0), by decide⟩
  · exact List.forall_mem_cons.mpr ⟨(by decide : opLeSetExtScanParam ≠ 0), by decide⟩

theorem hasOpcodes_startScript (s : BleRadio) (intervalMs windowMs : UInt16) (phys : UInt8) :
    HasOpcodes (startScript s intervalMs windowMs phys) := by
  have hnonzero : setupOpcodes.all (· != 0) = true := by decide
  have hsetup : HasOpcodes (setupScript s) := fun c hc =>
    bne_iff_ne.mp (List.all_eq_true.mp hnonzero c.opcode (setupScript_opcode s c hc))
  exact List.forall_mem_append.mpr ⟨hsetup, hasOpcodes_scanScript s phys _ _⟩

/-- Where the controller is ready, START sends its script and then calls
`scan_started`. -/
theorem snRadioBleStart_eq {fw : Firmware} (hready : fw.ble.ready = true)
    (intervalMs windowMs : UInt16) (phys : UInt8) :
    snRadioBleStart fw intervalMs windowMs phys
      = andThen (sendAll fw (startScript fw.ble intervalMs windowMs phys)) fun fw =>
          ({ fw with ble := scanStarted fw.ble }, 0) := by
  unfold snRadioBleStart
  rw [hready, scanSetup_eq]
  simp only [Bool.not_true, Bool.false_eq_true, if_false]
  rw [andThen_assoc]
  congr 1
  refine sendAll_andThen fun fw' h => ?_
  rw [startScan_eq, h.scanScript]

/-- What START leaves on the bus. -/
theorem snRadioBleStart_hci {fw : Firmware} (hready : fw.ble.ready = true)
    (intervalMs windowMs : UInt16) (phys : UInt8) :
    (snRadioBleStart fw intervalMs windowMs phys).1.hci
      = { fw.hci with
          log := fw.hci.log ++ fw.hci.issues (startScript fw.ble intervalMs windowMs phys) } := by
  rw [snRadioBleStart_eq hready]
  rw [← (sendAll_spec (hasOpcodes_startScript fw.ble intervalMs windowMs phys) fw).1]
  unfold andThen
  split
  · rfl
  · rfl

/-- START succeeds when everything it issued was accepted. -/
theorem snRadioBleStart_ok_iff {fw : Firmware} (hready : fw.ble.ready = true)
    (intervalMs windowMs : UInt16) (phys : UInt8) :
    (snRadioBleStart fw intervalMs windowMs phys).2 = 0 ↔
      ∀ x ∈ fw.hci.issues (startScript fw.ble intervalMs windowMs phys), x.2.accepted = true := by
  rw [snRadioBleStart_eq hready]
  rw [← (sendAll_spec (hasOpcodes_startScript fw.ble intervalMs windowMs phys) fw).2]
  unfold andThen
  split
  · rename_i hzero
    simp [hzero]
  · rfl

/-- The script has the opcodes `startOpcodes` lists. -/
theorem startScript_opcodes (s : BleRadio) (intervalMs windowMs : UInt16) (phys : UInt8) :
    (startScript s intervalMs windowMs phys).map HciCommand.opcode = startOpcodes s phys := by
  have hkeys : (keyScript s).map HciCommand.opcode = keyOpcodes s := by
    unfold keyScript keyOpcodes
    rw [List.map_append, List.map_append, List.map_flatMap]
    split
    · rfl
    · rfl
  have hfilter : (filterScript s).map HciCommand.opcode = filterOpcodes s := by
    unfold filterScript filterOpcodes
    rw [List.map_append, List.map_append, List.map_map, hkeys, List.append_assoc]
    rfl
  unfold startScript setupScript scanScript startOpcodes
  rw [List.map_append, List.map_append, hfilter]
  split
  · rfl
  · rfl

/-- A START that succeeds has sent its commands, in order. -/
theorem opcodes_snRadioBleStart (fw : Firmware) (intervalMs windowMs : UInt16) (phys : UInt8)
    (hready : fw.ble.ready = true)
    (hok : (snRadioBleStart fw intervalMs windowMs phys).2 = 0) :
    opcodes (snRadioBleStart fw intervalMs windowMs phys).1 =
      opcodes fw ++ startOpcodes fw.ble phys := by
  have hall := (snRadioBleStart_ok_iff hready intervalMs windowMs phys).mp hok
  have hscript : (fw.hci.issues (startScript fw.ble intervalMs windowMs phys)).map Prod.fst
      = startScript fw.ble intervalMs windowMs phys := issued_fst_of_all_ok hall
  rw [← startScript_opcodes fw.ble intervalMs windowMs phys, ← hscript, List.map_map]
  simp only [opcodes, snRadioBleStart_hci hready, List.map_append]
  rfl

/-- A START that succeeded has called `scan_started`; one that failed has
changed only what commands change. -/
theorem snRadioBleStart_outcome {fw : Firmware} (hready : fw.ble.ready = true)
    (intervalMs windowMs : UInt16) (phys : UInt8) :
    ∃ fw', OnlyHci fw fw' ∧
      (snRadioBleStart fw intervalMs windowMs phys).1
        = if (snRadioBleStart fw intervalMs windowMs phys).2 = 0 then
            { fw' with ble := scanStarted fw'.ble }
          else fw' := by
  refine ⟨_, OnlyHci.sendAll (.refl fw) (startScript fw.ble intervalMs windowMs phys), ?_⟩
  rw [snRadioBleStart_eq hready]
  unfold andThen
  split
  · rfl
  · rfl

end Nrf54Sniffer.Ble
