/-
Nrf54Sniffer.Ble.Commands — the part of `radio_ble.c` that talks to the
controller: `hci_command` and what calls it, the stored filter and keys, START
and STOP, the three work items, and the forwarding thread's loop.

Two of the work items are loops, over a queue and over a table that events fill
while a command is waited for. They are given a turn at a time, so that what is
there is looked at again after each command.

Where the source says `if (err != 0) return err;` between two steps, `andThen`
joins them. A function answers `none` only where one of its accesses would
leave a buffer, or where a work item has no turn.
-/
import Nrf54Sniffer.Board.Firmware

namespace Nrf54Sniffer.Ble

open Nrf54Sniffer.Lib
open Nrf54Sniffer.Wire
open Nrf54Sniffer.Board

/-! ## One command -/

/-- `command_timeouts++`. -/
def countTimeout (fw : Firmware) : Firmware :=
  { fw with ble := { fw.ble with
      stats := { fw.ble.stats with commandTimeouts := fw.ble.stats.commandTimeouts + 1 } } }

/-- `hci_command`: its error, and the status it hands back where it does. -/
def hciCommand (fw : Firmware) (opcode : UInt16) (params : List UInt8) :
    Firmware × Int × Option UInt8 :=
  let sent := { fw with hci := fw.hci.push ⟨opcode, params⟩ }
  let armed := CmdSlot.arm opcode
  match fw.hci.next with
  | .noBuffer => (sent, -eNoBufs, none)
  | .sendError code =>
      ({ sent with slot := armed.released }, -(code + 1 : Int), some armed.pendingStatus)
  | .timedOut =>
      (countTimeout ({ sent with slot := armed.released }.logLine (.hciNeverCompleted opcode)),
        -eTimedOut, some armed.pendingStatus)
  | .answered status =>
      let slot := (armed.credit opcode status).taken
      ({ sent with slot := slot.released },
        if slot.pendingStatus ≠ 0 then -eIo else 0, some slot.pendingStatus)

/-- `send_command`. -/
def sendCommand (fw : Firmware) (opcode : UInt16) (params : List UInt8) : Firmware × Int :=
  let (fw, err, status) := hciCommand fw opcode params
  (if err = -eIo then fw.logLine (.hciRefused opcode (status.getD 0)) else fw, err)

/-- `if (err != 0) return err;`, then the next step. -/
def andThen (r : Firmware × Int) (next : Firmware → Firmware × Int) : Firmware × Int :=
  if r.2 = 0 then next r.1 else r

/-- A loop of commands, left at the first that fails. -/
def sendAll (fw : Firmware) : List HciCommand → Firmware × Int
  | [] => (fw, 0)
  | c :: cs => andThen (sendCommand fw c.opcode c.params) fun fw => sendAll fw cs

/-! ## The stored filter and keys -/

/-- The loop of `sn_radio_ble_set_filter`, with the room left of `MAX_FILTER`. -/
def storeFilter : Nat → List UInt8 → List (List UInt8)
  | 0, _ => []
  | room + 1, payload =>
      match takeExact filterEntry payload with
      | some (entry, rest) => entry :: storeFilter room rest
      | none => []

/-- `sn_radio_ble_set_filter`. -/
def snRadioBleSetFilter (s : BleRadio) (payload : List UInt8) : BleRadio :=
  { s with filter := storeFilter maxFilter payload }

/-- The first entry's type byte that is neither 0 nor 1. -/
def badAddressType (payload : List UInt8) : Option UInt8 :=
  (List.range (payload.length / keyEntry)).findSome? fun i =>
    (payload[keyEntry * i]?).filter (· > 1)

/-- `sn_radio_ble_set_keys`. -/
def snRadioBleSetKeys (fw : Firmware) (payload : List UInt8) : Option (Firmware × Int) :=
  if payload.length % keyEntry ≠ 0 ∨ payload.length / keyEntry > maxKeys then
    some (fw.logLine (.keysRejectedLength payload.length), -eInval)
  else
    match badAddressType payload with
    | some type => some (fw.logLine (.keysRejectedType type), -eInval)
    | none =>
        ((ByteBuffer.zero (maxKeys * keyEntry)).write 0 payload).map fun keys =>
          let keyCount := payload.length / keyEntry
          ({ fw with ble := { fw.ble with keys, keyCount } }.logLine (.deviceKeys keyCount), 0)

/-- `sn_radio_ble_set_periodic`. -/
def snRadioBleSetPeriodic (s : BleRadio) (enable : Bool) : BleRadio :=
  { s with periodicEnabled := enable }

/-- `keys[i]`: inside the table for every `i` below `key_count`
(`Board.keyAt_inside`). -/
def keyAt (s : BleRadio) (i : Nat) : List UInt8 := (s.keys.bytes.drop (keyEntry * i)).take keyEntry

/-- The two commands of one key: the entry with a zero local key behind it,
then device privacy mode for its identity. -/
def keyCommands (key : List UInt8) : List HciCommand :=
  [⟨opLeAddDevToRl, key ++ List.replicate 16 0⟩, ⟨opLeSetPrivacyMode, key.take 7 ++ [0x01]⟩]

/-- `apply_keys`. -/
def applyKeys (fw : Firmware) : Firmware × Int :=
  andThen (sendCommand fw opLeSetAddrResEnable [0x00]) fun fw =>
  andThen (sendCommand fw opLeClearRl []) fun fw =>
  andThen (sendAll fw ((List.range fw.ble.keyCount).flatMap fun i => keyCommands (keyAt fw.ble i)))
    fun fw => if fw.ble.keyCount > 0 then sendCommand fw opLeSetAddrResEnable [0x01] else (fw, 0)

/-- `apply_filter`. -/
def applyFilter (fw : Firmware) : Firmware × Int :=
  andThen (applyKeys fw) fun fw =>
  andThen (sendCommand fw opLeClearFal []) fun fw =>
  sendAll fw (fw.ble.filter.map fun entry => ⟨opLeAddDevToFal, entry⟩)

/-! ## START and STOP -/

/-- `UNITS_PER_MS`: units of 0.625 ms. -/
def unitsPerMs (ms : UInt16) : UInt16 := (ms.toUInt32 * 1000 / 625).toUInt16

def scanTypePassive : UInt8 := 0x00
def ownAddrRandom : UInt8 := 0x01

/-- `filter_count > 0u ? FILTER_ACCEPT_LIST : FILTER_ACCEPT_ALL`. -/
def filterPolicy (s : BleRadio) : UInt8 := if s.filter.length > 0 then 0x01 else 0x00

/-- `scan_started`. -/
def scanStarted (s : BleRadio) : BleRadio :=
  { s with
    follow := { s.follow with
      syncCount := 0, bigSynced := false, bigRetryAt := 0, bisHandles := [], syncQ := [] }
    running := true }

/-- What `scan_started` writes, one store after the other. -/
inductive ScanStore where
  | syncCount
  | bigSynced
  | bigRetryAt
  | bisCount
  | syncQ
  | running
  deriving DecidableEq, Repr

/-- The store after it. -/
def ScanStore.next : ScanStore → Option ScanStore
  | .syncCount => some .bigSynced
  | .bigSynced => some .bigRetryAt
  | .bigRetryAt => some .bisCount
  | .bisCount => some .syncQ
  | .syncQ => some .running
  | .running => none

def ScanStore.write (s : BleRadio) : ScanStore → BleRadio
  | .syncCount => { s with follow := { s.follow with syncCount := 0 } }
  | .bigSynced => { s with follow := { s.follow with bigSynced := false } }
  | .bigRetryAt => { s with follow := { s.follow with bigRetryAt := 0 } }
  | .bisCount => { s with follow := { s.follow with bisHandles := [] } }
  | .syncQ => { s with follow := { s.follow with syncQ := [] } }
  | .running => { s with running := true }

/-- The parameters of the legacy scan. -/
def legacyScanParams (s : BleRadio) (interval window : UInt16) : List UInt8 :=
  [scanTypePassive] ++ putLe16 interval ++ putLe16 window ++ [ownAddrRandom, filterPolicy s]

/-- `start_legacy_scan`. -/
def startLegacyScan (fw : Firmware) (interval window : UInt16) : Firmware × Int :=
  andThen (sendCommand fw opLeSetScanParam (legacyScanParams fw.ble interval window)) fun fw =>
  sendCommand fw opLeSetScanEnable [0x01, 0x00]

/-- The parameters of the extended scan: one block for each PHY asked for. -/
def extScanParams (s : BleRadio) (phys : UInt8) (interval window : UInt16) : List UInt8 :=
  [ownAddrRandom, filterPolicy s, phys] ++
    (List.range 8).flatMap fun bit =>
      if phys &&& (1 <<< UInt8.ofNat bit) = 0 then []
      else [scanTypePassive] ++ putLe16 interval ++ putLe16 window

/-- The extended scan of `sn_radio_ble_start`. -/
def startExtScan (fw : Firmware) (phys : UInt8) (interval window : UInt16) : Firmware × Int :=
  andThen (sendCommand fw opLeSetExtScanParam (extScanParams fw.ble phys interval window))
    fun fw => sendCommand fw opLeSetExtScanEnable [0x01, 0x00, 0x00, 0x00, 0x00, 0x00]

/-- `SN_BLE_DEFAULT_INTERVAL_MS`. -/
def snBleDefaultIntervalMs : UInt16 := 60

def scanInterval (intervalMs : UInt16) : UInt16 :=
  if intervalMs = 0 then snBleDefaultIntervalMs else intervalMs

/-- The window, with the interval already defaulted. -/
def scanWindow (intervalMs windowMs : UInt16) : UInt16 :=
  if windowMs = 0 ∨ windowMs > intervalMs then intervalMs else windowMs

def allEvents : List UInt8 := [0xFF, 0xFF, 0xFF, 0xFF, 0xFF, 0xFF, 0xFF, 0x3F]
def allLeEvents : List UInt8 := [0xFF, 0xFF, 0xFF, 0xFF, 0xFF, 0xFF, 0xFF, 0xFF]
def staticRandomAddr : List UInt8 := [0x01, 0x02, 0x03, 0x04, 0x05, 0xC0]

/-- The commands before the scan parameters. -/
def scanSetup (fw : Firmware) : Firmware × Int :=
  andThen (sendCommand fw opReset []) fun fw =>
  andThen (sendCommand fw opSetEventMask allEvents) fun fw =>
  andThen (sendCommand fw opLeSetEventMask allLeEvents) fun fw =>
  andThen (sendCommand fw opLeSetRandomAddress staticRandomAddr) applyFilter

/-- `sn_radio_ble_start`. -/
def snRadioBleStart (fw : Firmware) (intervalMs windowMs : UInt16) (phys : UInt8) :
    Firmware × Int :=
  if !fw.ble.ready then (fw, -eNoDev)
  else
    let intervalMs := scanInterval intervalMs
    let windowMs := scanWindow intervalMs windowMs
    andThen (scanSetup fw) fun fw =>
    andThen (if phys = 0 then startLegacyScan fw (unitsPerMs intervalMs) (unitsPerMs windowMs)
             else startExtScan fw phys (unitsPerMs intervalMs) (unitsPerMs windowMs)) fun fw =>
    ({ fw with ble := scanStarted fw.ble }, 0)

/-- The opcodes of the commands so far. -/
def opcodes (fw : Firmware) : List UInt16 := fw.hci.log.map fun c => c.1.opcode

/-- The opcodes of `apply_keys` and of `apply_filter`, when each command is
accepted. -/
def keyOpcodes (s : BleRadio) : List UInt16 :=
  [opLeSetAddrResEnable, opLeClearRl] ++
  (List.range s.keyCount).flatMap (fun _ => [opLeAddDevToRl, opLeSetPrivacyMode]) ++
  if s.keyCount > 0 then [opLeSetAddrResEnable] else []

def filterOpcodes (s : BleRadio) : List UInt16 :=
  keyOpcodes s ++ opLeClearFal :: s.filter.map fun _ => opLeAddDevToFal

/-- The opcodes of START's commands, when each is accepted. -/
def startOpcodes (s : BleRadio) (phys : UInt8) : List UInt16 :=
  [opReset, opSetEventMask, opLeSetEventMask, opLeSetRandomAddress] ++ filterOpcodes s ++
  if phys = 0 then [opLeSetScanParam, opLeSetScanEnable]
  else [opLeSetExtScanParam, opLeSetExtScanEnable]

/-- The keys wiped, once `running` is cleared. -/
def stopCapture (s : BleRadio) : BleRadio :=
  { s with running := false, keys := .zero _, keyCount := 0 }

/-- The two slots freed. -/
def freeSlots (s : BleRadio) : BleRadio :=
  { s with follow := { s.follow with syncCount := 0, bigSynced := false } }

/-- What the flush left, put back. -/
def flushedStop (fw : Firmware) (r : BleRadio × Outbox) : Firmware :=
  { fw with ble := freeSlots r.1, outbox := r.2 }

/-- `sn_radio_ble_stop`. -/
def snRadioBleStop (fw : Firmware) : Option (Firmware × Int) :=
  (stopFlush (stopCapture fw.ble) fw.outbox).map fun r =>
    sendCommand (flushedStop fw r) opReset []

/-- `sn_radio_ble_reset_counters`. -/
def snRadioBleResetCounters (s : BleRadio) : BleRadio := { s with stats := {} }

/-! ## The work items -/

/-- The parameters of Create Sync. -/
def perAdvCreateSyncParams (req : SyncReq) : List UInt8 :=
  [0x00, req.sid, req.addrType] ++ req.addr ++ [0x00, 0x00, 0xE8, 0x03, 0x00]

/-- Not after a STOP, not when following is off, not when the slot is taken. -/
def mayCreateSync (s : BleRadio) : Bool :=
  s.running && s.periodicEnabled && s.follow.syncCount < maxSyncs

/-- `sync_count++`. -/
def takeSyncSlot (fw : Firmware) : Firmware :=
  { fw with ble := { fw.ble with
      follow := { fw.ble.follow with syncCount := fw.ble.follow.syncCount + 1 } } }

/-- What `sync_work_fn` does with a request. -/
def syncOne (fw : Firmware) (req : SyncReq) : Firmware :=
  if mayCreateSync fw.ble then
    let (fw, err, _) := hciCommand fw opLePerAdvCreateSync (perAdvCreateSyncParams req)
    if err = 0 then takeSyncSlot fw else fw
  else fw

/-- The work queue goes on to `loop`. -/
def setLoop (s : BleRadio) (loop : Loop) : BleRadio := { s with follow := { s.follow with loop } }

def beginSyncWork (s : BleRadio) : BleRadio :=
  { s with follow := { s.follow with syncWork := false, loop := .syncing } }

/-- `k_msgq_get`, with `syncQ` left. -/
def leaveQueued (s : BleRadio) (syncQ : List SyncReq) : BleRadio :=
  { s with follow := { s.follow with syncQ } }

/-- `sync_work_fn`, a turn at a time: it begins where it was submitted, then
takes requests for as long as there are any. -/
def syncWorkFn (fw : Firmware) : Option Firmware :=
  match fw.ble.follow.loop with
  | .idle =>
      if fw.ble.follow.syncWork then some { fw with ble := beginSyncWork fw.ble } else none
  | .syncing =>
      match fw.ble.follow.syncQ with
      | [] => some { fw with ble := setLoop fw.ble .idle }
      | req :: syncQ => some (syncOne { fw with ble := leaveQueued fw.ble syncQ } req)
  | .pathing _ => none

/-- `atomic_clear(&big_pending)`, once the outcome is noted. -/
def finishBig (s : BleRadio) (joined : Bool) (uptime : Int) : BleRadio :=
  if joined then { s with follow := { s.follow with bigSynced := true, bigPending := false } }
  else
    { s with follow := { s.follow with bigRetryAt := uptime + bigRetryMs, bigPending := false } }

/-- The same on the firmware, after BIG Create Sync. -/
def noteBigOutcome (r : Firmware × Int × Option UInt8) (uptime : Int) : Firmware :=
  { r.1 with ble := finishBig r.1.ble (r.2.1 = 0) uptime }

def beginBigWork (s : BleRadio) : BleRadio :=
  { s with follow := { s.follow with bigWork := false } }

/-- `big_work_fn`. -/
def bigWorkFn (fw : Firmware) (uptime : Int) : Firmware :=
  if fw.ble.running then
    noteBigOutcome (hciCommand { fw with ble := beginBigWork fw.ble } opLeBigCreateSync
      fw.ble.follow.bigParams) uptime
  else { fw with ble := finishBig (beginBigWork fw.ble) false uptime }

/-- The parameters of LE Setup ISO Data Path: the handle, controller to host,
over HCI, transparent, and eight zeros. -/
def setupIsoPathParams (handle : UInt16) : List UInt8 :=
  putLe16 handle ++ [0x01, 0x00, 0x03] ++ List.replicate 8 0

/-- What `iso_path_work_fn` does with a stream. -/
def isoPathOne (fw : Firmware) (handle : UInt16) : Firmware :=
  if fw.ble.running then (sendCommand fw opLeSetupIsoPath (setupIsoPathParams handle)).1 else fw

def beginIsoPathWork (s : BleRadio) : BleRadio :=
  { s with follow := { s.follow with isoPathWork := false, loop := .pathing 0 } }

/-- Where the loop goes on after stream `i`: `i < bis_count && running`. -/
def afterPath (s : BleRadio) (i : Nat) : Loop := if s.running then .pathing (i + 1) else .idle

/-- `iso_path_work_fn`, a turn at a time: it begins where it was submitted, then
looks up stream `i` in the table as it is now. -/
def isoPathWorkFn (fw : Firmware) : Option Firmware :=
  match fw.ble.follow.loop with
  | .idle =>
      if fw.ble.follow.isoPathWork then some { fw with ble := beginIsoPathWork fw.ble } else none
  | .syncing => none
  | .pathing i =>
      match fw.ble.follow.bisHandles[i]? with
      | some handle =>
          some (isoPathOne { fw with ble := setLoop fw.ble (afterPath fw.ble i) } handle)
      | none => some { fw with ble := setLoop fw.ble .idle }

/-! ## The forwarding thread -/

/-- `forward`, on the firmware. -/
def forwardPacket (fw : Firmware) (h4Type : UInt8) (data : List UInt8) (now : Readings) :
    Option Firmware :=
  (forward fw.ble fw.outbox h4Type data now).map fun (ble, outbox) => { fw with ble, outbox }

/-- The look for an answer to a command of ours. -/
def noteAnswer (slot : CmdSlot) (h4 : UInt8) (data : List UInt8) : Option CmdSlot :=
  if h4 = h4Event ∧ 2 ≤ data.length then noteCommandResult slot data else some slot

/-- Whether the capture takes a packet: isochronous data, or an event that is
no answer to a command. -/
def captures (h4 : UInt8) (data : List UInt8) : Bool :=
  h4 == h4Iso ||
    (h4 == h4Event && match data with
      | [] => false
      | code :: _ => code != evtCmdComplete && code != evtCmdStatus)

/-- One turn of `fwd_loop`: the H4 byte already pulled off the buffer. -/
def fwdLoop (fw : Firmware) (h4 : UInt8) (data : List UInt8) (now : Readings) :
    Option Firmware :=
  (noteAnswer fw.slot h4 data).bind fun slot =>
    if fw.ble.running && captures h4 data then forwardPacket { fw with slot } h4 data now
    else some { fw with slot }

end Nrf54Sniffer.Ble
