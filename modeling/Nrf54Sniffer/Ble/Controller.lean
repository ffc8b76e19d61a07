/-
Nrf54Sniffer.Ble.Controller — a Bluetooth controller as far as START
configures one.

`Controller` is what the accepted commands add up to: a Reset clears
everything, a Clear empties a list, an Add appends to one. Parameters are read
the way the HCI lays them out. `requested` is the controller the host asked
for: the filter, the keys, and a passive scan on the PHYs asked for whose
interval and window are the milliseconds asked for, in the controller's units
of 0.625 ms.
-/
import Nrf54Sniffer.Ble.StartScript

namespace Nrf54Sniffer.Ble

open Nrf54Sniffer.Wire
open Nrf54Sniffer.Board

/-! ## State -/

/-- In device mode an identity is heard under its own address too. -/
inductive PrivacyMode where
  | network
  | device
  deriving DecidableEq, Repr

/-- An entry of the resolving list: the identity and its key, the local key,
and the mode. -/
structure Resolving where
  entry : List UInt8
  localIrk : List UInt8
  mode : PrivacyMode := .network
  deriving DecidableEq, Repr

/-- How one PHY is scanned, in units of 0.625 ms. -/
structure PhyScan where
  passive : Bool
  interval : Nat
  window : Nat
  deriving DecidableEq, Repr

/-- The scan parameters. A legacy scan has 0 for its PHYs, and one block. -/
structure Scan where
  ownAddress : UInt8
  filterPolicy : UInt8
  phys : UInt8
  each : List PhyScan
  deriving DecidableEq, Repr

/-- The controller. -/
structure Controller where
  eventMask : Option (List UInt8) := none
  leEventMask : Option (List UInt8) := none
  randomAddress : Option (List UInt8) := none
  acceptList : List (List UInt8) := []
  resolvingList : List Resolving := []
  addressResolution : Bool := false
  scan : Option Scan := none
  scanning : Bool := false
  filterDuplicates : Bool := false
  deriving DecidableEq, Repr

/-! ## Commands -/

/-- A block of the scan parameters: the type, the interval, the window. -/
def phyScan (type i0 i1 w0 w1 : UInt8) : PhyScan where
  passive := type == scanTypePassive
  interval := (getLe16 i0 i1).toNat
  window := (getLe16 w0 w1).toNat

/-- The blocks of the extended scan parameters. -/
def phyScans : List UInt8 → List PhyScan
  | type :: i0 :: i1 :: w0 :: w1 :: rest => phyScan type i0 i1 w0 w1 :: phyScans rest
  | _ => []

/-- LE Set Scan Parameters. -/
def setScanParam (c : Controller) : List UInt8 → Controller
  | [type, i0, i1, w0, w1, ownAddress, filterPolicy] =>
      { c with scan := some ⟨ownAddress, filterPolicy, 0, [phyScan type i0 i1 w0 w1]⟩ }
  | _ => c

/-- LE Set Extended Scan Parameters. -/
def setExtScanParam (c : Controller) : List UInt8 → Controller
  | ownAddress :: filterPolicy :: phys :: blocks =>
      { c with scan := some ⟨ownAddress, filterPolicy, phys, phyScans blocks⟩ }
  | _ => c

/-- The first two bytes of either enable. -/
def setScanEnable (c : Controller) : List UInt8 → Controller
  | enable :: filterDuplicates :: _ =>
      { c with scanning := enable == 1, filterDuplicates := filterDuplicates == 1 }
  | _ => c

/-- LE Set Privacy Mode, on an entry: type and address have to match. -/
def setPrivacyMode (params : List UInt8) (r : Resolving) : Resolving :=
  if r.entry.take 7 = params.take 7 then
    { r with mode := if params.drop 7 = [0x01] then .device else .network }
  else r

/-- One command, accepted. -/
def exec (c : Controller) (command : HciCommand) : Controller :=
  if command.opcode = opReset then {}
  else if command.opcode = opSetEventMask then { c with eventMask := some command.params }
  else if command.opcode = opLeSetEventMask then { c with leEventMask := some command.params }
  else if command.opcode = opLeSetRandomAddress then
    { c with randomAddress := some command.params }
  else if command.opcode = opLeClearFal then { c with acceptList := [] }
  else if command.opcode = opLeAddDevToFal then
    { c with acceptList := c.acceptList ++ [command.params] }
  else if command.opcode = opLeClearRl then { c with resolvingList := [] }
  else if command.opcode = opLeAddDevToRl then
    { c with resolvingList := c.resolvingList ++
        [{ entry := command.params.take keyEntry, localIrk := command.params.drop keyEntry }] }
  else if command.opcode = opLeSetPrivacyMode then
    { c with resolvingList := c.resolvingList.map (setPrivacyMode command.params) }
  else if command.opcode = opLeSetAddrResEnable then
    { c with addressResolution := command.params == [0x01] }
  else if command.opcode = opLeSetScanParam then setScanParam c command.params
  else if command.opcode = opLeSetExtScanParam then setExtScanParam c command.params
  else if command.opcode = opLeSetScanEnable then setScanEnable c command.params
  else if command.opcode = opLeSetExtScanEnable then setScanEnable c command.params
  else c

/-- Commands, all accepted. -/
def execAll (c : Controller) (commands : List HciCommand) : Controller := commands.foldl exec c

/-! ## What the host asked for -/

/-- The entries of a BLE_KEYS payload. -/
def entriesOf (payload : List UInt8) : List (List UInt8) :=
  (List.range (payload.length / keyEntry)).map fun i => (payload.drop (keyEntry * i)).take keyEntry

/-- Whole entries, not too many, each with an address type that exists. -/
def wellFormed (payload : List UInt8) : Bool :=
  payload.length % keyEntry == 0 && payload.length / keyEntry ≤ maxKeys &&
    (entriesOf payload).all fun entry => entry.head?.any (· ≤ 1)

/-- The entries of the last payload that is well formed. -/
def lastEntries (payloads : List (List UInt8)) : List (List UInt8) :=
  ((payloads.filter wellFormed).getLast?.map entriesOf).getD []

/-- The blocks a PHY byte asks for. -/
def phyCount (phys : UInt8) : Nat :=
  if phys = 0 then 1
  else ((List.range 8).filter fun bit => phys &&& (1 <<< UInt8.ofNat bit) ≠ 0).length

/-- A controller scanning passively for these entries, on these PHYs, with this
interval and window in its units. -/
def scanningFor (filter entries : List (List UInt8)) (phys : UInt8) (interval window : Nat) :
    Controller where
  eventMask := some allEvents
  leEventMask := some allLeEvents
  randomAddress := some staticRandomAddr
  acceptList := filter
  resolvingList := entries.map fun entry =>
    { entry, localIrk := List.replicate 16 0, mode := .device }
  addressResolution := !entries.isEmpty
  scan := some
    { ownAddress := ownAddrRandom
      filterPolicy := if filter.isEmpty then 0x00 else 0x01
      phys
      each := List.replicate (phyCount phys) { passive := true, interval, window } }
  scanning := true
  filterDuplicates := false

/-- Milliseconds in units of 0.625 ms. -/
def scanUnits (ms : UInt16) : Nat := ms.toNat * 1000 / 625

/-- The controller the host asked for. -/
def requested (filter entries : List (List UInt8)) (intervalMs windowMs : UInt16)
    (phys : UInt8) : Controller :=
  scanningFor filter entries phys (scanUnits (scanInterval intervalMs))
    (scanUnits (scanWindow (scanInterval intervalMs) windowMs))

/-- BLE_KEYS payloads, one after another. -/
def storeKeys (fw : Firmware) : List (List UInt8) → Option Firmware
  | [] => some fw
  | payload :: payloads =>
      (snRadioBleSetKeys fw payload).bind fun (fw, _) => storeKeys fw payloads

/-- What START promises: what it issues and returns, what it keeps when it
fails, and the controller it leaves when it succeeds. -/
structure StartMeets (fw : Firmware) (entries : List (List UInt8)) (intervalMs windowMs : UInt16)
    (phys : UInt8) (r : Firmware × Int) (sent : List (HciCommand × HciAnswer)) : Prop where
  sends : r.1.hci.log = fw.hci.log ++ sent
  ok_iff : r.2 = 0 ↔ fw.ble.ready = true ∧ ∀ x ∈ sent, x.2.accepted = true
  stops : ∀ pre x post, sent = pre ++ x :: post → x.2.accepted = false → post = []
  keeps : r.2 ≠ 0 →
    r.1.ble.running = fw.ble.running ∧ r.1.ble.follow.syncCount = fw.ble.follow.syncCount ∧
      r.1.ble.follow.bigSynced = fw.ble.follow.bigSynced ∧
      r.1.ble.follow.bisHandles = fw.ble.follow.bisHandles
  configures : r.2 = 0 → ∀ c : Controller,
    execAll c (sent.map Prod.fst) = requested fw.ble.filter entries intervalMs windowMs phys

end Nrf54Sniffer.Ble
