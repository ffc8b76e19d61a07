/-
Nrf54Sniffer.Ble.Hci — the commands given to the Bluetooth controller and how
their answers come back.

`CmdSlot` is the slot `hci_command` and `note_command_result` share: the
opcode waited for, the status it was answered with, and the binary semaphore
between the two threads. `HciBus` is the controller as a caller that waits for
each command sees it: one outcome for each command, chosen from outside.
-/
import Nrf54Sniffer.Ble.Notes

namespace Nrf54Sniffer.Ble

open Nrf54Sniffer.Wire

/-! ## Opcodes -/

def opSetEventMask : UInt16 := 0x0C01
def opReset : UInt16 := 0x0C03
def opLeSetEventMask : UInt16 := 0x2001
def opLeSetRandomAddress : UInt16 := 0x2005
def opLeSetScanParam : UInt16 := 0x200B
def opLeSetScanEnable : UInt16 := 0x200C
def opLeClearFal : UInt16 := 0x2010
def opLeAddDevToFal : UInt16 := 0x2011
def opLeAddDevToRl : UInt16 := 0x2027
def opLeClearRl : UInt16 := 0x2029
def opLeSetAddrResEnable : UInt16 := 0x202D
def opLeSetExtScanParam : UInt16 := 0x2041
def opLeSetExtScanEnable : UInt16 := 0x2042
def opLePerAdvCreateSync : UInt16 := 0x2044
def opLeSetPrivacyMode : UInt16 := 0x204E
def opLeBigCreateSync : UInt16 := 0x206B
def opLeSetupIsoPath : UInt16 := 0x206E

/-! ## The pending slot -/

/-- `pending_opcode`, `pending_status` and `cmd_done`. -/
structure CmdSlot where
  pendingOpcode : UInt16 := 0
  pendingStatus : UInt8 := 0
  cmdDone : Bool := false
  deriving DecidableEq, Repr

namespace CmdSlot

/-- What `hci_command` writes before it sends. -/
def arm (opcode : UInt16) : CmdSlot where
  pendingOpcode := opcode
  pendingStatus := 0xFF
  cmdDone := false

/-- The match and the three writes at the end of `note_command_result`. -/
def credit (s : CmdSlot) (opcode : UInt16) (status : UInt8) : CmdSlot :=
  if opcode = 0 ∨ opcode ≠ s.pendingOpcode then s
  else { pendingOpcode := 0, pendingStatus := status, cmdDone := true }

/-- `k_sem_take(&cmd_done, ...) == 0`. -/
def taken (s : CmdSlot) : CmdSlot := { s with cmdDone := false }

/-- `pending_opcode = 0u`, at the end of `hci_command`. -/
def released (s : CmdSlot) : CmdSlot := { s with pendingOpcode := 0 }

end CmdSlot

/-- `note_command_result`. -/
def noteCommandResult (s : CmdSlot) (evt : List UInt8) : Option CmdSlot :=
  (commandResult evt).map fun
    | none => s
    | some (opcode, status) => s.credit opcode status

/-! ## The controller, a command at a time -/

/-- One command, as it is put in its buffer. -/
structure HciCommand where
  opcode : UInt16
  params : List UInt8
  deriving DecidableEq, Repr

/-- How one command comes out: no buffer for it, refused by `bt_send` with the
error `-(code + 1)`, never answered, or answered. -/
inductive HciAnswer where
  | noBuffer
  | sendError (code : Nat)
  | timedOut
  | answered (status : UInt8)
  deriving DecidableEq, Repr

/-- The outcomes to come, and the commands so far with theirs. -/
structure HciBus where
  answers : Nat → HciAnswer
  log : List (HciCommand × HciAnswer) := []

/-- The outcome of the next command. -/
def HciBus.next (bus : HciBus) : HciAnswer := bus.answers bus.log.length

/-- The bus after one command. -/
def HciBus.push (bus : HciBus) (c : HciCommand) : HciBus :=
  { bus with log := bus.log ++ [(c, bus.next)] }

end Nrf54Sniffer.Ble
