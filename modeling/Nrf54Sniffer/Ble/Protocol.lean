/-
Nrf54Sniffer.Ble.Protocol — a command and its answer, with the threads apart.

`hci_command` runs under `cmd_lock`, so there is one call at a time and
`Caller` says where it is. The controller answers the commands it holds in
order, whenever it likes; the answers wait in `hci_rx` until the forwarding
thread comes to them, and `Fwd` says which of the writes at the end of
`note_command_result` it still has to make. The two threads share the slot.

Calls are numbered. The number of a call goes with its command, with the
answer to it and with the outcome it returns; none of the code reads it.
-/
import Nrf54Sniffer.Lib.Machine
import Nrf54Sniffer.Ble.Commands

namespace Nrf54Sniffer.Ble.Protocol

open Nrf54Sniffer.Lib
open Nrf54Sniffer.Wire

/-! ## Events -/

/-- A packet in `hci_rx`, and the call it answers if it answers one. -/
structure Evt where
  h4 : UInt8
  data : List UInt8
  answers : Option Nat
  deriving DecidableEq, Repr

/-- The opcode and status the forwarding thread finds in a packet. -/
def Evt.result (e : Evt) : Option (UInt16 × UInt8) :=
  if e.h4 = h4Event ∧ 2 ≤ e.data.length then (commandResult e.data).join else none

/-- Command Complete, with what the command returns behind its status. -/
def commandComplete (opcode : UInt16) (status : UInt8) (more : List UInt8) : List UInt8 :=
  [evtCmdComplete, UInt8.ofNat (4 + more.length), 0x01] ++ putLe16 opcode ++ [status] ++ more

/-- Command Status. -/
def commandStatus (opcode : UInt16) (status : UInt8) : List UInt8 :=
  [evtCmdStatus, 0x04, status, 0x01] ++ putLe16 opcode

/-- Which of the two the controller answers with. -/
inductive AnswerForm where
  | complete (more : List UInt8)
  | brief
  deriving DecidableEq, Repr

def AnswerForm.bytes : AnswerForm → UInt16 → UInt8 → List UInt8
  | .complete more, opcode, status => commandComplete opcode status more
  | .brief, opcode, status => commandStatus opcode status

/-! ## State -/

/-- Where the call of `hci_command` is. -/
inductive Caller where
  | idle
  /-- `cmd_lock` is held, and the buffer is asked for. -/
  | begun (opcode : UInt16)
  /-- The semaphore is reset, the slot not yet written. -/
  | emptied (opcode : UInt16)
  /-- `pending_status` is written, `pending_opcode` not yet. -/
  | readied (opcode : UInt16)
  /-- The slot is written, and the command not yet sent. -/
  | armed (opcode : UInt16)
  /-- In `k_sem_take`. -/
  | waiting
  /-- The semaphore taken, `pending_status` not yet looked at. -/
  | woken
  | returning (err : Int)
  deriving DecidableEq, Repr

/-- The semaphore is the call's: reset for it, and not yet taken. -/
def Caller.listens : Caller → Bool
  | .emptied _ | .readied _ | .armed _ | .waiting => true
  | _ => false

/-- The opcode of a call that has still to send its command. -/
def Caller.unsent : Caller → Option UInt16
  | .begun opcode | .emptied opcode | .readied opcode | .armed opcode => some opcode
  | _ => none

/-- Where the forwarding thread is, and during which call the opcode matched. -/
inductive Fwd where
  | idle
  | matched (call : Nat) (status : UInt8)
  | stored (call : Nat)
  | cleared (call : Nat)
  deriving DecidableEq, Repr

def Fwd.call : Fwd → Option Nat
  | .idle => none
  | .matched call _ | .stored call | .cleared call => some call

/-- What a call of `hci_command` came to. -/
structure Return where
  call : Nat
  err : Int
  status : Option UInt8
  deriving DecidableEq, Repr

/-- The slot, the two threads, the commands the controller holds, the packets
in `hci_rx`, the number of the last call, what the controller said to each
call, and what each call returned. -/
structure State where
  slot : CmdSlot := {}
  caller : Caller := .idle
  fwd : Fwd := .idle
  controller : List (Nat × UInt16) := []
  fifo : List Evt := []
  calls : Nat := 0
  verdicts : List (Nat × UInt8) := []
  returns : List Return := []
  deriving DecidableEq, Repr

/-- A step of the caller, the controller or the forwarding thread. -/
inductive Label where
  | call (opcode : UInt16)
  | noBuffer
  | reset
  | ready
  | arm
  | sent
  | notSent (err : Int)
  | take
  | timeOut
  | check
  | release
  | answer (form : AnswerForm) (status : UInt8)
  | other (h4 : UInt8) (data : List UInt8)
  | look
  | store
  | clear
  | give
  deriving Repr

/-! ## Steps -/

/-- The opcode matches the one pending. -/
def State.matches (s : State) (opcode : UInt16) : Bool :=
  opcode != 0 && opcode == s.slot.pendingOpcode

/-- The forwarding thread after the match in `note_command_result`. -/
def State.noted (s : State) (e : Evt) : Fwd :=
  match e.result with
  | some (opcode, status) => if s.matches opcode then .matched s.calls status else .idle
  | none => .idle

/-- The call returns. -/
def State.leave (s : State) (err : Int) (status : Option UInt8) : State :=
  { s with caller := .idle, returns := s.returns ++ [⟨s.calls, err, status⟩] }

/-- The steps of `hci_command`: the semaphore is reset, and the slot written, one
store at a time. -/
def stepCaller (s : State) (l : Label) : Option State :=
  match s.caller, l with
  | .idle, .call opcode => some { s with caller := .begun opcode, calls := s.calls + 1 }
  | .begun _, .noBuffer => some (s.leave (-eNoBufs) none)
  | .begun opcode, .reset =>
      some { s with slot := { s.slot with cmdDone := false }, caller := .emptied opcode }
  | .emptied opcode, .ready =>
      some { s with slot := { s.slot with pendingStatus := 0xFF }, caller := .readied opcode }
  | .readied opcode, .arm =>
      some { s with slot := { s.slot with pendingOpcode := opcode }, caller := .armed opcode }
  | .armed opcode, .sent =>
      some { s with controller := s.controller ++ [(s.calls, opcode)], caller := .waiting }
  | .armed _, .notSent err => if err ≠ 0 then some { s with caller := .returning err } else none
  | .waiting, .take =>
      if s.slot.cmdDone then some { s with slot := s.slot.taken, caller := .woken } else none
  | .waiting, .timeOut =>
      if s.slot.cmdDone then none else some { s with caller := .returning (-eTimedOut) }
  | .woken, .check =>
      some { s with caller := .returning (if s.slot.pendingStatus ≠ 0 then -eIo else 0) }
  -- a packet looked at between the read of the status and the store is as one before both
  | .returning err, .release =>
      some ({ s with slot := s.slot.released }.leave err (some s.slot.pendingStatus))
  | _, _ => none

/-- The steps of the forwarding thread. -/
def stepFwd (s : State) (l : Label) : Option State :=
  match s.fwd, l, s.fifo with
  | .idle, .look, e :: fifo => some { s with fwd := s.noted e, fifo }
  | .matched call status, .store, _ =>
      some { s with slot := { s.slot with pendingStatus := status }, fwd := .stored call }
  | .stored call, .clear, _ =>
      some { s with slot := { s.slot with pendingOpcode := 0 }, fwd := .cleared call }
  | .cleared _, .give, _ =>
      some { s with slot := { s.slot with cmdDone := true }, fwd := .idle }
  | _, _, _ => none

/-- The steps of the controller: the next answer, or a packet that answers
none of the commands. -/
def stepController (s : State) (l : Label) : Option State :=
  match s.controller, l with
  | (call, opcode) :: controller, .answer form status =>
      some { s with
        controller
        fifo := s.fifo ++ [⟨h4Event, form.bytes opcode status, some call⟩]
        verdicts := s.verdicts ++ [(call, status)] }
  | _, .other h4 data =>
      if (Evt.result ⟨h4, data, none⟩).all (·.1 == 0) then
        some { s with fifo := s.fifo ++ [⟨h4, data, none⟩] }
      else none
  | _, _ => none

/-- Whose step it is. -/
def step (s : State) : Label → Option State
  | .look => stepFwd s .look
  | .store => stepFwd s .store
  | .clear => stepFwd s .clear
  | .give => stepFwd s .give
  | .answer form status => stepController s (.answer form status)
  | .other h4 data => stepController s (.other h4 data)
  | l => stepCaller s l

/-- Calls of `hci_command`, the controller and the forwarding thread. -/
def machine : Machine State Label := ⟨step⟩

/-! ## The condition -/

/-- A call that returns 0 was accepted by the controller, and one that returns
`-EIO` was refused with the status handed back. -/
def Credited (s : State) : Prop :=
  ∀ r ∈ s.returns,
    (r.err = 0 → (r.call, 0) ∈ s.verdicts) ∧
    (r.err = -eIo → ∃ status ∈ r.status, status ≠ 0 ∧ (r.call, status) ∈ s.verdicts)

/-- The answer to a call that is over. -/
def Evt.late (e : Evt) (s : State) : Prop := ∃ call ∈ e.answers, call ≠ s.calls

/-- From when a call resets the semaphore until it has taken it or given up, no
late answer has the opcode pending and the semaphore is not given for an
earlier call; and `bt_send` has errors of its own. -/
def Timely (s : State) : Label → Prop
  | .look => s.caller.listens = true →
      ∀ e ∈ s.fifo.head?, e.late s → ∀ r ∈ e.result, s.matches r.1 = false
  | .give => s.caller.listens = true → s.fwd.call = some s.calls
  | .notSent err => err ≠ -eIo
  | _ => True

instance (s : State) : Decidable (Credited s) :=
  have (r : Return) :
      Decidable (∃ status ∈ r.status, status ≠ 0 ∧ (r.call, status) ∈ s.verdicts) :=
    Option.decidableExistsMem _
  inferInstanceAs (Decidable (∀ r ∈ s.returns, _ ∧ (_ → ∃ status ∈ r.status, _)))

instance (e : Evt) (s : State) : Decidable (e.late s) :=
  inferInstanceAs (Decidable (∃ call ∈ e.answers, call ≠ s.calls))

instance (s : State) : (l : Label) → Decidable (Timely s l)
  | .look =>
      have (e : Evt) : Decidable (∀ r ∈ e.result, s.matches r.1 = false) :=
        Option.decidableForallMem _
      inferInstanceAs (Decidable (s.caller.listens = true →
        ∀ e ∈ s.fifo.head?, e.late s → ∀ r ∈ e.result, s.matches r.1 = false))
  | .give => inferInstanceAs (Decidable (s.caller.listens = true → s.fwd.call = some s.calls))
  | .notSent err => inferInstanceAs (Decidable (err ≠ -eIo))
  | .call _ | .noBuffer | .reset | .ready | .arm | .sent | .take | .timeOut | .check | .release
  | .answer .. | .other .. | .store | .clear => isTrue trivial

end Nrf54Sniffer.Ble.Protocol
