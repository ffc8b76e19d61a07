/-
Nrf54Sniffer.Ble.Slots — who takes and frees the periodic and the BIG slot.

`sync_count` and `big_synced` are written by three threads. The worker takes a
slot some time after its command was answered; the forwarding thread frees it
on a report that the sync failed or was lost, and takes the BIG slot on a
report that it was made; STOP and START clear both. This machine puts them
beside the commands and answers of `Protocol`, and beside the controller,
which holds at most one sync of each kind and loses both on a Reset.

Two things are here for the statements only: `standing`, what the controller
holds, and `stale`, how many packets of `hci_rx` it sent before its last Reset.
-/
import Nrf54Sniffer.Ble.Protocol
import Nrf54Sniffer.Ble.Reports

namespace Nrf54Sniffer.Ble.Slots

open Nrf54Sniffer.Lib
open Nrf54Sniffer.Wire

/-! ## The two slots -/

/-- The outcome of a command, noted in its slot: the end of a turn of
`sync_work_fn`, and of `big_work_fn`. -/
def tallied (s : BleRadio) : Kind → Bool → Int → BleRadio
  | .train, true, _ => { s with follow := { s.follow with syncCount := s.follow.syncCount + 1 } }
  | .train, false, _ => s
  | .broadcast, ok, uptime => finishBig s ok uptime

/-- The packet reports a sync of the kind failed or lost. -/
def Ends (k : Kind) (e : Protocol.Evt) : Prop := reports e.h4 e.data = some (k, false)

/-- The packet reports a BIG joined. -/
def Joined (e : Protocol.Evt) : Prop := reports e.h4 e.data = some (.broadcast, true)

/-! ## State -/

/-- What the controller has of a kind. -/
inductive Standing where
  | none
  | pending
  | held
  deriving DecidableEq, Repr

/-- The packet the forwarding thread has taken off `hci_rx`, before and after
its test of `running`, and whether it is from before the last Reset. -/
inductive Hand where
  | empty
  | fetched (e : Protocol.Evt) (old : Bool)
  | admitted (e : Protocol.Evt) (old : Bool)
  deriving DecidableEq, Repr

def Hand.evt : Hand → Option Protocol.Evt
  | .empty => none
  | .fetched e _ | .admitted e _ => some e

/-- The packet in hand, if it is from after the last Reset. -/
def Hand.fresh : Hand → Option Protocol.Evt
  | .fetched e false | .admitted e false => some e
  | _ => none

def Hand.aged : Hand → Hand
  | .empty => .empty
  | .fetched e _ => .fetched e true
  | .admitted e _ => .admitted e true

/-- The system work queue, on which both work items run. -/
inductive Worker where
  | idle
  /-- The tests have passed. -/
  | ready (k : Kind)
  /-- In `hci_command`. -/
  | calling (k : Kind)
  /-- Back from it, the slot not yet written. -/
  | returned (k : Kind) (ok : Bool)
  deriving DecidableEq, Repr

/-- The kind at work on. -/
def Worker.kind : Worker → Option Kind
  | .idle => none
  | .ready k | .calling k | .returned k _ => some k

/-- The control thread, in STOP or in START: the opcodes of the commands still
to come, and whether `scan_started` follows them. -/
inductive Control where
  | idle
  /-- STOP has cleared `running` and not yet the slots. -/
  | stopping
  | todo (opcodes : List UInt16) (scan : Bool)
  | calling (opcodes : List UInt16) (scan : Bool)
  /-- In `scan_started`, before the store. -/
  | opening (store : ScanStore)
  deriving DecidableEq, Repr

/-- In `scan_started` behind the store. -/
def Control.after (store : ScanStore) : Control :=
  match store.next with
  | some store => .opening store
  | none => .idle

structure State where
  hci : Protocol.State := {}
  ble : BleRadio
  standing : Kind → Standing := fun _ => .none
  hand : Hand := .empty
  stale : Nat := 0
  worker : Worker := .idle
  control : Control := .idle

/-- A step of the caller, the controller or the forwarding thread inside
`note_command_result`; of the worker; of the forwarding thread after it; a
report of the controller; and of the control thread. -/
inductive Label where
  | hci (l : Protocol.Label)
  | request
  | join
  | issue
  | tally (uptime : Int)
  | test
  | count (now : Readings)
  | established (k : Kind) (v2 : Bool) (status : UInt8) (rest : List UInt8)
  | lost (k : Kind) (rest : List UInt8)
  | stop
  | free
  | start (phys : UInt8)
  | command
  | done
  | write
  | setPeriodic (enable : Bool)
  deriving Repr

/-! ## Steps -/

def State.stand (s : State) (k : Kind) (standing : Standing) : State :=
  { s with standing := fun k' => if k' = k then standing else s.standing k' }

@[simp] theorem stand_self (s : State) (k : Kind) (standing : Standing) :
    (s.stand k standing).standing k = standing := if_pos rfl

theorem stand_other (s : State) {k k' : Kind} (standing : Standing) (h : k' ≠ k) :
    (s.stand k standing).standing k' = s.standing k' := if_neg h

/-- The controller loses what it held. -/
def State.reset (s : State) : State :=
  { s with standing := fun _ => .none, hand := s.hand.aged, stale := s.hci.fifo.length }

/-- The controller carries a command out, and answers `status`. A second sync
of a kind it refuses. -/
def obey (s : State) (opcode : UInt16) (status : UInt8) : Option State :=
  if status ≠ 0 then some s
  else if opcode = opReset then some s.reset
  else
    match Kind.ofOpcode opcode with
    | some k => if s.standing k = .none then some (s.stand k .pending) else none
    | none => some s

/-- `hci_command` has returned to its caller. -/
def State.settle (s : State) (err : Int) : State :=
  match s.worker with
  | .calling k => { s with worker := .returned k (err = 0) }
  | _ =>
      match s.control with
      | .calling opcodes scan =>
          { s with control := if err = 0 then .todo opcodes scan else .idle }
      | _ => s

/-- A step of `Protocol`. -/
def lift (s : State) (l : Protocol.Label) : Option State :=
  (Protocol.step s.hci l).map fun hci => { s with hci }

/-- The steps of `Protocol`, and what goes with them here. -/
def stepHci (s : State) : Protocol.Label → Option State
  | .call _ => none
  | .look =>
      match s.hand, s.hci.fifo with
      | .empty, e :: _ =>
          lift { s with hand := .fetched e (s.stale != 0), stale := s.stale - 1 } .look
      | _, _ => none
  | .answer form status =>
      match s.hci.controller with
      | (_, opcode) :: _ => (obey s opcode status).bind fun s => lift s (.answer form status)
      | [] => none
  | .other h4 data => if reports h4 data = none then lift s (.other h4 data) else none
  | .noBuffer => (lift s .noBuffer).map fun s => s.settle (-eNoBufs)
  | .release =>
      match s.hci.caller with
      | .returning err => (lift s .release).map fun s => s.settle err
      | _ => none
  | l => lift s l

/-- `k_msgq_get` and the tests of `sync_work_fn`. -/
def takeRequest (s : State) (queue : List SyncReq) : State :=
  { s with
    ble := { s.ble with follow := { s.ble.follow with syncQ := queue } }
    worker := if mayCreateSync s.ble then .ready .train else .idle }

/-- The test of `big_work_fn`. -/
def takeJoin (s : State) : State :=
  { s with
    ble := beginBigWork s.ble
    worker := if s.ble.running then .ready .broadcast else .returned .broadcast false }

/-- The steps of the worker. -/
def stepWorker (s : State) (l : Label) : Option State :=
  match s.worker, l with
  | .idle, .request =>
      match s.ble.follow.syncQ with
      | _ :: queue => some (takeRequest s queue)
      | [] => none
  | .idle, .join => if s.ble.follow.bigWork then some (takeJoin s) else none
  | .ready k, .issue => lift { s with worker := .calling k } (.call k.opcode)
  | .returned k ok, .tally uptime =>
      some { s with ble := tallied s.ble k ok uptime, worker := .idle }
  | _, _ => none

/-- The rest of a turn of `fwd_loop`. -/
def stepFwd (s : State) (l : Label) : Option State :=
  match s.hand, l with
  | .fetched e old, .test =>
      if s.hci.fwd = .idle then
        some { s with
          hand := if s.ble.running && captures e.h4 e.data then .admitted e old else .empty }
      else none
  | .admitted e _, .count now =>
      (beforeLock s.ble e.h4 e.data now).map fun r => { s with ble := r.1, hand := .empty }
  | _, _ => none

/-- The reports of the controller. -/
def stepController (s : State) : Label → Option State
  | .established k v2 status rest =>
      if s.standing k = .pending ∧ (status = 0 → 13 ≤ rest.length) then
        lift (s.stand k (if status = 0 then .held else .none))
          (.other h4Event (leMetaEvent (k.establishedCode v2) (status :: rest)))
      else none
  | .lost k rest =>
      if s.standing k = .held then
        lift (s.stand k .none) (.other h4Event (leMetaEvent k.lostCode rest))
      else none
  | _ => none

/-- The steps of the control thread. -/
def stepControl (s : State) (l : Label) : Option State :=
  match s.control, l with
  | .idle, .stop => some { s with ble := stopCapture s.ble, control := .stopping }
  | .stopping, .free => some { s with ble := freeSlots s.ble, control := .todo [opReset] false }
  | .idle, .start phys =>
      if s.ble.ready then some { s with control := .todo (startOpcodes s.ble phys) true } else none
  | .todo (opcode :: opcodes) scan, .command =>
      lift { s with control := .calling opcodes scan } (.call opcode)
  | .todo [] scan, .done => some { s with control := if scan then .opening .syncCount else .idle }
  | .opening store, .write => some { s with ble := store.write s.ble, control := .after store }
  | .idle, .setPeriodic enable => some { s with ble := snRadioBleSetPeriodic s.ble enable }
  | _, _ => none

/-- Whose step it is. -/
def step (s : State) : Label → Option State
  | .hci l => stepHci s l
  | .request => stepWorker s .request
  | .join => stepWorker s .join
  | .issue => stepWorker s .issue
  | .tally uptime => stepWorker s (.tally uptime)
  | .test => stepFwd s .test
  | .count now => stepFwd s (.count now)
  | .established k v2 status rest => stepController s (.established k v2 status rest)
  | .lost k rest => stepController s (.lost k rest)
  | l => stepControl s l

/-- The two work items, the controller, the forwarding thread, and STOP and
START. -/
def machine : Machine State Label := ⟨step⟩

/-- After boot, with the controller up. -/
def initial : State where
  ble := { ready := true }

/-! ## The property and the condition -/

/-- No command for a sync of the kind is being issued or pending, the
controller holds none, and every packet has been processed. -/
def Quiet (s : State) (k : Kind) : Prop :=
  s.worker.kind ≠ some k ∧ (∀ c ∈ s.hci.controller, c.2 ≠ k.opcode) ∧
    s.standing k = .none ∧ s.hci.fifo = [] ∧ s.hand = .empty

/-- A slot is free when there is nothing to hold it for. -/
def NoLeak (s : State) : Prop := ∀ k, Quiet s k → taken s.ble k = false

/-- The call in progress has failed: it timed out, was refused or could not be
sent. -/
def failed (p : Protocol.State) : Bool :=
  match p.caller with
  | .returning err => err != 0
  | _ => false

/-- The packet accepts the command of the call in progress. -/
def State.Accepts (s : State) (e : Protocol.Evt) : Prop :=
  e.answers = some s.hci.calls ∧ e.result.map Prod.snd = some 0

/-- The worker's command was accepted by the controller, and the worker has
not noted it yet. -/
def State.Accepted (s : State) (k : Kind) : Prop :=
  (s.worker = .calling k ∧ failed s.hci = false ∧ (s.hci.calls, 0) ∈ s.hci.verdicts) ∨
    s.worker = .returned k true

/-- The same, and the forwarding thread has already come past the answer. -/
def State.Uncounted (s : State) (k : Kind) : Prop :=
  s.Accepted k ∧ (s.worker = .calling k → ∀ e ∈ s.hci.fifo, ¬ s.Accepts e)

/-- The controller carries a Reset out. -/
def State.resets (s : State) (l : Protocol.Label) : Bool :=
  match l, s.hci.controller with
  | .answer _ status, (_, opcode) :: _ => status == 0 && opcode == opReset
  | _, _ => false

/-- The end of a sync is not processed between the answer that accepted it and
the worker's note of it, nor skipped while its slot is taken; the controller
carries a Reset out when both slots are free and neither command is accepted
and not yet noted; a BIG reported as joined was not lost to a Reset since; and
answers are credited to their own commands. -/
def Ordered (s : State) : Label → Prop
  | .hci l =>
      Protocol.Timely s.hci l ∧
        (s.resets l = true → ∀ k, taken s.ble k = false ∧ ¬ s.Accepted k)
  | .test =>
      ∀ e ∈ s.hand.evt, s.ble.running = false → ∀ k, Ends k e →
        taken s.ble k = false ∧ ¬ s.Uncounted k
  | .count _ =>
      ∀ e ∈ s.hand.evt, (∀ k, Ends k e → ¬ s.Uncounted k) ∧ (Joined e → s.hand.fresh = some e)
  | _ => True

instance (k : Kind) (e : Protocol.Evt) : Decidable (Ends k e) :=
  inferInstanceAs (Decidable (_ = _))

instance (e : Protocol.Evt) : Decidable (Joined e) := inferInstanceAs (Decidable (_ = _))

instance (s : State) (k : Kind) : Decidable (Quiet s k) :=
  inferInstanceAs (Decidable (_ ∧ (∀ c ∈ s.hci.controller, c.2 ≠ k.opcode) ∧ _ ∧ _ ∧ _))

instance (s : State) : Decidable (NoLeak s) :=
  inferInstanceAs (Decidable (∀ k, Quiet s k → taken s.ble k = false))

instance (s : State) (e : Protocol.Evt) : Decidable (s.Accepts e) :=
  inferInstanceAs (Decidable (_ ∧ _))

instance (s : State) (k : Kind) : Decidable (s.Accepted k) :=
  inferInstanceAs (Decidable ((_ ∧ _ ∧ _) ∨ _))

instance (s : State) (k : Kind) : Decidable (s.Uncounted k) :=
  inferInstanceAs (Decidable (_ ∧ (_ → ∀ e ∈ s.hci.fifo, ¬ s.Accepts e)))

instance decidableOrdered (s : State) : (l : Label) → Decidable (Ordered s l)
  | .hci l => inferInstanceAs (Decidable (Protocol.Timely s.hci l ∧ (_ → ∀ k, _ ∧ ¬ s.Accepted k)))
  | .test =>
      inferInstanceAs (Decidable (∀ e ∈ s.hand.evt, s.ble.running = false → ∀ k, Ends k e →
        taken s.ble k = false ∧ ¬ s.Uncounted k))
  | .count _ =>
      inferInstanceAs (Decidable (∀ e ∈ s.hand.evt, (∀ k, Ends k e → ¬ s.Uncounted k) ∧
        (Joined e → s.hand.fresh = some e)))
  | .request | .join | .issue | .tally _ | .established .. | .lost .. | .stop | .free | .start _
  | .command | .done | .write | .setPeriodic _ => isTrue trivial

end Nrf54Sniffer.Ble.Slots
