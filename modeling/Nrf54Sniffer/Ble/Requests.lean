/-
Nrf54Sniffer.Ble.Requests — what the work items ask of the controller, and for
which capture.

A request waits in one of three places until its work item comes to it:
`sync_q`, the mailbox `big_params`, the table `bis_handles`. The work item takes
it, tests `running`, waits for `cmd_lock` and sends the command. All this time the
forwarding thread may add requests, and STOP and START may run, which wait for the
same lock. Of the three places `scan_started` empties two, and then sets `running`.

A Reset ends one session of the controller and begins the next, and a START that
comes to the end of `scan_started` makes a capture of its session. Each packet goes
with the session the controller was in when it sent it, each request with the
session of the packet it was noted in, and each command sent with the capture that
ran then. None of the code reads these numbers.
-/
import Nrf54Sniffer.Lib.Machine
import Nrf54Sniffer.Ble.Slots

namespace Nrf54Sniffer.Ble.Requests

open Nrf54Sniffer.Lib
open Nrf54Sniffer.Wire

/-! ## State -/

/-- A packet in `hci_rx`, and the session it is from. -/
structure Packet where
  h4 : UInt8
  data : List UInt8
  session : Nat
  deriving DecidableEq, Repr

/-- The sessions of what waits: of each request in `sync_q`, of the one in
`big_params`, and of the handles in `bis_handles`. -/
structure Causes where
  sync : List Nat := []
  big : Nat := 0
  paths : Nat := 0
  deriving DecidableEq, Repr

/-- A request a work item has taken. BIG Create Sync stays in its mailbox. -/
inductive Job where
  | train (req : SyncReq) (cause : Nat)
  | broadcast
  | path (i : Nat) (handle : UInt16) (cause : Nat)
  deriving DecidableEq, Repr

/-- The packet the forwarding thread has taken off `hci_rx`: before its test of
`running`, and before each of `note_counts`, `note_periodic` and `note_biginfo`. -/
inductive Hand where
  | empty
  | fetched (p : Packet)
  | admitted (p : Packet)
  | counted (p : Packet)
  | sought (p : Packet)
  deriving DecidableEq, Repr

def Hand.packet : Hand → Option Packet
  | .empty => none
  | .fetched p | .admitted p | .counted p | .sought p => some p

/-- The packet reports a BIG joined. -/
def Packet.joins (p : Packet) : Bool := Slots.reports p.h4 p.data == some (.broadcast, true)

/-- The system work queue, on which the three work items run. -/
inductive Worker where
  | idle
  /-- In `sync_work_fn`, before `k_msgq_get`. -/
  | syncing
  /-- In `iso_path_work_fn`, before stream `i`. -/
  | pathing (i : Nat)
  /-- `running` not yet tested. -/
  | took (job : Job)
  /-- The tests have passed, and `cmd_lock` is waited for. -/
  | ready (job : Job)
  /-- `cmd_lock` is held, and the command not yet sent. -/
  | locked (job : Job)
  /-- In `k_sem_take`. -/
  | awaiting (job : Job)
  /-- Back from `hci_command`, the outcome not yet noted. -/
  | returned (job : Job) (ok : Bool)
  deriving DecidableEq, Repr

/-- The request at work on. -/
def Worker.job : Worker → Option Job
  | .idle | .syncing | .pathing _ => none
  | .took job | .ready job | .locked job | .awaiting job | .returned job _ => some job

/-- The request taken, with `running` still to be tested. -/
def Worker.untested : Worker → Option Job
  | .took job => some job
  | _ => none

/-- The request past its test, with the command still to be sent. -/
def Worker.bound : Worker → Option Job
  | .ready job | .locked job => some job
  | _ => none

theorem Worker.job_of_untested {w : Worker} {job : Job} (h : job ∈ w.untested) :
    w.job = some job := by
  cases w with
  | took job' => exact h
  | _ => cases h

theorem Worker.job_of_bound {w : Worker} {job : Job} (h : job ∈ w.bound) : w.job = some job := by
  cases w with
  | ready job' => exact h
  | locked job' => exact h
  | _ => cases h

def Worker.holds : Worker → Bool
  | .locked _ | .awaiting _ => true
  | _ => false

/-- The control thread, in STOP or in START: the opcodes of the commands still
to come, and whether `scan_started` follows them. -/
inductive Control where
  | idle
  /-- STOP has cleared `running` and not yet the slots. -/
  | stopping
  | todo (opcodes : List UInt16) (scan : Bool)
  | locked (opcode : UInt16) (opcodes : List UInt16) (scan : Bool)
  | awaiting (opcodes : List UInt16) (scan : Bool)
  /-- In `scan_started`, before the store. -/
  | opening (store : ScanStore)
  deriving DecidableEq, Repr

/-- In `scan_started` behind the store. -/
def Control.after (store : ScanStore) : Control :=
  match store.next with
  | some store => .opening store
  | none => .idle

def Control.holds : Control → Bool
  | .locked .. | .awaiting .. => true
  | _ => false

/-- The next command is a Reset. -/
def Control.resetting : Control → Bool
  | .locked opcode .. => opcode == opReset
  | _ => false

/-- The commands a START has still to send. -/
def Control.starting : Control → Option (List UInt16)
  | .todo opcodes true | .awaiting opcodes true => some opcodes
  | .locked opcode opcodes true => some (opcode :: opcodes)
  | .opening _ => some []
  | _ => none

/-- `scan_started` has emptied `bis_handles`, and not yet set `running`. -/
def Control.emptiedHandles : Control → Bool
  | .opening .syncQ | .opening .running => true
  | _ => false

/-- The same of `sync_q`. -/
def Control.emptiedQueue : Control → Bool
  | .opening .running => true
  | _ => false

/-- A request sent: the session of the packet that caused it, and the capture
that ran. -/
structure Sent where
  command : HciCommand
  cause : Nat
  during : Option Nat
  deriving DecidableEq, Repr

/-- `session` counts the Resets sent, and `heard` is the session the controller
is in. `capture` is the session captured, from when `scan_started` sets `running`
until STOP clears it or a Reset is sent. -/
structure State where
  ble : BleRadio
  session : Nat := 0
  heard : Nat := 0
  capture : Option Nat := none
  causes : Causes := {}
  fifo : List Packet := []
  hand : Hand := .empty
  worker : Worker := .idle
  control : Control := .idle
  sent : List Sent := []

/-- A step inside `hci_command`. It fails for want of a buffer or in `bt_send`,
with nothing sent. -/
inductive CallLabel where
  | lock
  | send
  | fail
  | answer (ok : Bool)
  deriving DecidableEq, Repr

/-- A step of the controller; of the forwarding thread; of the work queue; and of
the control thread. -/
inductive Label where
  | obey
  | deliver (h4 : UInt8) (data : List UInt8)
  | fetch
  | screen
  | count (now : Readings)
  | seek
  | ask (now : Readings)
  | runSync
  | runBig
  | runPaths
  | take
  | test
  | work (l : CallLabel)
  | note (uptime : Int)
  | stop
  | free
  | start (phys : UInt8)
  | control (l : CallLabel)
  | done
  | write
  | setPeriodic (enable : Bool)
  | setFilter (payload : List UInt8)
  | setKeys (keys : ByteBuffer (maxKeys * keyEntry)) (keyCount : Nat)

/-! ## Requests -/

/-- The session of the packet a request was noted in. -/
def State.cause (s : State) : Job → Nat
  | .train _ cause => cause
  | .broadcast => s.causes.big
  | .path _ _ cause => cause

/-- Only the mailbox's session is read from the state. -/
theorem cause_congr {s t : State} (h : t.causes.big = s.causes.big) (job : Job) :
    t.cause job = s.cause job := by
  cases job with
  | broadcast => exact h
  | _ => rfl

/-- The command a request is sent as. -/
def command (s : BleRadio) : Job → HciCommand
  | .train req _ => ⟨opLePerAdvCreateSync, perAdvCreateSyncParams req⟩
  | .broadcast => ⟨opLeBigCreateSync, s.follow.bigParams⟩
  | .path _ handle _ => ⟨opLeSetupIsoPath, setupIsoPathParams handle⟩

/-- The test of `running`, and in `sync_work_fn` of the slot. -/
def may (s : BleRadio) : Job → Bool
  | .train .. => mayCreateSync s
  | .broadcast | .path .. => s.running

/-- The outcome of the command, noted. -/
def noted (s : BleRadio) (ok : Bool) (uptime : Int) : Job → BleRadio
  | .train .. => Slots.tallied s .train ok uptime
  | .broadcast => Slots.tallied s .broadcast ok uptime
  | .path .. => s

/-- Where the work item goes on after a command. -/
def Job.next : Job → Worker
  | .train .. => .syncing
  | .broadcast => .idle
  | .path i .. => .pathing (i + 1)

/-- Where the test sends a work item that is not to go on: a broadcast is tried
again later, as after a refusal. -/
def Job.refused : Job → Worker
  | .train .. => .syncing
  | .broadcast => .returned .broadcast false
  | .path .. => .idle

/-! ## Steps -/

/-- The controller accepts a command only when it has carried out the Resets
before it. -/
def State.answers (s : State) (ok : Bool) : Bool := !ok || s.heard == s.session

/-- The steps of the controller: it carries out the Resets it was sent, and sends
packets of the session it is in. -/
def stepController (s : State) : Label → Option State
  | .obey => some { s with heard := s.session }
  | .deliver h4 data => some { s with fifo := s.fifo ++ [⟨h4, data, s.heard⟩] }
  | _ => none

/-- After `note_counts`: the handles are the packet's, if it reports a BIG
joined. -/
def State.counted (s : State) (p : Packet) (ble : BleRadio) : State :=
  { s with
    ble
    causes := if p.joins then { s.causes with paths := p.session } else s.causes
    hand := .counted p }

/-- After `note_periodic`: a request that went into `sync_q` is the packet's. -/
def State.sought (s : State) (p : Packet) (ble : BleRadio) : State :=
  { s with
    ble
    causes := if ble.follow.syncQ = s.ble.follow.syncQ then s.causes
      else { s.causes with sync := s.causes.sync ++ [p.session] }
    hand := .sought p }

/-- After `note_biginfo`: a request that went into the mailbox is the packet's. -/
def State.asked (s : State) (p : Packet) (ble : BleRadio) : State :=
  { s with
    ble
    causes := if ble.follow.bigPending = s.ble.follow.bigPending then s.causes
      else { s.causes with big := p.session }
    hand := .empty }

/-- The packet is counted. -/
def countPacket (s : BleRadio) (p : Packet) (now : Readings) : Option BleRadio :=
  countEvent (countOversized s (sizePacket p.h4 p.data now.nowUs)) p.h4 p.data now

/-- The steps of the forwarding thread. -/
def stepFwd (s : State) (l : Label) : Option State :=
  match s.hand, l with
  | .empty, .fetch =>
      match s.fifo with
      | p :: fifo => some { s with hand := .fetched p, fifo }
      | [] => none
  | .fetched p, .screen =>
      some { s with
        hand := if s.ble.running && captures p.h4 p.data then .admitted p else .empty }
  | .admitted p, .count now => (countPacket s.ble p now).map (s.counted p)
  | .counted p, .seek =>
      if s.ble.periodicEnabled ∧ p.h4 = h4Event then
        (notePeriodic s.ble (peekCopy p.data)).map (s.sought p)
      else some { s with hand := .empty }
  | .sought p, .ask now =>
      (noteBigInfo s.ble (peekCopy p.data) now.uptimeBigInfo).map (s.asked p)
  | _, _ => none

/-- The work item a worker begins with is no longer submitted. -/
def stepIdle (s : State) : Label → Option State
  | .runSync =>
      if s.ble.follow.syncWork then
        some { s with
          ble := { s.ble with follow := { s.ble.follow with syncWork := false } }
          worker := .syncing }
      else none
  | .runBig =>
      if s.ble.follow.bigWork then
        some { s with ble := beginBigWork s.ble, worker := .took .broadcast }
      else none
  | .runPaths =>
      if s.ble.follow.isoPathWork then
        some { s with ble := beginIsoPathWork s.ble, worker := .pathing 0 }
      else none
  | _ => none

/-- `k_msgq_get`. -/
def takeReq (s : State) : State :=
  match s.ble.follow.syncQ, s.causes.sync with
  | req :: syncQ, cause :: sync =>
      { s with
        ble := { s.ble with follow := { s.ble.follow with syncQ } }
        causes := { s.causes with sync }
        worker := .took (.train req cause) }
  | _, _ => { s with worker := .idle }

/-- `i < bis_count`, and the handle of stream `i`. -/
def takeHandle (s : State) (i : Nat) : State :=
  match s.ble.follow.bisHandles[i]? with
  | some handle => { s with worker := .took (.path i handle s.causes.paths) }
  | none => { s with worker := .idle }

/-- The command goes to the controller. -/
def State.issue (s : State) (job : Job) : State :=
  { s with
    worker := .awaiting job
    sent := s.sent ++ [⟨command s.ble job, s.cause job, s.capture⟩] }

/-- The steps of the work queue. -/
def stepWorker (s : State) (l : Label) : Option State :=
  match s.worker, l with
  | .idle, l => stepIdle s l
  | .syncing, .take => some (takeReq s)
  | .pathing i, .take => some (takeHandle s i)
  | .took job, .test =>
      some { s with worker := if may s.ble job then .ready job else job.refused }
  | .ready job, .work .lock =>
      if s.control.holds then none else some { s with worker := .locked job }
  | .locked job, .work .send => some (s.issue job)
  | .locked job, .work .fail => some { s with worker := .returned job false }
  | .awaiting job, .work (.answer ok) =>
      if s.answers ok then some { s with worker := .returned job ok } else none
  | .returned job ok, .note uptime =>
      some { s with ble := noted s.ble ok uptime job, worker := job.next }
  | _, _ => none

/-- A command of the control thread goes to the controller. -/
def State.commanded (s : State) (opcode : UInt16) : State :=
  if opcode = opReset then { s with session := s.session + 1, capture := none } else s

/-- A store of `scan_started`. The capture begins with the last. -/
def State.written (s : State) (store : ScanStore) : State :=
  { s with
    ble := store.write s.ble
    causes := if store = .syncQ then { s.causes with sync := [] } else s.causes
    capture := if store = .running then some s.session else s.capture
    control := .after store }

/-- The steps of the control thread. -/
def stepControl (s : State) (l : Label) : Option State :=
  match s.control, l with
  | .idle, .stop =>
      some { s with ble := stopCapture s.ble, capture := none, control := .stopping }
  | .stopping, .free => some { s with ble := freeSlots s.ble, control := .todo [opReset] false }
  | .idle, .start phys =>
      if s.ble.ready then some { s with control := .todo (startOpcodes s.ble phys) true } else none
  | .todo (opcode :: opcodes) scan, .control .lock =>
      if s.worker.holds then none else some { s with control := .locked opcode opcodes scan }
  | .locked opcode opcodes scan, .control .send =>
      some { s.commanded opcode with control := .awaiting opcodes scan }
  | .locked .., .control .fail => some { s with control := .idle }
  | .awaiting opcodes scan, .control (.answer ok) =>
      if s.answers ok then some { s with control := if ok then .todo opcodes scan else .idle }
      else none
  | .todo [] scan, .done => some { s with control := if scan then .opening .syncCount else .idle }
  | .opening store, .write => some (s.written store)
  | .idle, .setPeriodic enable => some { s with ble := snRadioBleSetPeriodic s.ble enable }
  | .idle, .setFilter payload => some { s with ble := snRadioBleSetFilter s.ble payload }
  | .idle, .setKeys keys keyCount => some { s with ble := { s.ble with keys, keyCount } }
  | _, _ => none

/-- Whose step it is. -/
def step (s : State) : Label → Option State
  | .obey => stepController s .obey
  | .deliver h4 data => stepController s (.deliver h4 data)
  | .fetch => stepFwd s .fetch
  | .screen => stepFwd s .screen
  | .count now => stepFwd s (.count now)
  | .seek => stepFwd s .seek
  | .ask now => stepFwd s (.ask now)
  | .stop => stepControl s .stop
  | .free => stepControl s .free
  | .start phys => stepControl s (.start phys)
  | .control l => stepControl s (.control l)
  | .done => stepControl s .done
  | .write => stepControl s .write
  | .setPeriodic enable => stepControl s (.setPeriodic enable)
  | .setFilter payload => stepControl s (.setFilter payload)
  | .setKeys keys keyCount => stepControl s (.setKeys keys keyCount)
  | l => stepWorker s l

/-- The controller, the forwarding thread, the work items, and STOP and START. -/
def machine : Machine State Label := ⟨step⟩

/-- After boot, with the controller up. -/
def initial : State where
  ble := { ready := true }

/-! ## The property and the condition -/

/-- Every request was sent in the capture of the packet that caused it. -/
def Contained (s : State) : Prop := ∀ r ∈ s.sent, r.during = some r.cause

/-- Not from another session than the capture that runs. -/
def State.Current (s : State) (cause : Nat) : Prop :=
  s.ble.running = true → ∀ n ∈ s.capture, cause = n

theorem State.Current.congr {s t : State} {cause : Nat} (h : s.Current cause)
    (hrunning : t.ble.running = s.ble.running) (hcapture : t.capture = s.capture) :
    t.Current cause := by
  unfold State.Current
  rw [hrunning, hcapture]
  exact h

/-- Nor from another than the capture about to begin, when `scan_started` has
emptied the place it waits in. -/
def State.Fits (s : State) (emptied : Bool) (cause : Nat) : Prop :=
  s.Current cause ∧ (emptied = true → cause = s.session)

/-- A packet is of the capture that runs when a request is noted in it, or of the
one about to begin when `scan_started` has emptied the place; a work item does not
pass its test between a Reset and the end of START; STOP does not clear `running`,
and a Reset is not sent, while a work item past its test has its command still to
send; and when `scan_started` sets `running`, neither the mailbox of a submitted
`big_work` nor a work item has a request from before the Reset. -/
def Separate (s : State) : Label → Prop
  | .count now => ∀ p ∈ s.hand.packet, p.joins = true →
      ∀ ble ∈ countPacket s.ble p now, ble.follow.bisHandles ≠ [] →
        s.Fits s.control.emptiedHandles p.session
  | .seek => ∀ p ∈ s.hand.packet, ∀ ble ∈ notePeriodic s.ble (peekCopy p.data),
      ble.follow.syncQ ≠ s.ble.follow.syncQ → s.Fits s.control.emptiedQueue p.session
  | .ask now => ∀ p ∈ s.hand.packet,
      ∀ ble ∈ noteBigInfo s.ble (peekCopy p.data) now.uptimeBigInfo,
        ble.follow.bigPending ≠ s.ble.follow.bigPending → s.Current p.session
  | .test => ∀ job ∈ s.worker.untested, may s.ble job = true → s.capture ≠ none
  | .stop => s.worker.bound = none
  | .control .send => s.control.resetting = true → s.worker.bound = none
  | .write => s.control = .opening .running →
      (s.ble.follow.bigWork = true → s.causes.big = s.session) ∧
        ∀ job ∈ s.worker.untested, s.cause job = s.session
  | _ => True

instance (s : State) : Decidable (Contained s) :=
  inferInstanceAs (Decidable (∀ r ∈ s.sent, r.during = some r.cause))

instance (s : State) (cause : Nat) : Decidable (s.Current cause) :=
  inferInstanceAs (Decidable (_ → ∀ n ∈ s.capture, cause = n))

instance (s : State) (emptied : Bool) (cause : Nat) : Decidable (s.Fits emptied cause) :=
  inferInstanceAs (Decidable (s.Current cause ∧ (_ → cause = s.session)))

instance decidableSeparate (s : State) : (l : Label) → Decidable (Separate s l)
  | .count now =>
      inferInstanceAs (Decidable (∀ p ∈ s.hand.packet, p.joins = true →
        ∀ ble ∈ countPacket s.ble p now, _ → s.Fits _ p.session))
  | .seek =>
      inferInstanceAs (Decidable (∀ p ∈ s.hand.packet,
        ∀ ble ∈ notePeriodic s.ble (peekCopy p.data), _ → s.Fits _ p.session))
  | .ask now =>
      inferInstanceAs (Decidable (∀ p ∈ s.hand.packet,
        ∀ ble ∈ noteBigInfo s.ble (peekCopy p.data) now.uptimeBigInfo, _ → s.Current p.session))
  | .test =>
      inferInstanceAs (Decidable (∀ job ∈ s.worker.untested,
        may s.ble job = true → s.capture ≠ none))
  | .stop => inferInstanceAs (Decidable (s.worker.bound = none))
  | .control .send =>
      inferInstanceAs (Decidable (s.control.resetting = true → s.worker.bound = none))
  | .write =>
      inferInstanceAs (Decidable (s.control = .opening .running →
        (_ → _ = _) ∧ ∀ job ∈ s.worker.untested, s.cause job = s.session))
  | .obey | .deliver .. | .fetch | .screen | .runSync | .runBig | .runPaths | .take | .work _
  | .note _ | .free | .start _ | .done | .control .lock | .control .fail | .control (.answer _)
  | .setPeriodic _ | .setFilter _ | .setKeys .. => isTrue trivial

end Nrf54Sniffer.Ble.Requests
