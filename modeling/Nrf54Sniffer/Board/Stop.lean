/-
Nrf54Sniffer.Board.Stop — stopping a capture, with the threads apart.

STOP, GET_INFO and a SET_RADIO that leaves a radio behind are handled in the
steps of `stop_radio`: the control thread's `todo` lists the ones still to
come. Between any two of them the receive thread may take a packet past the
tests of `net_recv_data` or give it to `sn_batch_add`, the forwarding thread
may take one past the test of `fwd_loop` or on through `forward`, and either
linger timer may fire. The other commands and the background work are whole
calls, as in `Board/Machine.lean`.

A call under a batch's lock is one step, and so is a command to the
controller: what the other threads do while it is waited for, they may as well
do before it or after it. Cancelling a timer changes nothing here, because a
timer may fire whenever it likes.

`mark` is a ghost: how many frames had been handed to the link once the reply
of the last STOP or GET_INFO was, until a radio is started again.
-/
import Nrf54Sniffer.Board.Machine

namespace Nrf54Sniffer.Board.Stop

open Nrf54Sniffer.Lib
open Nrf54Sniffer.Wire
open Nrf54Sniffer.Batch (snBatchAdd)
open Nrf54Sniffer.Radio154
open Nrf54Sniffer.Ble
open Nrf54Sniffer.Control

/-! ## State -/

/-- A step of the control thread on its way to the reply. -/
inductive Act where
  /-- `sn_radio154_stop`, then `sn_batch_flush`. -/
  | halt154
  | flush154
  /-- `sn_radio_ble_stop`: `running` and the keys cleared, the batch flushed,
  the slots freed and the controller reset. The answer is 0 without it where
  the controller never came up. -/
  | haltBle
  | flushBle
  | resetBle
  | skipBle
  /-- What each of the three commands ends with. -/
  | replyStop (command : UInt8)
  | replyInfo (command : UInt8)
  | replySelect (command : UInt8) (value : UInt32)
  deriving DecidableEq, Repr

/-- A packet the forwarding thread has taken past the test of `running`, before
and after the part of `forward` that needs no lock. -/
inductive Forwarding where
  | tested (h4 : UInt8) (data : List UInt8)
  | looked (p : Sized)
  deriving DecidableEq, Repr

/-- The firmware, the packet each receiving thread is at, what the control
thread still has to do, and the error of the stop in hand. -/
structure State where
  fw : Firmware
  held154 : Option NetPkt := none
  heldBle : Option Forwarding := none
  todo : List Act := []
  err : Int := 0
  mark : Option Nat := none

/-- A step of one of the threads. -/
inductive Label where
  | hostFrame (type : FrameType) (payload : List UInt8)
  | advance
  | deliver154 (pkt : Option NetPkt)
  | append154
  | linger154
  | deliverBle (h4 : UInt8) (data : List UInt8)
  | lookBle (now : Readings)
  | appendBle
  | lingerBle
  | background (i : Input)

/-! ## The control thread -/

/-- The steps of `stop_radio`. -/
def stopActs (fw : Firmware) (radio : UInt8) : List Act :=
  if radio = radioBle then (if fw.ble.ready then [.haltBle, .flushBle, .resetBle] else [.skipBle])
  else [.halt154, .flush154]

/-- SET_RADIO stops the radio it leaves. -/
def leavesRadio (fw : Firmware) (value : UInt32) : Bool :=
  (value == radio154.toUInt32 || value == radioBle.toUInt32) && value != fw.selectedRadio.toUInt32

/-- The steps of a command that stops a radio. -/
def commandActs (p : Platform) (fw : Firmware) (command : UInt8) (value : UInt32) :
    Option (List Act) :=
  match p.command command with
  | .stop => some (stopActs fw fw.selectedRadio ++ [.replyStop command])
  | .getInfo =>
      some (stopActs fw radio154 ++ stopActs fw radioBle ++ [.replyInfo command])
  | .setRadio =>
      if leavesRadio fw value then
        some (stopActs fw fw.selectedRadio ++ [.replySelect command value])
      else none
  | _ => none

/-- The same for a frame of the host. -/
def frameActs (p : Platform) (fw : Firmware) (type : FrameType) (payload : List UInt8) :
    Option (List Act) :=
  match type, payload with
  | .controlCmd, command :: b0 :: b1 :: b2 :: b3 :: _ =>
      commandActs p fw command (getLe32 b0 b1 b2 b3)
  | _, _ => none

/-- START and SET_CHANNEL: the commands that start a radio. -/
def isStart (p : Platform) : FrameType → List UInt8 → Bool
  | .controlCmd, command :: _ :: _ :: _ :: _ :: _ =>
      p.command command == .start || p.command command == .setChannel
  | _, _ => false

/-- Some radio captures. -/
def capturing (fw : Firmware) : Bool := fw.radio.running || fw.ble.running

/-- A frame handled in one go. A START or SET_CHANNEL after which some radio
captures ends the time after a stop. -/
def handled (p : Platform) (s : State) (type : FrameType) (payload : List UInt8)
    (fw : Firmware) : State :=
  { s with fw, mark := if isStart p type payload && capturing fw then none else s.mark }

/-- The control thread takes up a frame. -/
def accept (p : Platform) (s : State) (type : FrameType) (payload : List UInt8) : Option State :=
  match frameActs p s.fw type payload with
  | some todo => some { s with todo }
  | none => (snControlHandle p s.fw type payload).map (handled p s type payload)

/-- The reply that ends a capture has been handed over. -/
def State.ended (s : State) (fw : Firmware) : State :=
  { s with fw, mark := some fw.outbox.frames.length }

/-- What an act does. -/
def perform (p : Platform) (s : State) : Act → Option State
  | .halt154 =>
      let (radio, err) := snRadio154Stop s.fw.radio
      some { s with fw := { s.fw with radio }, err }
  | .flush154 => (flushBatch s.fw).map fun fw => { s with fw }
  | .haltBle => some { s with fw := { s.fw with ble := stopCapture s.fw.ble } }
  | .flushBle =>
      (stopFlush s.fw.ble s.fw.outbox).map fun (ble, outbox) =>
        { s with fw := { s.fw with ble, outbox } }
  | .resetBle =>
      let (fw, err) := sendCommand { s.fw with ble := freeSlots s.fw.ble } opReset []
      some { s with fw, err }
  | .skipBle => some { s with err := 0 }
  | .replyStop command => some (s.ended (reply p s.fw command (okOrFailed s.err) 0))
  | .replyInfo command =>
      some (s.ended (reply p (freshSession s.fw) command .ok snFirmwareVersion))
  | .replySelect command value =>
      some { s with fw := reply p { s.fw with selectedRadio := value.toUInt8 } command .ok value }

/-- The next act. -/
def advance (p : Platform) (s : State) : Option State :=
  match s.todo with
  | [] => none
  | a :: todo => (perform p s a).map fun s => { s with todo }

/-! ## The receiving threads -/

/-- The tests of `net_recv_data`: the packet that goes on to the batch. -/
def admitted (r : Radio) (pkt : Option NetPkt) : Option NetPkt :=
  pkt.filter fun pkt => pkt.psdu != [] && r.takes

/-- The rest of `net_recv_data`. -/
def append154 (fw : Firmware) (pkt : NetPkt) : Option Firmware :=
  (snBatchAdd fw.batcher fw.outbox (fw.radio.packetOf pkt)).map fun (batcher, outbox) =>
    { fw with radio := { fw.radio with captured := fw.radio.captured + 1 }, batcher, outbox }

/-- The answer looked for, and the test of `running`. -/
def deliverBle (s : State) (h4 : UInt8) (data : List UInt8) : Option State :=
  (noteAnswer s.fw.slot h4 data).map fun slot =>
    { s with
      fw := { s.fw with slot }
      heldBle := if s.fw.ble.running && captures h4 data then some (.tested h4 data) else none }

/-- The part of `forward` before the lock. -/
def lookBle (s : State) (now : Readings) : Option State :=
  match s.heldBle with
  | some (.tested h4 data) =>
      (beforeLock s.fw.ble h4 data now).map fun (ble, p) =>
        { s with fw := { s.fw with ble }, heldBle := some (.looked p) }
  | _ => none

/-- The part under it. -/
def appendBle (s : State) : Option State :=
  match s.heldBle with
  | some (.looked p) =>
      (appendLocked s.fw.ble s.fw.outbox p).map fun (ble, outbox) =>
        { s with fw := { s.fw with ble, outbox }, heldBle := none }
  | _ => none

/-! ## The machine -/

/-- One step. -/
def step (p : Platform) (s : State) : Label → Option State
  | .hostFrame type payload => if s.todo = [] then accept p s type payload else none
  | .advance => advance p s
  | .deliver154 pkt =>
      if s.held154 = none then some { s with held154 := admitted s.fw.radio pkt } else none
  | .append154 =>
      s.held154.bind fun pkt => (append154 s.fw pkt).map fun fw => { s with fw, held154 := none }
  | .linger154 => (batchLinger s.fw).map fun fw => { s with fw }
  | .deliverBle h4 data =>
      if s.heldBle = none ∧ data.length ≤ 65534 then deliverBle s h4 data else none
  | .lookBle now => lookBle s now
  | .appendBle => appendBle s
  | .lingerBle => (bleLinger s.fw).map fun fw => { s with fw }
  | .background i =>
      if i.background then (Board.step p s.fw i).map fun fw => { s with fw } else none

/-- The firmware as a machine of threads. -/
def machine (p : Platform) : Machine State Label := ⟨step p⟩

/-- The firmware just booted. -/
def initial (w : World) : State := { fw := boot w }

/-- No frame handed over since the reply that ended the capture carries what a
radio heard. -/
def Ended (s : State) : Prop :=
  ∀ n ∈ s.mark, ∀ f ∈ s.fw.outbox.frames.drop n, f.type.carriesPackets = false

/-! ## The condition -/

/-- A batch is given a packet while its radio runs, or at the latest before
the flush of the stop that ends the capture; and the driver has taken the stop
when its batch is flushed. -/
def Prompt (s : State) : Label → Prop
  | .append154 => s.fw.radio.running = true ∨ Act.flush154 ∈ s.todo ∧ s.mark = none
  | .appendBle => s.fw.ble.running = true ∨ Act.flushBle ∈ s.todo ∧ s.mark = none
  | .advance => s.todo.head? = some .flush154 → s.fw.radio.running = false
  | _ => True

instance (s : State) : Decidable (Ended s) :=
  inferInstanceAs (Decidable (∀ n ∈ s.mark, ∀ f ∈ s.fw.outbox.frames.drop n, _))

instance (s : State) : (l : Label) → Decidable (Prompt s l)
  | .append154 | .appendBle => inferInstanceAs (Decidable (_ ∨ _ ∧ _))
  | .advance => inferInstanceAs (Decidable (_ → _))
  | .hostFrame .. | .deliver154 _ | .linger154 | .deliverBle .. | .lookBle _ | .lingerBle
  | .background _ => isTrue trivial

end Nrf54Sniffer.Board.Stop
