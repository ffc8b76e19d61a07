/-
Nrf54Sniffer.Radio154.Threads — the 802.15.4 radio with its threads apart.

The driver hears frames, each on the channel it is tuned to, and queues them.
The receive thread takes them off the queue in order: `net_recv_data` tests
`measuring` and `running`, and some time later its call of `sn_batch_add` reads
`current_channel`. The control thread handles SET_CHANNEL, START, STOP and
ENERGY_DETECT in the steps of `Radio154/Radio.lean`, each driver call and each
store a step of its own. `Control` says where it is.

Two things are ghosts: when each frame was heard, and `added`, every packet
passed to `sn_batch_add` with the channel it was heard on.
-/
import Nrf54Sniffer.Lib.Machine
import Nrf54Sniffer.Radio154.Radio

namespace Nrf54Sniffer.Radio154

open Nrf54Sniffer.Lib
open Nrf54Sniffer.Wire
open Nrf54Sniffer.Batch (Batcher Packet snBatchAdd snBatchFlush lingerExpired)

/-! ## State -/

/-- A frame, the channel the radio was tuned to when it was heard, and how many
calls the driver had been given by then. -/
structure Heard where
  heardOn : UInt8
  heardAt : Nat
  pkt : NetPkt
  deriving DecidableEq, Repr

/-- A packet passed to `sn_batch_add`, and the channel it was heard on. -/
structure Added where
  heardOn : UInt8
  packet : Packet
  deriving DecidableEq, Repr

/-- A command of the host. -/
inductive Operation where
  | setChannel (channel : UInt8)
  | start
  | stop
  | energyDetect (channel : UInt8) (durationSymbols : UInt32)
  deriving DecidableEq, Repr

/-- What the control thread does next. -/
inductive Control where
  | idle
  /-- SET_CHANNEL: the driver's `set_channel`, then the store of
  `current_channel`. -/
  | tune (channel : UInt8)
  | store (channel : UInt8)
  /-- SET_CHANNEL and START: the driver's `start`, then `running = true`. -/
  | begin
  | begun
  /-- STOP: the driver's `stop`, then `running = false`, then the flush. -/
  | halt
  | halted
  | flush
  /-- ENERGY_DETECT, with what it puts back. -/
  | edTune (channel : UInt8) (ms : UInt32) (previous : UInt8) (wasRunning : Bool)
  | edReceive (ms : UInt32) (previous : UInt8) (wasRunning : Bool)
  | edScan (ms : UInt32) (previous : UInt8) (wasRunning : Bool)
  | edBack (previous : UInt8) (wasRunning : Bool)
  | edResume (wasRunning : Bool)
  | edClear
  deriving DecidableEq, Repr

/-- The radio, the batcher, the link, the driver's queue, the packet between
the tests of `net_recv_data` and its `sn_batch_add`, the control thread, and
what was added. -/
structure State where
  radio : Radio
  batcher : Batcher := {}
  outbox : Outbox
  queue : List Heard := []
  held : Option Heard := none
  control : Control := .idle
  added : List Added := []

/-- A step of one of the threads. -/
inductive Label where
  | hear (pkt : NetPkt)
  | deliver
  | append
  | linger
  | command (op : Operation)
  | advance
  deriving Repr

/-! ## Steps -/

/-- The control thread goes on at `control`, with the radio as it left it. -/
def State.goto (s : State) (radio : Radio) (control : Control) : State := { s with radio, control }

/-- A driver call of the control thread: where it goes on, if the driver took
the call and if not. -/
def callDriver (s : State) (c : Call) (ok failed : Control) : State :=
  s.goto (s.radio.call c).1 (if (s.radio.call c).2 = 0 then ok else failed)

/-- `sn_batch_flush`, after which the control thread goes on at `next`. -/
def flushThen (s : State) (next : Control) : Option State :=
  (snBatchFlush s.batcher s.outbox).map fun (batcher, outbox) =>
    { s with batcher, outbox, control := next }

/-- A command is taken up. SET_CHANNEL flushes before it looks at the channel. -/
def accept (s : State) : Operation → Option State
  | .setChannel channel => flushThen s (if badChannel channel then .idle else .tune channel)
  | .start => some { s with control := .begin }
  | .stop => some { s with control := if s.radio.running then .halt else .flush }
  | .energyDetect channel durationSymbols =>
      if badChannel channel || durationSymbols == 0 then some s
      else
        some (s.goto { s.radio with measuring := true }
          (.edTune channel (edWindowMs durationSymbols) s.radio.currentChannel s.radio.running))

/-- One step of the command in hand. -/
def advance (s : State) : Option State :=
  match s.control with
  | .idle => none
  | .tune channel => some (callDriver s (.setChannel channel) (.store channel) .idle)
  | .store channel => some (s.goto { s.radio with currentChannel := channel } .begin)
  | .begin => some (callDriver s .start .begun .idle)
  | .begun => some (s.goto { s.radio with running := true } .idle)
  | .halt => some (callDriver s .stop .halted .flush)
  | .halted => some (s.goto { s.radio with running := false } .flush)
  | .flush => flushThen s .idle
  | .edTune channel ms previous wasRunning =>
      some (callDriver s (.setChannel channel) (.edReceive ms previous wasRunning)
        (.edBack previous wasRunning))
  | .edReceive ms previous wasRunning =>
      some (callDriver s .start (.edScan ms previous wasRunning) (.edBack previous wasRunning))
  | .edScan ms previous wasRunning =>
      some (callDriver s (.edScan ms.toUInt16) (.edBack previous wasRunning)
        (.edBack previous wasRunning))
  | .edBack previous wasRunning =>
      some (callDriver s (.setChannel previous) (.edResume wasRunning) (.edResume wasRunning))
  | .edResume wasRunning =>
      some (callDriver s (if wasRunning then .start else .stop) .edClear .edClear)
  | .edClear => some (s.goto { s.radio with measuring := false } .idle)

/-- The tests of `net_recv_data`: whether the packet goes on to the batch. -/
def admits (s : State) (f : Heard) : Bool := f.pkt.psdu != [] && s.radio.takes

/-- The packet the batch is given. -/
def tag (s : State) (f : Heard) : Added := ⟨f.heardOn, s.radio.packetOf f.pkt⟩

/-- The rest of `net_recv_data`. -/
def appendHeld (s : State) (f : Heard) : Option State :=
  (snBatchAdd s.batcher s.outbox (tag s f).packet).map fun (batcher, outbox) =>
    { s with
      radio := { s.radio with captured := s.radio.captured + 1 }
      batcher, outbox
      held := none
      added := s.added ++ [tag s f] }

/-- One step. -/
def step (s : State) : Label → Option State
  | .hear pkt =>
      if s.radio.driver.receiving then
        some { s with queue := s.queue ++
                        [⟨s.radio.driver.tuned, s.radio.driver.log.length, pkt⟩] }
      else none
  | .deliver =>
      match s.held, s.queue with
      | none, f :: queue => some { s with queue, held := if admits s f then some f else none }
      | _, _ => none
  | .append => s.held.bind (appendHeld s)
  | .linger =>
      (lingerExpired s.batcher s.outbox).map fun (batcher, outbox) => { s with batcher, outbox }
  | .command op => if s.control = .idle then accept s op else none
  | .advance => advance s

/-- The radio as a machine. -/
def machine : Machine State Label := ⟨step⟩

/-- The radio as `main` leaves it, with the answers to come. -/
def initial (answers : Nat → Int) (completions : Nat → Option Completion)
    (linkAnswers : Nat → SendResult) : State where
  radio := { driver := { answers, completions } }
  outbox := { answers := linkAnswers }

/-! ## The condition -/

/-- A frame that is dropped as empty, or was heard on `channel`. -/
def Heard.On (f : Heard) (channel : UInt8) : Prop := f.pkt.psdu = [] ∨ f.heardOn = channel

/-- The frames heard and not yet added: the queue and the one held. -/
def State.waiting (s : State) : List Heard := s.held.toList ++ s.queue

instance (f : Heard) (channel : UInt8) : Decidable (f.On channel) :=
  inferInstanceAs (Decidable (_ ∨ _))

/-- When `current_channel` is stored, nothing heard on another channel is
waiting; when `measuring` is cleared, the driver is back on `current_channel`
and nothing heard elsewhere is queued. -/
def SettledAdvance (s : State) : Control → Prop
  | .store channel => ∀ f ∈ s.waiting, f.On channel
  | .edClear =>
      s.radio.driver.tuned = s.radio.currentChannel ∧ ∀ f ∈ s.queue, f.On s.radio.currentChannel
  | _ => True

/-- Between the driver's retune to another channel and the store, no frame heard
since the retune is added. The retune is the last call the driver was given. -/
def SettledAppend (s : State) : Control → Prop
  | .store channel => channel ≠ s.radio.currentChannel →
      ∀ f ∈ s.held, f.heardAt < s.radio.driver.log.length
  | _ => True

/-- The schedule that keeps every tag right, step by step. -/
def Settled (s : State) : Label → Prop
  | .advance => SettledAdvance s s.control
  | .append => SettledAppend s s.control
  | _ => True

instance (s : State) : (c : Control) → Decidable (SettledAdvance s c)
  | .store channel => inferInstanceAs (Decidable (∀ f ∈ s.waiting, f.On channel))
  | .edClear => inferInstanceAs (Decidable (_ ∧ ∀ f ∈ s.queue, f.On s.radio.currentChannel))
  | .idle | .tune _ | .begin | .begun | .halt | .halted | .flush | .edTune .. | .edReceive ..
  | .edScan .. | .edBack .. | .edResume _ => isTrue trivial

instance (s : State) : (c : Control) → Decidable (SettledAppend s c)
  | .store _ => inferInstanceAs (Decidable (_ → ∀ f ∈ s.held, f.heardAt < _))
  | .idle | .tune _ | .begin | .begun | .halt | .halted | .flush | .edTune .. | .edReceive ..
  | .edScan .. | .edBack .. | .edResume _ | .edClear => isTrue trivial

instance (s : State) : (l : Label) → Decidable (Settled s l)
  | .advance => inferInstanceAs (Decidable (SettledAdvance s s.control))
  | .append => inferInstanceAs (Decidable (SettledAppend s s.control))
  | .hear _ | .deliver | .linger | .command _ => isTrue trivial

end Nrf54Sniffer.Radio154
