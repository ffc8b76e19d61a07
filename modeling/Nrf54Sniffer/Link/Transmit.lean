/-
Nrf54Sniffer.Link.Transmit — `sn_link_send` and the transmit thread of
`link.c`.

`sn_frame_encode` is in a submodule: it is the parameter `encode`, the empty
list standing for its 0. `sn_link_send` is given twice, as one function and as
the three steps it takes with the ring in the hands of the transmit thread: the
space test, the put, and the reading of the high-water mark. `snLinkSend` is
the composition.

The machine interleaves those steps with the transmit thread's, down to the
single bytes the DMA puts on the wire, and with `sn_link_reset_counters`. A
claim takes any span of up to 64 bytes, because the ring hands out contiguous
bytes and may wrap anywhere; `uart_tx` may fail any number of times.
-/
import Nrf54Sniffer.Lib.ClaimRing
import Nrf54Sniffer.Lib.Machine
import Nrf54Sniffer.Wire.Frame

namespace Nrf54Sniffer.Link

open Nrf54Sniffer.Lib
open Nrf54Sniffer.Wire

/-! ## State -/

def txRingSize : Nat := 8192

/-- `TX_CONTROL_RESERVE`. -/
def txControlReserve : Nat := 512

/-- `TX_DMA_CHUNK`. -/
def txDmaChunk : Nat := 64

/-- `carries_control`. -/
def carriesControl : FrameType → Bool
  | .controlReply | .stats | .link | .heartbeat => true
  | _ => false

/-- The room a frame has to leave free. -/
def reserve (t : FrameType) : Nat := if carriesControl t then 0 else txControlReserve

/-- The transmit side's statics. -/
structure Tx where
  seq : UInt16 := 0
  counters : LinkCounters := {}
  txRing : ClaimRing UInt8 txRingSize := .empty

/-- `sn_frame_encode`: type, sequence number and payload to bytes, none of them
when it returns 0. -/
abbrev Encode := FrameType → UInt16 → List UInt8 → List UInt8

/-! ## `sn_link_send` -/

/-- The frame as it would be encoded now. -/
def Tx.encoded (l : Tx) (encode : Encode) (f : Frame) : List UInt8 :=
  encode f.type l.seq f.payload

/-- The outcome of the size test and the space test. -/
inductive SendTest where
  | inval
  | noMem
  | accept
  deriving DecidableEq, Repr

/-- The size test, then the space test. -/
def sendTest (encode : Encode) (l : Tx) (f : Frame) : SendTest :=
  let n := (l.encoded encode f).length
  if n = 0 then .inval
  else if l.txRing.space < n + reserve f.type then .noMem
  else .accept

/-- `frames_dropped++`. -/
def countDropped (l : Tx) : Tx :=
  { l with counters := { l.counters with framesDropped := l.counters.framesDropped + 1 } }

/-- The sequence number, the put and the two counters. -/
def putFrame (l : Tx) (bytes : List UInt8) : Tx where
  seq := l.seq + 1
  txRing := l.txRing.put bytes
  counters :=
    { l.counters with
      framesSent := l.counters.framesSent + 1
      bytesSent := l.counters.bytesSent + UInt32.ofNat bytes.length }

/-- The high-water mark. -/
def noteHighWater (l : Tx) : Tx :=
  let queued := l.txRing.size
  { l with counters :=
      { l.counters with
        queuedHighWater :=
          if queued > l.counters.queuedHighWater then queued else l.counters.queuedHighWater } }

/-- `sn_link_send`. -/
def snLinkSend (encode : Encode) (l : Tx) (f : Frame) : Tx × SendResult :=
  match sendTest encode l f with
  | .inval => (l, .inval)
  | .noMem => (countDropped l, .noMem)
  | .accept =>
      let l' := putFrame l (l.encoded encode f)
      (noteHighWater l', .sent l'.txRing.size)

/-- `sn_link_reset_counters`. -/
def snLinkResetCounters (l : Tx) : Tx := { l with counters := {} }

/-- `sn_link_capacity`. -/
def snLinkCapacity : Nat := txRingSize - txControlReserve

/-- A call moves the counters the way every caller's `Outbox` says. -/
theorem snLinkSend_account (encode : Encode) (l : Tx) (f : Frame) :
    (snLinkSend encode l f).1.counters
      = l.counters.account (l.encoded encode f).length (snLinkSend encode l f).2 := by
  unfold snLinkSend
  cases sendTest encode l f <;> rfl

/-! ## The machine -/

/-- Where the holder of `encode_lock` is. -/
inductive Sender where
  | none
  | accepted (f : Frame) (bytes : List UInt8)
  | measuring
  deriving DecidableEq, Repr

/-- Where the transmit thread is. `sending k`: the DMA has put `k` bytes of the
span on the wire. -/
inductive TxPhase where
  | idle
  | claimed
  | ready
  | sending (k : Nat)
  | signalled
  deriving DecidableEq, Repr

/-- The link, its two threads, the semaphore `tx_done`, the bytes on the wire
and the frames accepted. -/
structure State where
  link : Tx := {}
  sender : Sender := .none
  phase : TxPhase := .idle
  txDone : Bool := true
  wire : List UInt8 := []
  accepted : List Frame := []

/-- A step of one of the threads, of the DMA, or of the control thread. -/
inductive Label where
  | send (f : Frame)
  | put
  | measure
  | claim (n : Nat)
  | takeDone
  | uartFail
  | uartOk
  | dmaByte
  | dmaDone
  | finish
  | resetCounters
  deriving DecidableEq, Repr

/-- One step. -/
def step (encode : Encode) (s : State) : Label → Option State
  | .send f =>
      if s.sender = .none then
        match sendTest encode s.link f with
        | .inval => some s
        | .noMem => some { s with link := countDropped s.link }
        | .accept => some { s with sender := .accepted f (s.link.encoded encode f) }
      else none
  | .put =>
      match s.sender with
      | .accepted f bytes =>
          some { s with link := putFrame s.link bytes, sender := .measuring
                        accepted := s.accepted ++ [f] }
      | _ => none
  | .measure =>
      if s.sender = .measuring then some { s with link := noteHighWater s.link, sender := .none }
      else none
  | .claim n =>
      if s.phase = .idle ∧ 0 < n ∧ n ≤ txDmaChunk ∧ n ≤ s.link.txRing.size then
        some { s with link := { s.link with txRing := s.link.txRing.claim n }, phase := .claimed }
      else none
  | .takeDone =>
      if s.phase = .claimed ∧ s.txDone then some { s with txDone := false, phase := .ready }
      else none
  | .uartFail =>
      if s.phase = .ready then
        some { s with txDone := true, phase := .idle
                      link := { s.link with txRing := s.link.txRing.finish 0 } }
      else none
  | .uartOk => if s.phase = .ready then some { s with phase := .sending 0 } else none
  | .dmaByte =>
      match s.phase with
      | .sending k => (s.link.txRing.claimed[k]?).map fun byte =>
          { s with wire := s.wire ++ [byte], phase := .sending (k + 1) }
      | _ => none
  | .dmaDone =>
      if s.phase = .sending s.link.txRing.claimed.length then
        some { s with txDone := true, phase := .signalled }
      else none
  | .finish =>
      if s.phase = .signalled ∧ s.txDone then
        some { s with phase := .idle
                      link := { s.link with
                                txRing := s.link.txRing.finish s.link.txRing.claimed.length } }
      else none
  | .resetCounters => some { s with link := snLinkResetCounters s.link }

/-- The link as a machine. -/
def machine (encode : Encode) : Machine State Label := ⟨step encode⟩

/-- The bytes in the ring that are not on the wire yet. -/
def State.unsent (s : State) : List UInt8 :=
  match s.phase with
  | .sending k => s.link.txRing.content.drop k
  | .signalled => s.link.txRing.queued
  | _ => s.link.txRing.content

/-- The encodings of frames numbered from `k`, one after another. -/
def encodings (encode : Encode) : Nat → List Frame → List UInt8
  | _, [] => []
  | k, f :: fs => encode f.type (UInt16.ofNat k) f.payload ++ encodings encode (k + 1) fs

/-! ## The calls -/

/-- The call that a step decides, and whether it returns 0: one that is refused is
done with the space test, one that is accepted returns 0 once its frame is put. -/
def completes (encode : Encode) (s : State) : Label → List (Frame × Bool)
  | .send f => if sendTest encode s.link f = .accept then [] else [(f, false)]
  | .put =>
      match s.sender with
      | .accepted f _ => [(f, true)]
      | _ => []
  | _ => []

/-- The link, with the calls so far beside it. -/
def served (encode : Encode) : Machine (State × List (Frame × Bool)) Label :=
  (machine encode).withGhost fun s l calls => calls ++ completes encode s l

end Nrf54Sniffer.Link
