/-
Nrf54Sniffer.Wire.Frame — the frames of the link and how their senders see it.

The frame types are the ones `link.c`, `batch.c`, `radio_ble.c`, `control.c`
and `main.c` name; `other` stands for every further value of the type byte.
Their numbers are fixed by `shared/frame.h`, a submodule, so the types are
kept symbolic: the firmware only ever compares them.

`Outbox` is `sn_link_send` as its callers see it: every frame handed over is
logged with the answer it got, and the answers come from outside, one for each
call, because whether the ring has room depends on how far the host has
drained it. `Link/Transmit.lean` models the function itself, and
`snLinkSend_account` there shows that its counters move the way
`LinkCounters.account` says.
-/

namespace Nrf54Sniffer.Wire

/-- `sn_frame_type_t`, by the names the firmware uses. -/
inductive FrameType where
  | heartbeat
  | packet
  | packetBatch
  | bleBatch
  | log
  | stats
  | link
  | controlReply
  | controlCmd
  | bleFilter
  | bleKeys
  | other (code : UInt8)
  deriving DecidableEq, Repr

/-- The frames that carry what a radio heard. -/
def FrameType.carriesPackets : FrameType → Bool
  | .packet | .packetBatch | .bleBatch => true
  | _ => false

/-- One frame: its type and its payload. -/
structure Frame where
  type : FrameType
  payload : List UInt8
  deriving DecidableEq, Repr

/-- `SN_HEADER_LEN`: "10 bytes of frame header" (`batch.c`). -/
def snHeaderLen : Nat := 10

/-- `SN_MAX_PAYLOAD`: "the 4096 a frame can carry" (`batch.c`). -/
def snMaxPayload : Nat := 4096

/-- What `sn_link_send` returned: 0, with the ring's occupancy it measured
right after, `-ENOMEM`, or `-EINVAL`. -/
inductive SendResult where
  | sent (queued : Nat)
  | noMem
  | inval
  deriving DecidableEq, Repr

/-- `sn_link_send(...) == 0`. -/
def SendResult.ok : SendResult → Bool
  | .sent _ => true
  | _ => false

/-- The four counters of `link.c`. -/
structure LinkCounters where
  framesSent : UInt32 := 0
  bytesSent : UInt32 := 0
  framesDropped : UInt32 := 0
  queuedHighWater : Nat := 0
  deriving DecidableEq, Repr

/-- What a call that encoded to `n` bytes does to the counters. -/
def LinkCounters.account (c : LinkCounters) (n : Nat) : SendResult → LinkCounters
  | .sent queued =>
      { c with
        framesSent := c.framesSent + 1
        bytesSent := c.bytesSent + UInt32.ofNat n
        queuedHighWater := if queued > c.queuedHighWater then queued else c.queuedHighWater }
  | .noMem => { c with framesDropped := c.framesDropped + 1 }
  | .inval => c

/-- The link as the rest of the firmware sees it: what it answers to each
call, what was handed to it, and its counters. -/
structure Outbox where
  answers : Nat → SendResult
  log : List (Frame × SendResult) := []
  counters : LinkCounters := {}

namespace Outbox

/-- `sn_link_send`: logs the frame with this call's answer. -/
def send (o : Outbox) (f : Frame) : Outbox × SendResult :=
  let r := o.answers o.log.length
  ({ o with
     log := o.log ++ [(f, r)]
     counters := o.counters.account (snHeaderLen + f.payload.length) r }, r)

/-- The frames handed over so far, accepted or not, in order. -/
def frames (o : Outbox) : List Frame := o.log.map Prod.fst

@[simp] theorem send_answers (o : Outbox) (f : Frame) : (o.send f).1.answers = o.answers := rfl

@[simp] theorem send_log (o : Outbox) (f : Frame) :
    (o.send f).1.log = o.log ++ [(f, o.answers o.log.length)] := rfl

@[simp] theorem send_result (o : Outbox) (f : Frame) :
    (o.send f).2 = o.answers o.log.length := rfl

@[simp] theorem send_frames (o : Outbox) (f : Frame) : (o.send f).1.frames = o.frames ++ [f] := by
  simp [frames]

/-- Only frames that meet `P` were handed over in between. -/
def Adds (P : Frame → Prop) (o o' : Outbox) : Prop :=
  ∃ new, o'.frames = o.frames ++ new ∧ ∀ f ∈ new, P f

theorem Adds.refl {P : Frame → Prop} (o : Outbox) : o.Adds P o :=
  ⟨[], (List.append_nil _).symm, by simp⟩

theorem Adds.trans {P : Frame → Prop} {o o' o'' : Outbox} (h : o.Adds P o')
    (h' : o'.Adds P o'') : o.Adds P o'' := by
  obtain ⟨new, hframes, hnew⟩ := h
  obtain ⟨new', hframes', hnew'⟩ := h'
  refine ⟨new ++ new', by rw [hframes', hframes, List.append_assoc], fun f hf => ?_⟩
  rcases List.mem_append.mp hf with hf | hf
  · exact hnew f hf
  · exact hnew' f hf

theorem Adds.mono {P Q : Frame → Prop} {o o' : Outbox} (h : o.Adds P o')
    (himp : ∀ f, P f → Q f) : o.Adds Q o' := by
  obtain ⟨new, hframes, hnew⟩ := h
  exact ⟨new, hframes, fun f hf => himp f (hnew f hf)⟩

theorem adds_send {P : Frame → Prop} (o : Outbox) {f : Frame} (hf : P f) :
    o.Adds P (o.send f).1 := by
  refine ⟨[f], send_frames o f, fun g hg => ?_⟩
  rw [List.mem_singleton.mp hg]
  exact hf

end Outbox

end Nrf54Sniffer.Wire
