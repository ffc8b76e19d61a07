/-
Nrf54Sniffer.Batch.Batcher — `batch.c`: packets of the 802.15.4 radio gathered
into `PACKET_BATCH` frames.

The statics of the file are the fields of `Batcher`. The buffer is a
`ByteBuffer` of `MAX_BATCH_BYTES`, so each function answers `none` exactly when
one of its accesses would fall outside the buffer it indexes. `size_t` and the
packet counters are natural numbers; stamps are the code's own 64-bit ones.

The linger timer is one flag, set by `k_work_reschedule` and cleared by
`k_work_cancel_delayable`. `lingerExpired` may run whenever it likes: what
holds with expiries at any time holds with the ones the timer produces.
-/
import Nrf54Sniffer.Lib.DeltaLog
import Nrf54Sniffer.Wire.Fields
import Nrf54Sniffer.Wire.Frame

namespace Nrf54Sniffer.Batch

open Nrf54Sniffer.Lib
open Nrf54Sniffer.Wire

/-! ## Limits from the wire format -/

def maxEntries : Nat := 32
def maxPsdu : Nat := 127
def maxDtUs : UInt64 := 0xFFFF

/-- u64 base timestamp, u8 channel, u8 count. -/
def headerLen : Nat := 10

/-- u16 dt, u8 lqi, i8 rssi, u8 len. -/
def entryLen : Nat := 5

def maxBatchBytes : Nat := 2048

/-! ## State -/

/-- The statics of `batch.c`. -/
structure Batcher where
  buf : ByteBuffer maxBatchBytes := .zero _
  used : Nat := headerLen
  count : Nat := 0
  baseUs : UInt64 := 0
  lastUs : UInt64 := 0
  batchChannel : UInt8 := 0
  droppedPackets : Nat := 0
  lingerArmed : Bool := false

/-- The arguments of one `sn_batch_add` call; `len` is the length of `psdu`. -/
structure Packet where
  channel : UInt8
  timestampUs : UInt64
  lqi : UInt8
  rssiDbm : Int8
  psdu : List UInt8
  deriving DecidableEq, Repr

/-- `struct sn_154_meta`: channel, lqi, rssi, flags, timestamp, packed. -/
def sn154Meta (channel lqi : UInt8) (rssiDbm : Int8) (flags : UInt8)
    (timestampUs : UInt64) : List UInt8 :=
  [channel, lqi, rssiDbm.toUInt8, flags] ++ putLe64 timestampUs

/-- `sizeof(struct sn_154_meta)`. -/
def sn154MetaLen : Nat := 12

/-! ## Functions -/

/-- The single-entry branch of `flush_locked`: the entry is read back out of
the buffer and sent as a `PACKET`. -/
def flushOne (b : Batcher) (o : Outbox) : Option (Batcher × Outbox) := do
  let entry ← b.buf.read headerLen entryLen
  let len := (entry.getD 4 0).toNat
  let psdu ← b.buf.read (headerLen + entryLen) len
  -- The scratch `one` holds the metadata and MAX_PSDU bytes.
  let one := ByteBuffer.zero (sn154MetaLen + maxPsdu)
  let one ← one.write 0
    (sn154Meta b.batchChannel (entry.getD 2 0) (entry.getD 3 0).toInt8 0 b.baseUs)
  let one ← one.write sn154MetaLen psdu
  let payload ← one.read 0 (sn154MetaLen + len)
  let (o, r) := o.send ⟨.packet, payload⟩
  some ({ b with
          droppedPackets := if r.ok then b.droppedPackets else b.droppedPackets + 1
          count := 0
          used := headerLen }, o)

/-- The other branch: the header is written in front and the batch is sent. -/
def flushMany (b : Batcher) (o : Outbox) : Option (Batcher × Outbox) := do
  let buf ← b.buf.write 0 (putLe64 b.baseUs ++ [b.batchChannel, UInt8.ofNat b.count])
  let payload ← buf.read 0 b.used
  let (o, r) := o.send ⟨.packetBatch, payload⟩
  some ({ b with
          buf
          droppedPackets := if r.ok then b.droppedPackets else b.droppedPackets + b.count
          count := 0
          used := headerLen }, o)

/-- `flush_locked`. -/
def flushLocked (b : Batcher) (o : Outbox) : Option (Batcher × Outbox) :=
  if b.count = 0 then some (b, o)
  else if b.count = 1 then flushOne b o
  else flushMany b o

/-- `linger_expired`. -/
def lingerExpired (b : Batcher) (o : Outbox) : Option (Batcher × Outbox) :=
  flushLocked b o

/-- `sn_batch_flush`. -/
def snBatchFlush (b : Batcher) (o : Outbox) : Option (Batcher × Outbox) :=
  flushLocked { b with lingerArmed := false } o

/-- `sn_batch_reset_counters`. -/
def snBatchResetCounters (b : Batcher) : Batcher := { b with droppedPackets := 0 }

/-- `sn_batch_dropped`. -/
def snBatchDropped (b : Batcher) : Nat := b.droppedPackets

/-- The four tests that close a batch early: a new channel, a clock that went
backwards, a delta too wide, a batch that would outgrow `MAX_BATCH_BYTES`. -/
def mustClose (b : Batcher) (p : Packet) (len : Nat) : Bool :=
  b.count > 0 &&
    (p.channel != b.batchChannel ||
     p.timestampUs < b.lastUs ||
     p.timestampUs - b.lastUs > maxDtUs ||
     b.used + entryLen + len > maxBatchBytes)

def closeEarly (b : Batcher) (o : Outbox) (p : Packet) (len : Nat) :
    Option (Batcher × Outbox) :=
  if mustClose b p len then flushLocked b o else some (b, o)

/-- The base, channel and last stamp of a batch are set by its first packet. -/
def openFor (b : Batcher) (p : Packet) : Batcher :=
  if b.count = 0 then
    { b with baseUs := p.timestampUs, batchChannel := p.channel, lastUs := p.timestampUs }
  else b

/-- The packet's entry, written at `used`. -/
def putEntry (b : Batcher) (p : Packet) (len : Nat) : Option Batcher := do
  let dt : UInt16 := (p.timestampUs - b.lastUs).toUInt16
  let buf ← b.buf.write b.used
    (putLe16 dt ++ [p.lqi, p.rssiDbm.toUInt8, UInt8.ofNat len] ++ p.psdu.take len)
  some { b with
         buf
         used := b.used + (entryLen + len)
         lastUs := p.timestampUs
         count := b.count + 1 }

/-- `sn_batch_add`. -/
def snBatchAdd (b : Batcher) (o : Outbox) (p : Packet) : Option (Batcher × Outbox) := do
  let len := if p.psdu.length > maxPsdu then maxPsdu else p.psdu.length
  let (b, o) ← closeEarly b o p len
  let b ← putEntry (openFor b p) p len
  if b.count = maxEntries then do
    let (b, o) ← flushLocked b o
    some ({ b with lingerArmed := false }, o)
  else
    some ({ b with lingerArmed := true }, o)

/-! ## Histories -/

/-- What can happen to the batcher. -/
inductive Event where
  | add (p : Packet)
  | flush
  | linger
  deriving DecidableEq, Repr

/-- One event. -/
def step (b : Batcher) (o : Outbox) : Event → Option (Batcher × Outbox)
  | .add p => snBatchAdd b o p
  | .flush => snBatchFlush b o
  | .linger => lingerExpired b o

/-- A history of events, in order. -/
def run (b : Batcher) (o : Outbox) : List Event → Option (Batcher × Outbox)
  | [] => some (b, o)
  | e :: es => (step b o e).bind fun (b, o) => run b o es

end Nrf54Sniffer.Batch
