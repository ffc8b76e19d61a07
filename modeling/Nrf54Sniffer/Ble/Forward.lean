/-
Nrf54Sniffer.Ble.Forward — HCI packets gathered into `BLE_BATCH` frames.

`forward` is in two parts, as it runs: `beforeLock` sizes the packet, reads the
clock and looks the event over, and `appendLocked` is the part under the batch
lock. The control thread and the work items may run between any two calls.

As in `Batch/Batcher.lean`, a function answers `none` exactly when one of its
accesses would fall outside what it indexes: the batch buffer, the staging
buffer `out`, or the packet itself.
-/
import Nrf54Sniffer.Ble.Notes
import Nrf54Sniffer.Wire.Frame

namespace Nrf54Sniffer.Ble

open Nrf54Sniffer.Lib
open Nrf54Sniffer.Wire

/-! ## Sending -/

/-- What one call of `sn_link_send` for `n` packets does to the counters. -/
def countSent (st : BleStats) (n : Nat) (r : SendResult) : BleStats :=
  if r.ok then { st with forwarded := st.forwarded + n }
  else { st with dropped := st.dropped + n }

/-- `send_alone`: `out` holds the metadata and `SN_BLE_MAX_PACKET` bytes. -/
def sendAlone (s : BleRadio) (o : Outbox) (timestampUs : UInt64) (origLen : UInt16)
    (flags : UInt8) (hci : List UInt8) : Option (BleRadio × Outbox) := do
  let out := ByteBuffer.zero (snBleMetaLen + snBleMaxPacket)
  let out ← out.write 0 (snBleMeta timestampUs origLen flags)
  let out ← out.write snBleMetaLen hci
  let payload ← out.read 0 (snBleMetaLen + hci.length)
  let (o, r) := o.send ⟨.packet, payload⟩
  some ({ s with stats := countSent s.stats 1 r }, o)

/-- `bcount = 0; bused = BLE_BATCH_HDR_LEN`. -/
def BleBatch.emptied (b : BleBatch) : BleBatch := { b with count := 0, used := bleBatchHdrLen }

/-- The single-entry branch of `ble_flush_locked`. -/
def bleFlushOne (s : BleRadio) (o : Outbox) : Option (BleRadio × Outbox) := do
  let entry ← s.batch.buf.read bleBatchHdrLen bleEntryLen
  let origLen := getLe16 (entry.getD 2 0) (entry.getD 3 0)
  let len := getLe16 (entry.getD 5 0) (entry.getD 6 0)
  let hci ← s.batch.buf.read (bleBatchHdrLen + bleEntryLen) len.toNat
  let (s, o) ← sendAlone s o s.batch.baseUs origLen (entry.getD 4 0) hci
  some ({ s with batch := s.batch.emptied }, o)

/-- The other branch. -/
def bleFlushMany (s : BleRadio) (o : Outbox) : Option (BleRadio × Outbox) := do
  let buf ← s.batch.buf.write 0 (putLe64 s.batch.baseUs ++ [UInt8.ofNat s.batch.count])
  let payload ← buf.read 0 s.batch.used
  let (o, r) := o.send ⟨.bleBatch, payload⟩
  some ({ s with
          stats := countSent s.stats s.batch.count r
          batch := { s.batch with buf }.emptied }, o)

/-- `ble_flush_locked`. -/
def bleFlushLocked (s : BleRadio) (o : Outbox) : Option (BleRadio × Outbox) :=
  if s.batch.count = 0 then some (s, o)
  else if s.batch.count = 1 then bleFlushOne s o
  else bleFlushMany s o

/-- `ble_linger_expired`. -/
def bleLingerExpired (s : BleRadio) (o : Outbox) : Option (BleRadio × Outbox) := bleFlushLocked s o

/-- `k_work_reschedule` and `k_work_cancel_delayable` on `ble_linger`. -/
def setLinger (s : BleRadio) (armed : Bool) : BleRadio :=
  { s with batch := { s.batch with lingerArmed := armed } }

/-- The timer cancel and the flush of `sn_radio_ble_stop`. -/
def stopFlush (s : BleRadio) (o : Outbox) : Option (BleRadio × Outbox) :=
  bleFlushLocked (setLinger s false) o

/-! ## Forwarding -/

/-- What `forward` works out before it takes the lock. -/
structure Sized where
  h4Type : UInt8
  data : List UInt8
  full : UInt16
  take : UInt16
  flags : UInt8
  ts : UInt64
  deriving DecidableEq, Repr

/-- `full`, `take` and `flags`. -/
def sizePacket (h4Type : UInt8) (data : List UInt8) (ts : UInt64) : Sized :=
  let full := UInt16.ofNat (data.length + 1)
  { h4Type, data, full, ts
    take := if full.toNat > snBleMaxPacket then UInt16.ofNat snBleMaxPacket else full
    flags := if full.toNat > snBleMaxPacket then flagTruncated else 0 }

/-- The clock readings of one call: `now_us()`, and `k_uptime_get()` in
`note_counts` and in `note_biginfo`. -/
structure Readings where
  nowUs : UInt64
  uptimeCounts : Int
  uptimeBigInfo : Int
  deriving DecidableEq, Repr

/-- The freshly copied part of `peek`: the H4 byte and the event, cut to the
32 bytes of the buffer. -/
def peekCopy (data : List UInt8) : List UInt8 :=
  h4Event :: data.take (min 32 (data.length + 1) - 1)

/-- `if (h4_type == H4_EVENT) note_counts(...)`. -/
def countEvent (s : BleRadio) (h4Type : UInt8) (data : List UInt8) (now : Readings) :
    Option BleRadio :=
  if h4Type = h4Event then noteCounts s data now.uptimeCounts else some s

/-- The look for trains and broadcasts, when it is on. -/
def peekEvent (s : BleRadio) (h4Type : UInt8) (data : List UInt8) (now : Readings) :
    Option BleRadio :=
  if s.periodicEnabled ∧ h4Type = h4Event then
    (notePeriodic s (peekCopy data)).bind fun s =>
      noteBigInfo s (peekCopy data) now.uptimeBigInfo
  else some s

/-- `oversized++` for a packet that is cut. -/
def countOversized (s : BleRadio) (p : Sized) : BleRadio :=
  if p.full.toNat > snBleMaxPacket then
    { s with stats := { s.stats with oversized := s.stats.oversized + 1 } }
  else s

/-- The part of `forward` before the lock. -/
def beforeLock (s : BleRadio) (h4Type : UInt8) (data : List UInt8) (now : Readings) :
    Option (BleRadio × Sized) := do
  let p := sizePacket h4Type data now.nowUs
  let s ← countEvent (countOversized s p) h4Type data now
  let s ← peekEvent s h4Type data now
  some (s, p)

/-- The three conditions the host would refuse the frame for. -/
def mustClose (b : BleBatch) (p : Sized) : Bool :=
  b.count > 0 &&
    (p.ts < b.lastUs || p.ts - b.lastUs > 0xFFFF ||
     b.used + bleEntryLen + p.take.toNat > bleBatchBuf)

/-- The early close. -/
def closeEarly (s : BleRadio) (o : Outbox) (p : Sized) : Option (BleRadio × Outbox) :=
  if mustClose s.batch p then bleFlushLocked s o else some (s, o)

/-- The base and last stamp of a batch are set by its first packet. -/
def BleBatch.openFor (b : BleBatch) (p : Sized) : BleBatch :=
  if b.count = 0 then { b with baseUs := p.ts, lastUs := p.ts } else b

/-- The packet's entry, written at `bused`. `take - 1u` is unsigned, so the
copy of a packet of no bytes would run far past it. -/
def putEntry (b : BleBatch) (p : Sized) : Option BleBatch := do
  let (body, _) ← takeExact (p.take.toUInt32 - 1).toNat p.data
  let dt : UInt16 := (p.ts - b.lastUs).toUInt16
  let buf ← b.buf.write b.used
    (putLe16 dt ++ putLe16 p.full ++ [p.flags] ++ putLe16 p.take ++ p.h4Type :: body)
  some { b with
         buf
         used := b.used + (bleEntryLen + p.take.toNat)
         lastUs := p.ts
         count := b.count + 1 }

/-- The part of `forward` under the lock. -/
def appendLocked (s : BleRadio) (o : Outbox) (p : Sized) : Option (BleRadio × Outbox) := do
  let (s, o) ← closeEarly s o p
  let batch ← putEntry (s.batch.openFor p) p
  let s := { s with batch, stats := { s.stats with captured := s.stats.captured + 1 } }
  if batch.count = bleMaxEntries then do
    let (s, o) ← bleFlushLocked s o
    some (setLinger s false, o)
  else some (setLinger s true, o)

/-- `forward`. -/
def forward (s : BleRadio) (o : Outbox) (h4Type : UInt8) (data : List UInt8) (now : Readings) :
    Option (BleRadio × Outbox) := do
  let (s, p) ← beforeLock s h4Type data now
  appendLocked s o p

/-! ## Histories -/

/-- What can happen to the batch. `elsewhere` is any work of the other threads:
it leaves the batch alone and sets everything else as it likes. -/
inductive Event where
  | forward (h4Type : UInt8) (data : List UInt8) (now : Readings)
  | linger
  | stopFlush
  | elsewhere (rest : BleRadio)

/-- One event. -/
def step (s : BleRadio) (o : Outbox) : Event → Option (BleRadio × Outbox)
  | .forward h4Type data now => forward s o h4Type data now
  | .linger => bleLingerExpired s o
  | .stopFlush => stopFlush s o
  | .elsewhere rest => some ({ rest with batch := s.batch }, o)

/-- A history of events, in order. -/
def run (s : BleRadio) (o : Outbox) : List Event → Option (BleRadio × Outbox)
  | [] => some (s, o)
  | e :: es => (step s o e).bind fun (s, o) => run s o es

end Nrf54Sniffer.Ble
