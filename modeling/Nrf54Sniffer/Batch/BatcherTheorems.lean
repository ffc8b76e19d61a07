/-
Nrf54Sniffer.Batch.BatcherTheorems — 802.15.4 batching loses, reorders and
invents nothing.

The host's reader is written first, from the layouts `batch.h`, `batch.c` and
`radio154.h` state: `decodeFrame` reads a `PACKET` or a `PACKET_BATCH` whole or
refuses it. Then `Rep` ties the batcher's `used`, `count`, `base_us`,
`last_us` and `batch_channel` to the bytes in `buf`, through the delta-log
invariant `EntryFormat.Holds`.

The proof has one lemma for each thing the code does to an open batch:
`putEntry_rep` (a packet joins), `flushLocked_cons` (the batch closes, as a
`PACKET` when it holds one packet and as a `PACKET_BATCH` otherwise) and
`mustClose_false_iff` (what the four early-close tests ask for). `step_advances`
puts them together for one event and `run_advances` carries it along any
history.
-/
import Nrf54Sniffer.Batch.Batcher
import Nrf54Sniffer.Lib.PackedStream

namespace Nrf54Sniffer.Batch

open Nrf54Sniffer.Lib
open Nrf54Sniffer.Wire

/-! ## The host's reader -/

/-- One packet as the host records it. -/
structure Recorded where
  channel : UInt8
  timestampUs : Nat
  lqi : UInt8
  rssiDbm : Int8
  psdu : List UInt8
  deriving DecidableEq, Repr

/-- What one entry carries besides its delta. -/
structure EntryBody where
  lqi : UInt8
  rssiDbm : Int8
  psdu : List UInt8
  deriving DecidableEq, Repr

/-- An entry's bytes after the delta: u8 lqi, i8 rssi, u8 len, then the PSDU. -/
def parseEntryBody : List UInt8 → Option (EntryBody × List UInt8)
  | lqi :: rssi :: len :: xs =>
      (takeExact len.toNat xs).map fun (psdu, rest) => (⟨lqi, rssi.toInt8, psdu⟩, rest)
  | _ => none

/-- A packet of the open batch: a `Packet` cut to `MAX_PSDU` bytes. -/
structure Kept where
  channel : UInt8
  timestampUs : UInt64
  lqi : UInt8
  rssiDbm : Int8
  psdu : List UInt8
  psdu_le : psdu.length ≤ maxPsdu

/-- What the batcher keeps of a packet: at most `MAX_PSDU` bytes of its PSDU. -/
def Packet.kept (p : Packet) : Kept where
  channel := p.channel
  timestampUs := p.timestampUs
  lqi := p.lqi
  rssiDbm := p.rssiDbm
  psdu := p.psdu.take maxPsdu
  psdu_le := by rw [List.length_take]; omega

def Kept.recorded (k : Kept) : Recorded :=
  ⟨k.channel, k.timestampUs.toNat, k.lqi, k.rssiDbm, k.psdu⟩

/-- What the host should record for a packet: its own channel, stamp, lqi and
rssi, and the first `min(len, 127)` bytes of its PSDU. -/
def Packet.recorded (p : Packet) : Recorded :=
  ⟨p.channel, p.timestampUs.toNat, p.lqi, p.rssiDbm, p.psdu.take 127⟩

/-- The entries of a `PACKET_BATCH`. -/
def entryFormat : EntryFormat Kept EntryBody where
  stamp k := k.timestampUs.toNat
  body k := [k.lqi, k.rssiDbm.toUInt8, UInt8.ofNat k.psdu.length] ++ k.psdu
  view k := ⟨k.lqi, k.rssiDbm, k.psdu⟩
  parse := parseEntryBody
  parse_body k rest := by
    have hlen : (UInt8.ofNat k.psdu.length).toNat = k.psdu.length := by
      have := k.psdu_le
      rw [UInt8.toNat_ofNat', Nat.mod_eq_of_lt]
      simp only [maxPsdu] at this
      omega
    simp only [List.cons_append, List.nil_append, parseEntryBody, hlen, takeExact_append _ _ rfl,
      Option.map_some, UInt8.toInt8]

/-- An entry on its batch's channel. -/
def recordedOn (channel : UInt8) (item : Nat × EntryBody) : Recorded :=
  ⟨channel, item.1, item.2.lqi, item.2.rssiDbm, item.2.psdu⟩

/-- `sn_154_meta`, then the PSDU to the end of the frame. -/
def decodePacket : List UInt8 → Option (List Recorded)
  | channel :: lqi :: rssi :: _flags :: xs => do
      let (timestampUs, psdu) ← readLE 8 xs
      some [⟨channel, timestampUs, lqi, rssi.toInt8, psdu⟩]
  | _ => none

/-- u64 base, channel, count, then `count` entries that must fill the frame. -/
def decodeBatch (payload : List UInt8) : Option (List Recorded) := do
  let (base, xs) ← readLE 8 payload
  match xs with
  | channel :: count :: xs => do
      let (items, rest) ← entryFormat.decodeFrom count.toNat base xs
      if rest = [] then some (items.map (recordedOn channel)) else none
  | _ => none

/-- One frame of the capture, read whole or refused. -/
def decodeFrame (f : Frame) : Option (List Recorded) :=
  match f.type with
  | .packet => decodePacket f.payload
  | .packetBatch => decodeBatch f.payload
  | _ => none

/-- The three-entry batch of `conformance_burst` (`main.c`). -/
example : decodeFrame ⟨.packetBatch,
    [0x40, 0x42, 0x0f, 0x00, 0x00, 0x00, 0x00, 0x00, 0x19, 0x03,
     0x00, 0x00, 0xc8, 0xc4, 0x05, 0x68, 0x65, 0x6c, 0x6c, 0x6f,
     0xc2, 0x01, 0xc7, 0xc3, 0x05, 0x0a, 0x0d, 0x0a, 0x00, 0xff,
     0xf6, 0x09, 0x00, 0x9e, 0x05, 0x02, 0x00, 0x1e, 0x00, 0xf2]⟩
    = some [⟨25, 1000000, 200, -60, [0x68, 0x65, 0x6c, 0x6c, 0x6f]⟩,
            ⟨25, 1000450, 199, -61, [0x0a, 0x0d, 0x0a, 0x00, 0xff]⟩,
            ⟨25, 1003000, 0, -98, [0x02, 0x00, 0x1e, 0x00, 0xf2]⟩] := by decide

/-- The packets of the open batch, read back from the buffer. -/
def openEntries (b : Batcher) : Option (List Recorded) := do
  let (items, rest) ← entryFormat.decodeFrom b.count b.baseUs.toNat
    ((b.buf.bytes.take b.used).drop headerLen)
  if rest = [] then some (items.map (recordedOn b.batchChannel)) else none

/-! ## The representation invariant -/

/-- The batcher's open batch is `ks`. -/
structure Rep (b : Batcher) (ks : List Kept) : Prop where
  holds : entryFormat.Holds headerLen b.buf b.used b.count b.baseUs.toNat b.lastUs.toNat ks
  channel : ∀ k ∈ ks, k.channel = b.batchChannel
  first : ∀ k, ks.head? = some k → k.timestampUs = b.baseUs
  length_le : ks.length ≤ maxEntries

theorem rep_initial : Rep {} [] where
  holds := .nil (by decide) _ 0 0
  channel := by simp
  first := by simp
  length_le := by simp

/-- The entries of an open batch, as the host sees them, are its packets. -/
theorem recordedOn_seen {b : Batcher} {ks : List Kept} (h : ∀ k ∈ ks, k.channel = b.batchChannel) :
    (ks.map entryFormat.seen).map (recordedOn b.batchChannel) = ks.map Kept.recorded := by
  rw [List.map_map]
  apply List.map_congr_left
  intro k hk
  simp only [Function.comp, recordedOn, EntryFormat.seen, entryFormat, Kept.recorded, h k hk]

/-- The buffer reads back as the open batch. -/
theorem openEntries_rep {b : Batcher} {ks : List Kept} (h : Rep b ks) :
    openEntries b = some (ks.map Kept.recorded) := by
  rw [openEntries, h.holds.decode]
  simp [recordedOn_seen h.channel]

/-! ## Closing a batch -/

/-- The batcher after a flush that took `n` packets with answer `r`. -/
def flushed (b : Batcher) (buf : ByteBuffer maxBatchBytes) (n : Nat) (r : SendResult) : Batcher :=
  { b with
    buf
    droppedPackets := if r.ok then b.droppedPackets else b.droppedPackets + n
    count := 0
    used := headerLen }

/-- Nothing is open after a flush. -/
theorem flushed_rep (b : Batcher) (buf : ByteBuffer maxBatchBytes) (n : Nat) (r : SendResult) :
    Rep (flushed b buf n r) [] where
  holds := .nil (by decide) buf _ _
  channel := by simp
  first := by simp
  length_le := by simp

/-- What a frame that closed the batch `ks` looks like. -/
structure Closes (f : Frame) (ks : List Kept) : Prop where
  decodes : decodeFrame f = some (ks.map Kept.recorded)
  shape : (f.type = .packet ∧ ks.length = 1) ∨
    (f.type = .packetBatch ∧ 2 ≤ ks.length ∧ ks.length ≤ maxEntries ∧
      f.payload.length ≤ maxBatchBytes)

/-- A `PACKET` reads back as its metadata and PSDU. -/
theorem decodePacket_meta (channel lqi : UInt8) (rssi : Int8) (flags : UInt8) (ts : UInt64)
    (psdu : List UInt8) :
    decodePacket (sn154Meta channel lqi rssi flags ts ++ psdu)
      = some [⟨channel, ts.toNat, lqi, rssi, psdu⟩] := by
  have hts : ts.toNat < 256 ^ 8 := UInt64.toNat_lt ts
  simp only [sn154Meta, List.cons_append, List.nil_append, decodePacket, putLe64_eq,
    readLE_leBytes_append 8 _ _ hts]
  rfl

theorem sn154Meta_length (channel lqi : UInt8) (rssi : Int8) (flags : UInt8) (ts : UInt64) :
    (sn154Meta channel lqi rssi flags ts).length = sn154MetaLen := rfl

/-- A batch of one is sent as a `PACKET`. -/
theorem flushOne_rep {b : Batcher} {k : Kept} (h : Rep b [k]) (o : Outbox) :
    ∃ f, flushOne b o = some (flushed b b.buf 1 (o.send f).2, (o.send f).1) ∧ Closes f [k] := by
  have hk := k.psdu_le
  have hbase : k.timestampUs = b.baseUs := h.first k rfl
  have henc : entryFormat.encodeFrom b.baseUs.toNat [k]
      = leBytes 2 (k.timestampUs.toNat - b.baseUs.toNat)
        ++ ([k.lqi, k.rssiDbm.toUInt8, UInt8.ofNat k.psdu.length] ++ k.psdu) := by
    simp [EntryFormat.encodeFrom, EntryFormat.entry, entryFormat]
  have hfield : (leBytes 2 (k.timestampUs.toNat - b.baseUs.toNat)).length = 2 := leBytes_length 2 _
  obtain ⟨d0, d1, hd⟩ : ∃ d0 d1, leBytes 2 (k.timestampUs.toNat - b.baseUs.toNat) = [d0, d1] :=
    ⟨_, _, rfl⟩
  have hlen : (UInt8.ofNat k.psdu.length).toNat = k.psdu.length := by
    rw [UInt8.toNat_ofNat', Nat.mod_eq_of_lt]
    simp only [maxPsdu] at hk
    omega
  have hhead : b.buf.read headerLen entryLen
      = some [d0, d1, k.lqi, k.rssiDbm.toUInt8, UInt8.ofNat k.psdu.length] := by
    have := h.holds.read 0 entryLen (by rw [henc, hd]; simp [entryLen])
    rw [Nat.add_zero] at this
    rw [this, henc, hd]
    simp [entryLen]
  have hpsdu : b.buf.read (headerLen + entryLen) k.psdu.length = some k.psdu := by
    have := h.holds.read entryLen k.psdu.length
      (by rw [henc, hd]; simp [entryLen]; omega)
    rw [this, henc, hd]
    simp [entryLen]
  let packetMeta := sn154Meta b.batchChannel k.lqi k.rssiDbm 0 b.baseUs
  obtain ⟨one, one', hw1, hw2, hpay⟩ :=
    (ByteBuffer.zero (sn154MetaLen + maxPsdu)).write_write_read packetMeta k.psdu
      (by simp only [packetMeta, sn154Meta_length]; omega)
  refine ⟨⟨.packet, packetMeta ++ k.psdu⟩, ?_, ?_, Or.inl ⟨rfl, rfl⟩⟩
  · have hsigned : (k.rssiDbm.toUInt8).toInt8 = k.rssiDbm := rfl
    simp only [flushOne, hhead, Option.bind_eq_bind, Option.bind_some, List.getD_cons_succ,
      List.getD_cons_zero, hlen, hpsdu, hsigned]
    simp only [packetMeta, sn154Meta_length] at hw1 hw2 hpay
    rw [hw1, Option.bind_some, hw2, Option.bind_some, hpay]
    rfl
  · have hch : k.channel = b.batchChannel := h.channel k (by simp)
    simp only [decodeFrame, packetMeta, decodePacket_meta, Kept.recorded, List.map_cons, List.map_nil,
      hch, hbase]

/-- A batch of two or more is sent as a `PACKET_BATCH`. -/
theorem flushMany_rep {b : Batcher} {ks : List Kept} (h : Rep b ks) (htwo : 2 ≤ ks.length)
    (o : Outbox) :
    ∃ f buf, flushMany b o = some (flushed b buf ks.length (o.send f).2, (o.send f).1) ∧
      Closes f ks := by
  have hle := h.length_le
  have hcount : (UInt8.ofNat b.count).toNat = ks.length := by
    rw [h.holds.count_eq, UInt8.toNat_ofNat', Nat.mod_eq_of_lt]
    simp only [maxEntries] at hle
    omega
  obtain ⟨buf, hw, htake⟩ := h.holds.sealed
    (putLe64 b.baseUs ++ [b.batchChannel, UInt8.ofNat b.count]) rfl
  have hread : buf.read 0 b.used = some (putLe64 b.baseUs
      ++ [b.batchChannel, UInt8.ofNat b.count]
      ++ entryFormat.encodeFrom b.baseUs.toNat ks) := by
    have := h.holds.used_le
    rw [buf.read_eq_some 0 _ (by omega), List.drop_zero, htake]
  have hsize : (putLe64 b.baseUs ++ [b.batchChannel, UInt8.ofNat b.count]
      ++ entryFormat.encodeFrom b.baseUs.toNat ks).length = b.used := by
    rw [List.length_append, h.holds.used_eq]; rfl
  refine ⟨⟨.packetBatch, _⟩, buf, ?_, ?_,
    Or.inr ⟨rfl, htwo, hle, hsize ▸ h.holds.used_le⟩⟩
  · simp only [flushMany, hw, Option.bind_eq_bind, Option.bind_some, hread]
    simp only [flushed, h.holds.count_eq]
  · have hts : b.baseUs.toNat < 256 ^ 8 := UInt64.toNat_lt b.baseUs
    have hdec := entryFormat.decodeFrom_encodeFrom b.baseUs.toNat ks [] h.holds.steps
    rw [List.append_nil] at hdec
    simp only [decodeFrame, decodeBatch, putLe64_eq, List.append_assoc,
      readLE_leBytes_append 8 _ _ hts, Option.bind_eq_bind, Option.bind_some, List.cons_append,
      List.nil_append, hcount, hdec, if_true, recordedOn_seen h.channel]

/-- Flushing an empty batch does nothing. -/
theorem flushLocked_nil {b : Batcher} (h : Rep b []) (o : Outbox) :
    flushLocked b o = some (b, o) := by
  have : b.count = 0 := h.holds.count_eq
  simp [flushLocked, this]

/-- Flushing an open batch hands over one frame that closes it. -/
theorem flushLocked_cons {b : Batcher} {ks : List Kept} (h : Rep b ks) (hne : ks ≠ [])
    (o : Outbox) :
    ∃ f buf, flushLocked b o = some (flushed b buf ks.length (o.send f).2, (o.send f).1) ∧
      Closes f ks := by
  have hcount := h.holds.count_eq
  match ks, hne with
  | [k], _ =>
      obtain ⟨f, hf, hc⟩ := flushOne_rep h o
      exact ⟨f, b.buf, by simpa [flushLocked, hcount] using hf, hc⟩
  | k :: k' :: ks, _ =>
      obtain ⟨f, buf, hf, hc⟩ := flushMany_rep h (by simp) o
      exact ⟨f, buf, by simpa [flushLocked, hcount] using hf, hc⟩

/-! ## A packet joins -/

/-- The length `sn_batch_add` works with, and the bytes it copies, are those of
the kept packet. -/
theorem kept_psdu (p : Packet) :
    (if p.psdu.length > maxPsdu then maxPsdu else p.psdu.length) = p.kept.psdu.length ∧
      p.psdu.take p.kept.psdu.length = p.kept.psdu := by
  have hlen : p.kept.psdu.length = min maxPsdu p.psdu.length := List.length_take
  constructor
  · rw [hlen]
    split <;> omega
  · show p.psdu.take p.kept.psdu.length = p.psdu.take maxPsdu
    rw [hlen, ← List.take_take, List.take_length]

/-- The open batch `ks` can take the packet as its next entry. -/
structure Accepts (b : Batcher) (ks : List Kept) (p : Packet) : Prop where
  rep : Rep b ks
  below : ks.length < maxEntries
  channel : p.channel = b.batchChannel
  first : ks = [] → p.timestampUs = b.baseUs
  last_eq : b.lastUs.toNat = entryFormat.lastFrom b.baseUs.toNat ks
  last_le : b.lastUs.toNat ≤ p.timestampUs.toNat
  dt_le : p.timestampUs.toNat - b.lastUs.toNat ≤ 0xFFFF
  room : b.used + (entryLen + p.kept.psdu.length) ≤ maxBatchBytes

/-- What the four early-close tests ask of a batch that is to stay open. -/
theorem mustClose_false_iff {b : Batcher} {p : Packet} {len : Nat} (hopen : 0 < b.count) :
    mustClose b p len = false ↔
      p.channel = b.batchChannel ∧ b.lastUs.toNat ≤ p.timestampUs.toNat ∧
        p.timestampUs.toNat - b.lastUs.toNat ≤ 0xFFFF ∧
        b.used + (entryLen + len) ≤ maxBatchBytes := by
  have hmax : maxDtUs.toNat = 0xFFFF := rfl
  have hdelta : b.lastUs.toNat ≤ p.timestampUs.toNat →
      (p.timestampUs - b.lastUs).toNat = p.timestampUs.toNat - b.lastUs.toNat :=
    fun hle => UInt64.toNat_sub_of_le _ _ (UInt64.le_iff_toNat_le.mpr hle)
  simp only [mustClose, decide_eq_true hopen, Bool.true_and, Bool.or_eq_false_iff,
    bne_eq_false_iff_eq, decide_eq_false_iff_not, UInt64.lt_iff_toNat_lt, GT.gt, hmax]
  constructor
  · rintro ⟨⟨⟨hch, hback⟩, hwide⟩, hroom⟩
    rw [hdelta (by omega)] at hwide
    exact ⟨hch, by omega, by omega, by omega⟩
  · rintro ⟨hch, hle, hdt, hroom⟩
    rw [hdelta hle]
    exact ⟨⟨⟨hch, by omega⟩, by omega⟩, by omega⟩

/-- A batch left open by the early-close tests accepts the packet. -/
theorem openFor_accepts {b : Batcher} {ks : List Kept} {p : Packet} (h : Rep b ks)
    (hbelow : ks.length < maxEntries) (hopen : mustClose b p p.kept.psdu.length = false) :
    Accepts (openFor b p) ks p := by
  have hcount := h.holds.count_eq
  cases ks with
  | nil =>
      have hzero : b.count = 0 := hcount
      have hused : b.used = headerLen := h.holds.used_eq
      have hpsdu := p.kept.psdu_le
      have heq : openFor b p = { b with baseUs := p.timestampUs, batchChannel := p.channel,
                                        lastUs := p.timestampUs } := if_pos hzero
      rw [heq]
      refine ⟨⟨?_, by simp, by simp, by simp⟩, hbelow, rfl, fun _ => rfl, rfl,
        Nat.le_refl _, by simp, ?_⟩
      · simp only [hused, hzero]
        exact .nil (by decide) _ _ _
      · simp only [hused, headerLen, entryLen, maxBatchBytes]
        simp only [maxPsdu] at hpsdu
        omega
  | cons k ks =>
      have hpos : 0 < b.count := by rw [hcount]; simp
      have heq : openFor b p = b := if_neg (by omega)
      obtain ⟨hch, hle, hdt, hroom⟩ := (mustClose_false_iff hpos).mp hopen
      rw [heq]
      exact ⟨h, hbelow, hch, by simp, h.holds.last_eq (by simp), hle, hdt, hroom⟩

/-- The entry the code writes is the entry of the kept packet. -/
theorem entry_kept {b : Batcher} {ks : List Kept} {p : Packet} (h : Accepts b ks p) :
    putLe16 (p.timestampUs - b.lastUs).toUInt16
        ++ [p.lqi, p.rssiDbm.toUInt8, UInt8.ofNat p.kept.psdu.length]
        ++ p.psdu.take p.kept.psdu.length
      = entryFormat.entry b.lastUs.toNat p.kept := by
  have hle : b.lastUs ≤ p.timestampUs := UInt64.le_iff_toNat_le.mpr h.last_le
  have hdt : (p.timestampUs - b.lastUs).toUInt16.toNat
      = p.timestampUs.toNat - b.lastUs.toNat := by
    have := h.dt_le
    rw [UInt64.toNat_toUInt16, UInt64.toNat_sub_of_le _ _ hle, Nat.mod_eq_of_lt (by omega)]
  rw [putLe16_eq, hdt, (kept_psdu p).2, List.append_assoc]
  rfl

/-- Writing the entry adds the packet to the open batch. -/
theorem putEntry_rep {b : Batcher} {ks : List Kept} {p : Packet} (h : Accepts b ks p) :
    ∃ b', putEntry b p p.kept.psdu.length = some b' ∧ Rep b' (ks ++ [p.kept]) := by
  have hsize : (entryFormat.entry b.lastUs.toNat p.kept).length
      = entryLen + p.kept.psdu.length := by
    rw [EntryFormat.entry_length]
    simp only [entryFormat, List.length_append, List.length_cons, List.length_nil, entryLen]
    omega
  have hroom := h.room
  obtain ⟨buf, hw, hholds⟩ := h.rep.holds.append p.kept h.last_eq h.last_le h.dt_le
    (by rw [hsize]; exact hroom)
  refine ⟨{ b with buf, used := b.used + (entryLen + p.kept.psdu.length)
                   lastUs := p.timestampUs, count := b.count + 1 }, ?_, ?_⟩
  · simp only [putEntry, entry_kept h, hw]
    rfl
  · rw [hsize] at hholds
    refine ⟨hholds, ?_, ?_, ?_⟩
    · intro k hk
      rcases List.mem_append.mp hk with hk | hk
      · exact h.rep.channel k hk
      · rw [List.mem_singleton.mp hk]
        exact h.channel
    · intro k hk
      cases ks with
      | nil =>
          cases hk
          exact h.first rfl
      | cons k₀ ks => exact h.rep.first k hk
    · rw [List.length_append]
      exact h.below

/-! ## Every history -/

/-- The shape of a `PACKET_BATCH`: read whole, with 2 to `MAX_ENTRIES` entries, and
no longer than the buffer. -/
def WellShaped (f : Frame) : Prop :=
  f.type = .packetBatch →
    f.payload.length ≤ maxBatchBytes ∧
      ∃ recs, decodeFrame f = some recs ∧ 2 ≤ recs.length ∧ recs.length ≤ maxEntries

theorem Closes.wellShaped {f : Frame} {ks : List Kept} (h : Closes f ks) : WellShaped f := by
  intro hbatch
  rcases h.shape with ⟨hpacket, _⟩ | ⟨_, htwo, hmax, hsize⟩
  · rw [hpacket] at hbatch
    cases hbatch
  · exact ⟨hsize, _, h.decodes, by simpa using htwo, by simpa using hmax⟩

/-- From the open batch `ks`, some work took in the records `new` and left the
open batch `ks'`. -/
structure Advances (o : Outbox) (ks : List Kept) (b' : Batcher) (o' : Outbox)
    (ks' : List Kept) (new : List Recorded) : Prop where
  rep : Rep b' ks'
  below : ks'.length < maxEntries
  forwards : Forwards decodeFrame WellShaped o.frames o'.frames (ks.map Kept.recorded)
    (ks'.map Kept.recorded) new

theorem Advances.trans {o o₁ o₂ : Outbox} {b₁ b₂ : Batcher} {ks ks₁ ks₂ : List Kept}
    {new new' : List Recorded} (h : Advances o ks b₁ o₁ ks₁ new)
    (h' : Advances o₁ ks₁ b₂ o₂ ks₂ new') : Advances o ks b₂ o₂ ks₂ (new ++ new') where
  rep := h'.rep
  below := h'.below
  forwards := h.forwards.trans h'.forwards

/-- A flush takes nothing in and leaves nothing open. -/
theorem flushLocked_advances {b : Batcher} {ks : List Kept} (h : Rep b ks) (o : Outbox) :
    ∃ b' o', flushLocked b o = some (b', o') ∧ Advances o ks b' o' [] [] := by
  by_cases hne : ks = []
  · subst hne
    exact ⟨b, o, flushLocked_nil h o, h, by decide, .refl _ _⟩
  · obtain ⟨f, buf, hf, hc⟩ := flushLocked_cons h hne o
    refine ⟨_, _, hf, flushed_rep _ _ _ _, by decide, ?_⟩
    rw [Outbox.send_frames]
    exact .emit _ hc.decodes hc.wellShaped

/-- The linger timer is no part of the batch. -/
theorem Rep.setLinger {b : Batcher} {ks : List Kept} (h : Rep b ks) (armed : Bool) :
    Rep { b with lingerArmed := armed } ks :=
  ⟨h.holds, h.channel, h.first, h.length_le⟩

/-- `sn_batch_flush` leaves nothing open, and hands over one frame if there was
something. -/
theorem snBatchFlush_spec {b : Batcher} {ks : List Kept} (h : Rep b ks) (o : Outbox) :
    ∃ b' o', snBatchFlush b o = some (b', o') ∧ Rep b' [] ∧ o'.answers = o.answers ∧
      o'.log.length = o.log.length + (if b.count = 0 then 0 else 1) := by
  have hrep := h.setLinger false
  have hcount : b.count = ks.length := h.holds.count_eq
  by_cases hne : ks = []
  · subst hne
    exact ⟨_, o, flushLocked_nil hrep o, hrep, rfl, by simp [hcount]⟩
  · obtain ⟨f, buf, hf, _⟩ := flushLocked_cons hrep hne o
    refine ⟨_, _, hf, flushed_rep _ _ _ _, rfl, ?_⟩
    simp [hcount, hne]

/-- The early close leaves a batch that the packet may join. -/
theorem closeEarly_advances {b : Batcher} {ks : List Kept} (h : Rep b ks)
    (hbelow : ks.length < maxEntries) (o : Outbox) (p : Packet) :
    ∃ b' o' ks', closeEarly b o p p.kept.psdu.length = some (b', o') ∧
      Advances o ks b' o' ks' [] ∧ mustClose b' p p.kept.psdu.length = false := by
  unfold closeEarly
  by_cases hmust : mustClose b p p.kept.psdu.length = true
  · obtain ⟨b', o', hf, hadv⟩ := flushLocked_advances h o
    refine ⟨b', o', [], by rw [if_pos hmust, hf], hadv, ?_⟩
    have hzero : b'.count = 0 := hadv.rep.holds.count_eq
    simp [mustClose, hzero]
  · rw [Bool.not_eq_true] at hmust
    exact ⟨b, o, ks, by rw [hmust]; rfl, ⟨h, hbelow, .refl _ _⟩, hmust⟩

/-- `sn_batch_add` takes in its packet. -/
theorem snBatchAdd_advances {b : Batcher} {ks : List Kept} (h : Rep b ks)
    (hbelow : ks.length < maxEntries) (o : Outbox) (p : Packet) :
    ∃ b' o' ks', snBatchAdd b o p = some (b', o') ∧ Advances o ks b' o' ks' [p.recorded] := by
  obtain ⟨b₁, o₁, ks₁, hclose, hadv, hopen⟩ := closeEarly_advances h hbelow o p
  obtain ⟨b₂, hput, hrep⟩ := putEntry_rep (openFor_accepts hadv.rep hadv.below hopen)
  have hkeep : Forwards decodeFrame WellShaped o₁.frames o₁.frames (ks₁.map Kept.recorded)
      ((ks₁ ++ [p.kept]).map Kept.recorded) [p.recorded] := by
    rw [List.map_append]
    exact .keep _ _ _
  have hcount : b₂.count = (ks₁ ++ [p.kept]).length := hrep.holds.count_eq
  simp only [snBatchAdd, (kept_psdu p).1, hclose, Option.bind_eq_bind, Option.bind_some, hput]
  by_cases hfull : b₂.count = maxEntries
  · obtain ⟨b₃, o₃, hflush, hadv₃⟩ := flushLocked_advances hrep o₁
    refine ⟨_, _, [], by rw [if_pos hfull, hflush]; rfl, hadv₃.rep.setLinger false, by decide,
      ?_⟩
    exact (hadv.forwards.trans hkeep).trans hadv₃.forwards
  · refine ⟨_, _, ks₁ ++ [p.kept], if_neg hfull, hrep.setLinger true, ?_,
      hadv.forwards.trans hkeep⟩
    have := hrep.length_le
    omega

/-- The packets a history adds, as the host should record them. -/
def added : List Event → List Recorded
  | [] => []
  | .add p :: es => p.recorded :: added es
  | _ :: es => added es

/-- One event takes in the packets it adds. -/
theorem step_advances {b : Batcher} {ks : List Kept} (h : Rep b ks)
    (hbelow : ks.length < maxEntries) (o : Outbox) (e : Event) :
    ∃ b' o' ks', step b o e = some (b', o') ∧ Advances o ks b' o' ks' (added [e]) := by
  cases e with
  | add p => exact snBatchAdd_advances h hbelow o p
  | flush =>
      obtain ⟨b', o', hf, hadv⟩ := flushLocked_advances (h.setLinger false) o
      exact ⟨b', o', [], hf, hadv⟩
  | linger =>
      obtain ⟨b', o', hf, hadv⟩ := flushLocked_advances h o
      exact ⟨b', o', [], hf, hadv⟩

theorem run_append (b : Batcher) (o : Outbox) (es fs : List Event) :
    run b o (es ++ fs) = (run b o es).bind fun r => run r.1 r.2 fs := by
  induction es generalizing b o with
  | nil => rfl
  | cons e es ih =>
      simp only [List.cons_append, run, Option.bind_assoc]
      exact congrArg _ (funext fun r => ih r.1 r.2)

theorem added_cons (e : Event) (es : List Event) : added (e :: es) = added [e] ++ added es := by
  cases e <;> rfl

/-- A history takes in the packets it adds, in order. -/
theorem run_advances {b : Batcher} {ks : List Kept} (h : Rep b ks)
    (hbelow : ks.length < maxEntries) (o : Outbox) (es : List Event) :
    ∃ b' o' ks', run b o es = some (b', o') ∧ Advances o ks b' o' ks' (added es) := by
  induction es generalizing b o ks with
  | nil => exact ⟨b, o, ks, rfl, h, hbelow, .refl _ _⟩
  | cons e es ih =>
      obtain ⟨b₁, o₁, ks₁, hstep, hadv⟩ := step_advances h hbelow o e
      obtain ⟨b₂, o₂, ks₂, hrun, hadv₂⟩ := ih hadv.rep hadv.below o₁
      refine ⟨b₂, o₂, ks₂, ?_, ?_⟩
      · simp only [run, hstep, Option.bind_some, hrun]
      · rw [added_cons]
        exact hadv.trans hadv₂

/-- **Batching is lossless.** Whatever packets are added, flushed and timed out
in whatever order, and whatever the link answers, no access leaves a buffer,
and the frames handed over followed by the open batch are the packets added:
in order, each with its own channel, exact stamp, lqi, rssi and PSDU. -/
theorem snBatch_lossless (answers : Nat → SendResult) (es : List Event) :
    ∃ b o recs rest, run {} { answers } es = some (b, o) ∧
      decodeAll decodeFrame o.frames = some recs ∧
      openEntries b = some rest ∧
      recs ++ rest = added es ∧
      ∀ f ∈ o.frames, WellShaped f := by
  obtain ⟨b, o, ks, hrun, hadv⟩ := run_advances rep_initial (by decide) { answers } es
  obtain ⟨recs, hdec, heq, hgood⟩ := hadv.forwards.total
  exact ⟨b, o, recs, ks.map Kept.recorded, hrun, hdec, openEntries_rep hadv.rep, heq, hgood⟩

end Nrf54Sniffer.Batch
