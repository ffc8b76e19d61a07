/-
Nrf54Sniffer.Ble.ForwardTheorems — BLE batching loses, reorders and invents
nothing.

The host's reader comes first, from the layouts `radio_ble.h` and
`radio_ble.c` state, then the representation invariant `Rep` of the open
batch. `sizePacket_sized` is what the proof needs of the arithmetic of
`forward`, `putEntry_rep` adds a packet, `bleFlushLocked_advances` closes the
batch, and `run_advances` carries both along any history.

The looks at the event before the lock change counters and requests only
(`beforeLock_spec`), so whatever an event makes the other threads do, the
batch is the packets forwarded.
-/
import Nrf54Sniffer.Ble.Forward
import Nrf54Sniffer.Lib.DeltaLog
import Nrf54Sniffer.Lib.PackedStream

namespace Nrf54Sniffer.Ble

open Nrf54Sniffer.Lib
open Nrf54Sniffer.Wire

/-! ## The host's reader -/

/-- One HCI packet as the host records it. -/
structure Recorded where
  timestampUs : Nat
  origLen : Nat
  flags : UInt8
  data : List UInt8
  deriving DecidableEq, Repr

/-- What one entry carries besides its delta. -/
structure EntryBody where
  origLen : Nat
  flags : UInt8
  data : List UInt8
  deriving DecidableEq, Repr

/-- u16 orig_len, u8 flags, u16 len, then the data. -/
def parseEntryBody (xs : List UInt8) : Option (EntryBody × List UInt8) := do
  let (origLen, xs) ← readLE 2 xs
  match xs with
  | flags :: xs => do
      let (len, xs) ← readLE 2 xs
      let (data, rest) ← takeExact len xs
      some (⟨origLen, flags, data⟩, rest)
  | [] => none

/-- A packet of the open batch: at most `SN_BLE_MAX_PACKET` bytes of it. -/
structure Kept where
  timestampUs : UInt64
  origLen : UInt16
  flags : UInt8
  data : List UInt8
  data_le : data.length ≤ snBleMaxPacket

def Kept.recorded (k : Kept) : Recorded := ⟨k.timestampUs.toNat, k.origLen.toNat, k.flags, k.data⟩

theorem Kept.len_toNat (k : Kept) : (UInt16.ofNat k.data.length).toNat = k.data.length := by
  have := k.data_le
  rw [UInt16.toNat_ofNat', Nat.mod_eq_of_lt]
  simp only [snBleMaxPacket] at this
  omega

/-- The entries of a `BLE_BATCH`. -/
def entryFormat : EntryFormat Kept EntryBody where
  stamp k := k.timestampUs.toNat
  body k := putLe16 k.origLen ++ [k.flags] ++ putLe16 (UInt16.ofNat k.data.length) ++ k.data
  view k := ⟨k.origLen.toNat, k.flags, k.data⟩
  parse := parseEntryBody
  parse_body k rest := by
    have horig : k.origLen.toNat < 256 ^ 2 := UInt16.toNat_lt k.origLen
    have hlen : k.data.length < 256 ^ 2 := by
      have := k.data_le
      simp only [snBleMaxPacket] at this
      omega
    simp only [List.append_assoc, putLe16_eq, k.len_toNat, parseEntryBody,
      readLE_leBytes_append 2 _ _ horig, Option.bind_eq_bind, Option.bind_some, List.cons_append,
      List.nil_append, readLE_leBytes_append 2 _ _ hlen, takeExact_append _ _ rfl]

/-- An entry of a batch as a record. -/
def recordedOf (item : Nat × EntryBody) : Recorded :=
  ⟨item.1, item.2.origLen, item.2.flags, item.2.data⟩

/-- `sn_ble_meta`, then the H4 packet to the end of the frame. -/
def decodePacket (payload : List UInt8) : Option (List Recorded) := do
  let (timestampUs, xs) ← readLE 8 payload
  let (origLen, xs) ← readLE 2 xs
  match xs with
  | flags :: _reserved :: data => some [⟨timestampUs, origLen, flags, data⟩]
  | _ => none

/-- u64 base, count, then `count` entries that must fill the frame. -/
def decodeBatch (payload : List UInt8) : Option (List Recorded) := do
  let (base, xs) ← readLE 8 payload
  match xs with
  | count :: xs => do
      let (items, rest) ← entryFormat.decodeFrom count.toNat base xs
      if rest = [] then some (items.map recordedOf) else none
  | [] => none

/-- One frame of the capture, read whole or refused. -/
def decodeFrame (f : Frame) : Option (List Recorded) :=
  match f.type with
  | .packet => decodePacket f.payload
  | .bleBatch => decodeBatch f.payload
  | _ => none

/-- The packets of the open batch, read back from `bbuf`. -/
def openEntries (b : BleBatch) : Option (List Recorded) := do
  let (items, rest) ← entryFormat.decodeFrom b.count b.baseUs.toNat
    ((b.buf.bytes.take b.used).drop bleBatchHdrLen)
  if rest = [] then some (items.map recordedOf) else none

theorem recordedOf_seen (ks : List Kept) :
    (ks.map entryFormat.seen).map recordedOf = ks.map Kept.recorded := by
  rw [List.map_map]
  rfl

/-! ## The representation invariant -/

/-- The open batch is `ks`. -/
structure Rep (b : BleBatch) (ks : List Kept) : Prop where
  holds : entryFormat.Holds bleBatchHdrLen b.buf b.used b.count b.baseUs.toNat b.lastUs.toNat ks
  first : ∀ k, ks.head? = some k → k.timestampUs = b.baseUs
  length_le : ks.length ≤ bleMaxEntries

/-- An emptied batch holds nothing. -/
theorem emptied_rep (b : BleBatch) : Rep b.emptied [] where
  holds := .nil (by decide) _ _ _
  first := by simp
  length_le := by simp

theorem rep_initial : Rep {} [] := emptied_rep {}

/-- `bbuf` reads back as the open batch. -/
theorem openEntries_rep {b : BleBatch} {ks : List Kept} (h : Rep b ks) :
    openEntries b = some (ks.map Kept.recorded) := by
  rw [openEntries, h.holds.decode]
  simp only [Option.bind_eq_bind, Option.bind_some, if_true, recordedOf_seen]

/-! ## Closing a batch -/

/-- The state after a flush that took `n` packets with answer `r`. -/
def flushed (s : BleRadio) (buf : ByteBuffer bleBatchBuf) (n : Nat) (r : SendResult) : BleRadio :=
  { s with stats := countSent s.stats n r, batch := { s.batch with buf }.emptied }

/-- What a frame that closed the batch `ks` looks like. -/
structure Closes (f : Frame) (ks : List Kept) : Prop where
  decodes : decodeFrame f = some (ks.map Kept.recorded)
  shape : (f.type = .packet ∧ ks.length = 1) ∨
    (f.type = .bleBatch ∧ 2 ≤ ks.length ∧ ks.length ≤ bleMaxEntries ∧
      f.payload.length ≤ bleBatchBuf)

/-- A `PACKET` reads back as its metadata and packet. -/
theorem decodePacket_meta (ts : UInt64) (origLen : UInt16) (flags : UInt8) (hci : List UInt8) :
    decodePacket (snBleMeta ts origLen flags ++ hci)
      = some [⟨ts.toNat, origLen.toNat, flags, hci⟩] := by
  have hts : ts.toNat < 256 ^ 8 := UInt64.toNat_lt ts
  have horig : origLen.toNat < 256 ^ 2 := UInt16.toNat_lt origLen
  simp only [snBleMeta, List.append_assoc, decodePacket, putLe64_eq, putLe16_eq,
    readLE_leBytes_append 8 _ _ hts, readLE_leBytes_append 2 _ _ horig, Option.bind_eq_bind,
    Option.bind_some, List.cons_append, List.nil_append]

theorem snBleMeta_length (ts : UInt64) (origLen : UInt16) (flags : UInt8) :
    (snBleMeta ts origLen flags).length = snBleMetaLen := rfl

/-- `send_alone` stays inside `out` and sends the metadata and the packet. -/
theorem sendAlone_eq (s : BleRadio) (o : Outbox) (ts : UInt64) (origLen : UInt16) (flags : UInt8)
    (hci : List UInt8) (h : hci.length ≤ snBleMaxPacket) :
    let f : Frame := ⟨.packet, snBleMeta ts origLen flags ++ hci⟩
    sendAlone s o ts origLen flags hci
      = some ({ s with stats := countSent s.stats 1 (o.send f).2 }, (o.send f).1) := by
  obtain ⟨out, out', hw, hw', hread⟩ :=
    (ByteBuffer.zero (snBleMetaLen + snBleMaxPacket)).write_write_read
      (snBleMeta ts origLen flags) hci (by rw [snBleMeta_length]; omega)
  rw [snBleMeta_length] at hw' hread
  simp only [sendAlone, hw, hw', hread, Option.bind_eq_bind, Option.bind_some]

/-- The bytes of a batch of one. -/
theorem encodeFrom_singleton (base : Nat) (k : Kept) :
    ∃ d0 d1, entryFormat.encodeFrom base [k]
      = [d0, d1, (k.origLen &&& 0xFF).toUInt8, (k.origLen >>> 8).toUInt8, k.flags,
          (UInt16.ofNat k.data.length &&& 0xFF).toUInt8,
          (UInt16.ofNat k.data.length >>> 8).toUInt8] ++ k.data := by
  refine ⟨UInt8.ofNat (k.timestampUs.toNat - base),
    UInt8.ofNat ((k.timestampUs.toNat - base) / 256), ?_⟩
  simp only [EntryFormat.encodeFrom, EntryFormat.entry, entryFormat, leBytes, putLe16,
    List.cons_append, List.nil_append, List.append_nil]

/-- A batch of one is sent as a `PACKET`. -/
theorem bleFlushOne_rep {s : BleRadio} {k : Kept} (h : Rep s.batch [k]) (o : Outbox) :
    ∃ f, bleFlushOne s o = some (flushed s s.batch.buf 1 (o.send f).2, (o.send f).1) ∧
      Closes f [k] := by
  obtain ⟨d0, d1, henc⟩ := encodeFrom_singleton s.batch.baseUs.toNat k
  have hentry : s.batch.buf.read bleBatchHdrLen bleEntryLen
      = some [d0, d1, (k.origLen &&& 0xFF).toUInt8, (k.origLen >>> 8).toUInt8, k.flags,
          (UInt16.ofNat k.data.length &&& 0xFF).toUInt8,
          (UInt16.ofNat k.data.length >>> 8).toUInt8] := by
    have := h.holds.read 0 bleEntryLen (by rw [henc]; simp [bleEntryLen])
    rw [Nat.add_zero] at this
    rw [this, henc]
    simp [bleEntryLen]
  have hdata : s.batch.buf.read (bleBatchHdrLen + bleEntryLen) k.data.length = some k.data := by
    have := h.holds.read bleEntryLen k.data.length
      (by rw [henc]; simp [bleEntryLen]; omega)
    rw [this, henc]
    simp [bleEntryLen]
  have hbase : k.timestampUs = s.batch.baseUs := h.first k rfl
  refine ⟨⟨.packet, snBleMeta s.batch.baseUs k.origLen k.flags ++ k.data⟩, ?_, ?_,
    Or.inl ⟨rfl, rfl⟩⟩
  · simp only [bleFlushOne, hentry, Option.bind_eq_bind, Option.bind_some, List.getD_cons_succ,
      List.getD_cons_zero, getLe16_putLe16, k.len_toNat, hdata,
      sendAlone_eq s o _ _ _ _ k.data_le, flushed]
  · simp only [decodeFrame, decodePacket_meta, Kept.recorded, List.map_cons, List.map_nil, hbase]

/-- A batch of two or more is sent as a `BLE_BATCH`. -/
theorem bleFlushMany_rep {s : BleRadio} {ks : List Kept} (h : Rep s.batch ks) (htwo : 2 ≤ ks.length)
    (o : Outbox) :
    ∃ f buf, bleFlushMany s o = some (flushed s buf ks.length (o.send f).2, (o.send f).1) ∧
      Closes f ks := by
  have hle := h.length_le
  have hcount : (UInt8.ofNat s.batch.count).toNat = ks.length := by
    rw [h.holds.count_eq, UInt8.toNat_ofNat', Nat.mod_eq_of_lt]
    simp only [bleMaxEntries] at hle
    omega
  obtain ⟨buf, hw, htake⟩ := h.holds.sealed
    (putLe64 s.batch.baseUs ++ [UInt8.ofNat s.batch.count]) rfl
  have hread : buf.read 0 s.batch.used = some (putLe64 s.batch.baseUs
      ++ [UInt8.ofNat s.batch.count] ++ entryFormat.encodeFrom s.batch.baseUs.toNat ks) := by
    have := h.holds.used_le
    rw [buf.read_eq_some 0 _ (by omega), List.drop_zero, htake]
  have hsize : (putLe64 s.batch.baseUs ++ [UInt8.ofNat s.batch.count]
      ++ entryFormat.encodeFrom s.batch.baseUs.toNat ks).length = s.batch.used := by
    rw [List.length_append, h.holds.used_eq]; rfl
  refine ⟨⟨.bleBatch, _⟩, buf, ?_, ?_,
    Or.inr ⟨rfl, htwo, hle, hsize ▸ h.holds.used_le⟩⟩
  · simp only [bleFlushMany, hw, Option.bind_eq_bind, Option.bind_some, hread]
    rw [h.holds.count_eq]
    rfl
  · have hts : s.batch.baseUs.toNat < 256 ^ 8 := UInt64.toNat_lt s.batch.baseUs
    have hdec := entryFormat.decodeFrom_encodeFrom s.batch.baseUs.toNat ks [] h.holds.steps
    rw [List.append_nil] at hdec
    simp only [decodeFrame, decodeBatch, putLe64_eq, List.append_assoc,
      readLE_leBytes_append 8 _ _ hts, Option.bind_eq_bind, Option.bind_some, List.cons_append,
      List.nil_append, hcount, hdec, if_true, recordedOf_seen]

/-- Flushing an empty batch does nothing. -/
theorem bleFlushLocked_nil {s : BleRadio} (h : Rep s.batch []) (o : Outbox) :
    bleFlushLocked s o = some (s, o) := by
  have : s.batch.count = 0 := h.holds.count_eq
  simp [bleFlushLocked, this]

/-- Flushing an open batch hands over one frame that closes it. -/
theorem bleFlushLocked_cons {s : BleRadio} {ks : List Kept} (h : Rep s.batch ks) (hne : ks ≠ [])
    (o : Outbox) :
    ∃ f buf, bleFlushLocked s o = some (flushed s buf ks.length (o.send f).2, (o.send f).1) ∧
      Closes f ks := by
  have hcount := h.holds.count_eq
  match ks, hne with
  | [k], _ =>
      obtain ⟨f, hf, hc⟩ := bleFlushOne_rep h o
      exact ⟨f, s.batch.buf, by simpa [bleFlushLocked, hcount] using hf, hc⟩
  | k :: k' :: ks, _ =>
      obtain ⟨f, buf, hf, hc⟩ := bleFlushMany_rep h (by simp) o
      exact ⟨f, buf, by simpa [bleFlushLocked, hcount] using hf, hc⟩

/-! ## A packet joins -/

/-- What the sizes of a packet of at most 65534 bytes come to: no wrap in
sixteen bits. -/
structure Sized.Exact (p : Sized) : Prop where
  full : p.full.toNat = p.data.length + 1
  take : p.take.toNat = min (p.data.length + 1) snBleMaxPacket

theorem sizePacket_exact (h4Type : UInt8) (data : List UInt8) (ts : UInt64)
    (h : data.length ≤ 65534) : (sizePacket h4Type data ts).Exact := by
  have hfull : (UInt16.ofNat (data.length + 1)).toNat = data.length + 1 := by
    rw [UInt16.toNat_ofNat', Nat.mod_eq_of_lt (by omega)]
  refine ⟨hfull, ?_⟩
  show (if (UInt16.ofNat (data.length + 1)).toNat > snBleMaxPacket
    then UInt16.ofNat snBleMaxPacket else UInt16.ofNat (data.length + 1)).toNat
      = min (data.length + 1) snBleMaxPacket
  have hcap : (UInt16.ofNat snBleMaxPacket).toNat = snBleMaxPacket := rfl
  split
  · omega
  · omega

/-- What the batch keeps of a packet. -/
def Sized.kept (p : Sized) (h : p.Exact) : Kept where
  timestampUs := p.ts
  origLen := p.full
  flags := p.flags
  data := (p.h4Type :: p.data).take p.take.toNat
  data_le := by
    have := h.take
    rw [List.length_take]
    omega

theorem kept_length {p : Sized} (h : p.Exact) : (p.kept h).data.length = p.take.toNat := by
  have := h.take
  show ((p.h4Type :: p.data).take p.take.toNat).length = p.take.toNat
  rw [List.length_take, List.length_cons]
  omega

/-- The open batch `ks` can take the packet as its next entry. -/
structure Accepts (b : BleBatch) (ks : List Kept) (p : Sized) : Prop where
  rep : Rep b ks
  below : ks.length < bleMaxEntries
  first : ks = [] → p.ts = b.baseUs
  last_eq : b.lastUs.toNat = entryFormat.lastFrom b.baseUs.toNat ks
  last_le : b.lastUs.toNat ≤ p.ts.toNat
  dt_le : p.ts.toNat - b.lastUs.toNat ≤ 0xFFFF
  room : b.used + (bleEntryLen + p.take.toNat) ≤ bleBatchBuf

/-- What the early-close tests leave true of a batch that stays open. -/
theorem mustClose_false {b : BleBatch} {p : Sized} (h : mustClose b p = false)
    (hopen : 0 < b.count) :
    b.lastUs.toNat ≤ p.ts.toNat ∧ p.ts.toNat - b.lastUs.toNat ≤ 0xFFFF ∧
      b.used + (bleEntryLen + p.take.toNat) ≤ bleBatchBuf := by
  simp only [mustClose, decide_eq_true hopen, Bool.true_and, Bool.or_eq_false_iff,
    decide_eq_false_iff_not, UInt64.lt_iff_toNat_lt, GT.gt] at h
  obtain ⟨⟨hback, hwide⟩, hroom⟩ := h
  have hle : b.lastUs ≤ p.ts := UInt64.le_iff_toNat_le.mpr (by omega)
  have hmax : (0xFFFF : UInt64).toNat = 0xFFFF := rfl
  rw [UInt64.toNat_sub_of_le _ _ hle, hmax] at hwide
  exact ⟨by omega, by omega, by omega⟩

/-- A batch left open by the early-close tests accepts the packet. -/
theorem openFor_accepts {b : BleBatch} {ks : List Kept} {p : Sized} (h : Rep b ks)
    (hp : p.Exact) (hbelow : ks.length < bleMaxEntries) (hopen : mustClose b p = false) :
    Accepts (b.openFor p) ks p := by
  have hcount := h.holds.count_eq
  cases ks with
  | nil =>
      have hzero : b.count = 0 := hcount
      have hused : b.used = bleBatchHdrLen := h.holds.used_eq
      have htake := hp.take
      have heq : b.openFor p = { b with baseUs := p.ts, lastUs := p.ts } := if_pos hzero
      rw [heq]
      refine ⟨⟨?_, by simp, by simp⟩, hbelow, fun _ => rfl, rfl, Nat.le_refl _, by simp, ?_⟩
      · simp only [hused, hzero]
        exact .nil (by decide) _ _ _
      · simp only [hused, bleBatchHdrLen, bleEntryLen, bleBatchBuf]
        simp only [snBleMaxPacket] at htake
        omega
  | cons k ks =>
      have hpos : 0 < b.count := by rw [hcount]; simp
      have heq : b.openFor p = b := if_neg (by omega)
      obtain ⟨hle, hdt, hroom⟩ := mustClose_false hopen hpos
      rw [heq]
      exact ⟨h, hbelow, by simp, h.holds.last_eq (by simp), hle, hdt, hroom⟩

/-- The bytes copied out of the packet, behind the H4 byte, are the kept data. -/
theorem body_kept {p : Sized} (h : p.Exact) :
    ∃ body rest, takeExact (p.take.toUInt32 - 1).toNat p.data = some (body, rest) ∧
      p.h4Type :: body = (p.kept h).data := by
  have htake := h.take
  have hpos : 1 ≤ p.take.toNat := by
    simp only [snBleMaxPacket] at htake
    omega
  have hn : (p.take.toUInt32 - 1).toNat = p.take.toNat - 1 := by
    have h1 : (1 : UInt32).toNat = 1 := rfl
    rw [UInt32.toNat_sub_of_le _ _ (UInt32.le_iff_toNat_le.mpr (by simpa using hpos)), h1,
      UInt16.toNat_toUInt32]
  refine ⟨_, _, if_pos (by omega), ?_⟩
  show p.h4Type :: p.data.take (p.take.toUInt32 - 1).toNat
    = (p.h4Type :: p.data).take p.take.toNat
  rw [hn, ← List.take_succ_cons, Nat.sub_add_cancel hpos]

/-- The entry the code writes is the entry of the kept packet. -/
theorem entry_kept {b : BleBatch} {ks : List Kept} {p : Sized} (h : Accepts b ks p)
    (hp : p.Exact) {body : List UInt8} (hbody : p.h4Type :: body = (p.kept hp).data) :
    putLe16 (p.ts - b.lastUs).toUInt16 ++ putLe16 p.full ++ [p.flags] ++ putLe16 p.take
        ++ p.h4Type :: body
      = entryFormat.entry b.lastUs.toNat (p.kept hp) := by
  have hle : b.lastUs ≤ p.ts := UInt64.le_iff_toNat_le.mpr h.last_le
  have hdt : (p.ts - b.lastUs).toUInt16.toNat = p.ts.toNat - b.lastUs.toNat := by
    have := h.dt_le
    rw [UInt64.toNat_toUInt16, UInt64.toNat_sub_of_le _ _ hle, Nat.mod_eq_of_lt (by omega)]
  have hlen : UInt16.ofNat (p.kept hp).data.length = p.take := by
    rw [kept_length, UInt16.ofNat_toNat]
  rw [putLe16_eq (p.ts - b.lastUs).toUInt16, hdt, hbody]
  show _ = leBytes 2 (p.ts.toNat - b.lastUs.toNat)
    ++ (putLe16 p.full ++ [p.flags] ++ putLe16 (UInt16.ofNat (p.kept hp).data.length)
      ++ (p.kept hp).data)
  rw [hlen]
  simp only [List.append_assoc]

/-- Writing the entry adds the packet to the open batch. -/
theorem putEntry_rep {b : BleBatch} {ks : List Kept} {p : Sized} (h : Accepts b ks p)
    (hp : p.Exact) : ∃ b', putEntry b p = some b' ∧ Rep b' (ks ++ [p.kept hp]) := by
  have hsize : (entryFormat.entry b.lastUs.toNat (p.kept hp)).length
      = bleEntryLen + p.take.toNat := by
    rw [EntryFormat.entry_length, ← kept_length hp]
    simp only [entryFormat, List.length_append, putLe16_length, List.length_cons,
      List.length_nil, bleEntryLen]
    omega
  have hroom := h.room
  obtain ⟨body, rest, htake, hbody⟩ := body_kept hp
  obtain ⟨buf, hw, hholds⟩ := h.rep.holds.append (p.kept hp) h.last_eq h.last_le h.dt_le
    (by rw [hsize]; exact hroom)
  refine ⟨{ b with buf, used := b.used + (bleEntryLen + p.take.toNat)
                   lastUs := p.ts, count := b.count + 1 }, ?_, ?_⟩
  · simp only [putEntry, htake, Option.bind_eq_bind, Option.bind_some, entry_kept h hp hbody, hw]
  · rw [hsize] at hholds
    refine ⟨hholds, ?_, ?_⟩
    · intro k hk
      cases ks with
      | nil =>
          cases hk
          exact h.first rfl
      | cons k₀ ks => exact h.rep.first k hk
    · rw [List.length_append]
      exact h.below

/-! ## Every history -/

/-- The shape of a `BLE_BATCH`: read whole, with 2 to `BLE_MAX_ENTRIES` entries,
and no longer than `bbuf`. -/
def WellShaped (f : Frame) : Prop :=
  f.type = .bleBatch →
    f.payload.length ≤ bleBatchBuf ∧
      ∃ recs, decodeFrame f = some recs ∧ 2 ≤ recs.length ∧ recs.length ≤ bleMaxEntries

theorem Closes.wellShaped {f : Frame} {ks : List Kept} (h : Closes f ks) : WellShaped f := by
  intro hbatch
  rcases h.shape with ⟨hpacket, _⟩ | ⟨_, htwo, hmax, hsize⟩
  · rw [hpacket] at hbatch
    cases hbatch
  · exact ⟨hsize, _, h.decodes, by simpa using htwo, by simpa using hmax⟩

/-- From the open batch `ks`, some work took in the records `new` and left the
open batch `ks'`. -/
structure Advances (o : Outbox) (ks : List Kept) (s' : BleRadio) (o' : Outbox)
    (ks' : List Kept) (new : List Recorded) : Prop where
  rep : Rep s'.batch ks'
  below : ks'.length < bleMaxEntries
  forwards : Forwards decodeFrame WellShaped o.frames o'.frames (ks.map Kept.recorded)
    (ks'.map Kept.recorded) new

theorem Advances.trans {o o₁ o₂ : Outbox} {s₁ s₂ : BleRadio} {ks ks₁ ks₂ : List Kept}
    {new new' : List Recorded} (h : Advances o ks s₁ o₁ ks₁ new)
    (h' : Advances o₁ ks₁ s₂ o₂ ks₂ new') : Advances o ks s₂ o₂ ks₂ (new ++ new') where
  rep := h'.rep
  below := h'.below
  forwards := h.forwards.trans h'.forwards

/-- A flush takes nothing in and leaves nothing open. -/
theorem bleFlushLocked_advances {s : BleRadio} {ks : List Kept} (h : Rep s.batch ks) (o : Outbox) :
    ∃ s' o', bleFlushLocked s o = some (s', o') ∧ Advances o ks s' o' [] [] := by
  by_cases hne : ks = []
  · subst hne
    exact ⟨s, o, bleFlushLocked_nil h o, h, by decide, .refl _ _⟩
  · obtain ⟨f, buf, hf, hc⟩ := bleFlushLocked_cons h hne o
    refine ⟨_, _, hf, emptied_rep _, by decide, ?_⟩
    rw [Outbox.send_frames]
    exact .emit _ hc.decodes hc.wellShaped

/-- The linger timer is no part of the batch. -/
theorem Rep.setLinger {s : BleRadio} {ks : List Kept} (h : Rep s.batch ks) (armed : Bool) :
    Rep (setLinger s armed).batch ks :=
  ⟨h.holds, h.first, h.length_le⟩

/-- The flush of a stop leaves nothing open, touches the batch and the counters
only, and hands over one frame if there was something. -/
theorem stopFlush_spec {s : BleRadio} {ks : List Kept} (h : Rep s.batch ks) (o : Outbox) :
    ∃ batch stats o', stopFlush s o = some ({ s with batch, stats }, o') ∧ Rep batch [] ∧
      o'.answers = o.answers ∧
      o'.log.length = o.log.length + (if s.batch.count = 0 then 0 else 1) := by
  have hrep := h.setLinger false
  have hcount : s.batch.count = ks.length := h.holds.count_eq
  by_cases hne : ks = []
  · subst hne
    exact ⟨_, _, o, bleFlushLocked_nil hrep o, hrep, rfl, by simp [hcount]⟩
  · obtain ⟨f, buf, hf, _⟩ := bleFlushLocked_cons hrep hne o
    refine ⟨_, _, _, hf, emptied_rep _, rfl, ?_⟩
    simp [hcount, hne]

/-- The early close leaves a batch that the packet may join. -/
theorem closeEarly_advances {s : BleRadio} {ks : List Kept} (h : Rep s.batch ks)
    (hbelow : ks.length < bleMaxEntries) (o : Outbox) (p : Sized) :
    ∃ s' o' ks', closeEarly s o p = some (s', o') ∧ Advances o ks s' o' ks' [] ∧
      mustClose s'.batch p = false := by
  unfold closeEarly
  by_cases hmust : mustClose s.batch p = true
  · obtain ⟨s', o', hf, hadv⟩ := bleFlushLocked_advances h o
    refine ⟨s', o', [], by rw [if_pos hmust, hf], hadv, ?_⟩
    have hzero : s'.batch.count = 0 := hadv.rep.holds.count_eq
    simp [mustClose, hzero]
  · rw [Bool.not_eq_true] at hmust
    exact ⟨s, o, ks, by rw [hmust]; rfl, ⟨h, hbelow, .refl _ _⟩, hmust⟩

/-- The locked part takes in its packet. -/
theorem appendLocked_advances {s : BleRadio} {ks : List Kept} (h : Rep s.batch ks)
    (hbelow : ks.length < bleMaxEntries) (o : Outbox) {p : Sized} (hp : p.Exact) :
    ∃ s' o' ks', appendLocked s o p = some (s', o') ∧
      Advances o ks s' o' ks' [(p.kept hp).recorded] := by
  obtain ⟨s₁, o₁, ks₁, hclose, hadv, hopen⟩ := closeEarly_advances h hbelow o p
  obtain ⟨b₂, hput, hrep⟩ := putEntry_rep (openFor_accepts hadv.rep hp hadv.below hopen) hp
  have hkeep : Forwards decodeFrame WellShaped o₁.frames o₁.frames (ks₁.map Kept.recorded)
      ((ks₁ ++ [p.kept hp]).map Kept.recorded) [(p.kept hp).recorded] := by
    rw [List.map_append]
    exact .keep _ _ _
  have hcount : b₂.count = (ks₁ ++ [p.kept hp]).length := hrep.holds.count_eq
  simp only [appendLocked, hclose, Option.bind_eq_bind, Option.bind_some, hput]
  by_cases hfull : b₂.count = bleMaxEntries
  · obtain ⟨s₃, o₃, hflush, hadv₃⟩ := bleFlushLocked_advances
      (s := { s₁ with batch := b₂, stats := { s₁.stats with captured := s₁.stats.captured + 1 } })
      hrep o₁
    refine ⟨_, _, [], by rw [if_pos hfull, hflush]; rfl, hadv₃.rep.setLinger false, by decide,
      ?_⟩
    exact (hadv.forwards.trans hkeep).trans hadv₃.forwards
  · refine ⟨_, _, ks₁ ++ [p.kept hp], if_neg hfull, hrep.setLinger true, ?_,
      hadv.forwards.trans hkeep⟩
    have := hrep.length_le
    omega

/-- The part before the lock reads inside the event and leaves the batch
alone. -/
theorem beforeLock_spec (s : BleRadio) (h4Type : UInt8) (data : List UInt8) (now : Readings) :
    ∃ s', beforeLock s h4Type data now = some (s', sizePacket h4Type data now.nowUs) ∧
      SameBut s s' := by
  have hover : SameBut s (countOversized s (sizePacket h4Type data now.nowUs)) := by
    unfold countOversized
    split
    · exact .noted s _ _
    · exact .refl s
  obtain ⟨s₁, h₁, hs₁⟩ : ∃ s₁, countEvent (countOversized s (sizePacket h4Type data now.nowUs))
      h4Type data now = some s₁ ∧ SameBut s s₁ := by
    unfold countEvent
    split
    · obtain ⟨s₁, h₁, hs₁⟩ := noteCounts_spec
        (countOversized s (sizePacket h4Type data now.nowUs)) data now.uptimeCounts
      exact ⟨s₁, h₁, hover.trans hs₁⟩
    · exact ⟨_, rfl, hover⟩
  obtain ⟨s₂, h₂, hs₂⟩ : ∃ s₂, peekEvent s₁ h4Type data now = some s₂ ∧ SameBut s₁ s₂ := by
    unfold peekEvent
    split
    · obtain ⟨sa, ha, hsa⟩ := notePeriodic_spec s₁ (peekCopy data)
      obtain ⟨sb, hb, hsb⟩ := noteBigInfo_spec sa (peekCopy data) now.uptimeBigInfo
      exact ⟨sb, by rw [ha, Option.bind_some, hb], hsa.trans hsb⟩
    · exact ⟨s₁, rfl, .refl s₁⟩
  refine ⟨s₂, ?_, hs₁.trans hs₂⟩
  simp only [beforeLock, h₁, h₂, Option.bind_eq_bind, Option.bind_some]

/-- The record the host should have of a forwarded packet: its exact stamp,
its length with the H4 byte, whether it was cut, and its first 300 bytes. -/
def forwardedRecord (h4Type : UInt8) (data : List UInt8) (now : Readings) : Recorded where
  timestampUs := now.nowUs.toNat
  origLen := data.length + 1
  flags := if data.length + 1 > 300 then 0x01 else 0x00
  data := (h4Type :: data).take (min (data.length + 1) 300)

theorem recorded_sizePacket (h4Type : UInt8) (data : List UInt8) (now : Readings)
    (hp : (sizePacket h4Type data now.nowUs).Exact) :
    ((sizePacket h4Type data now.nowUs).kept hp).recorded = forwardedRecord h4Type data now := by
  have hfull := hp.full
  have htake := hp.take
  have hflags : (sizePacket h4Type data now.nowUs).flags
      = if data.length + 1 > 300 then 0x01 else 0x00 := by
    show (if (sizePacket h4Type data now.nowUs).full.toNat > snBleMaxPacket
      then flagTruncated else 0) = _
    rw [hfull]
    rfl
  simp only [Kept.recorded, Sized.kept, forwardedRecord, hfull, htake, hflags]
  rfl

/-- A packet the controller can hand over: its length and the H4 byte fit
sixteen bits. -/
def Event.Fits : Event → Prop
  | .forward _ data _ => data.length ≤ 65534
  | _ => True

/-- The packets a history forwards, as the host should record them. -/
def forwardedRecords : List Event → List Recorded
  | [] => []
  | .forward h4Type data now :: es => forwardedRecord h4Type data now :: forwardedRecords es
  | _ :: es => forwardedRecords es

theorem forwardedRecords_cons (e : Event) (es : List Event) :
    forwardedRecords (e :: es) = forwardedRecords [e] ++ forwardedRecords es := by
  cases e <;> rfl

/-- `forward` takes in its packet. -/
theorem forward_advances {s : BleRadio} {ks : List Kept} (h : Rep s.batch ks)
    (hbelow : ks.length < bleMaxEntries) (o : Outbox) (h4Type : UInt8) (data : List UInt8)
    (now : Readings) (hlen : data.length ≤ 65534) :
    ∃ s' o' ks', forward s o h4Type data now = some (s', o') ∧
      Advances o ks s' o' ks' [forwardedRecord h4Type data now] := by
  have hp := sizePacket_exact h4Type data now.nowUs hlen
  obtain ⟨s₁, hbefore, hsame⟩ := beforeLock_spec s h4Type data now
  obtain ⟨s₂, o₂, ks₂, happend, hadv⟩ := appendLocked_advances
    (s := s₁) (by rw [hsame.batch]; exact h) hbelow o hp
  rw [recorded_sizePacket] at hadv
  refine ⟨s₂, o₂, ks₂, ?_, hadv⟩
  simp only [forward, hbefore, Option.bind_eq_bind, Option.bind_some, happend]

/-- One event takes in the packet it forwards. -/
theorem step_advances {s : BleRadio} {ks : List Kept} (h : Rep s.batch ks)
    (hbelow : ks.length < bleMaxEntries) (o : Outbox) (e : Event) (he : e.Fits) :
    ∃ s' o' ks', step s o e = some (s', o') ∧ Advances o ks s' o' ks' (forwardedRecords [e]) := by
  cases e with
  | forward h4Type data now => exact forward_advances h hbelow o h4Type data now he
  | linger =>
      obtain ⟨s', o', hf, hadv⟩ := bleFlushLocked_advances h o
      exact ⟨s', o', [], hf, hadv⟩
  | stopFlush =>
      obtain ⟨s', o', hf, hadv⟩ := bleFlushLocked_advances (h.setLinger false) o
      exact ⟨s', o', [], hf, hadv⟩
  | elsewhere rest => exact ⟨_, o, ks, rfl, h, hbelow, .refl _ _⟩

/-- A history takes in the packets it forwards, in order. -/
theorem run_advances {s : BleRadio} {ks : List Kept} (h : Rep s.batch ks)
    (hbelow : ks.length < bleMaxEntries) (o : Outbox) (es : List Event)
    (hfits : ∀ e ∈ es, e.Fits) :
    ∃ s' o' ks', run s o es = some (s', o') ∧ Advances o ks s' o' ks' (forwardedRecords es) := by
  induction es generalizing s o ks with
  | nil => exact ⟨s, o, ks, rfl, h, hbelow, .refl _ _⟩
  | cons e es ih =>
      have he := hfits e (by simp)
      obtain ⟨s₁, o₁, ks₁, hstep, hadv⟩ := step_advances h hbelow o e he
      obtain ⟨s₂, o₂, ks₂, hrun, hadv₂⟩ := ih hadv.rep hadv.below o₁
        (fun e' he' => hfits e' (by simp [he']))
      refine ⟨s₂, o₂, ks₂, ?_, ?_⟩
      · simp only [run, hstep, Option.bind_some, hrun]
      · rw [forwardedRecords_cons]
        exact hadv.trans hadv₂

/-- **Batching is lossless.** Whatever packets are forwarded, whenever the
batch is flushed or times out, whatever the other threads do meanwhile and
whatever the link answers, no access leaves a buffer, and the frames handed
over followed by the open batch are the packets forwarded: in order, each with
its exact stamp, length, cut and flag. -/
theorem bleBatch_lossless (answers : Nat → SendResult) (es : List Event)
    (hfits : ∀ e ∈ es, e.Fits) :
    ∃ s o recs rest, run {} { answers } es = some (s, o) ∧
      decodeAll decodeFrame o.frames = some recs ∧
      openEntries s.batch = some rest ∧
      recs ++ rest = forwardedRecords es ∧
      ∀ f ∈ o.frames, WellShaped f := by
  obtain ⟨s, o, ks, hrun, hadv⟩ := run_advances (s := {}) rep_initial (by decide) { answers } es
    hfits
  obtain ⟨recs, hdec, heq, hgood⟩ := hadv.forwards.total
  exact ⟨s, o, recs, ks.map Kept.recorded, hrun, hdec, openEntries_rep hadv.rep, heq, hgood⟩

/-- A long event, a clock that goes back, and the flush of a stop. -/
theorem bleBatch_lossless_long_event :
    let es : List Event :=
      [.forward h4Event (List.replicate 400 7) ⟨70000, 0, 0⟩, .forward h4Iso [1, 2] ⟨5, 0, 0⟩,
       .stopFlush]
    ∃ s o recs rest, run {} { answers := fun _ => .noMem } es = some (s, o) ∧
      decodeAll decodeFrame o.frames = some recs ∧
      openEntries s.batch = some rest ∧
      recs ++ rest = forwardedRecords es ∧
      ∀ f ∈ o.frames, WellShaped f := by
  refine bleBatch_lossless (fun _ => .noMem) _ ?_
  intro e he
  simp only [List.mem_cons, List.not_mem_nil, or_false] at he
  rcases he with rfl | rfl | rfl
  · show (List.replicate 400 (7 : UInt8)).length ≤ 65534
    rw [List.length_replicate]
    decide
  · show [(1 : UInt8), 2].length ≤ 65534
    decide
  · trivial

end Nrf54Sniffer.Ble
