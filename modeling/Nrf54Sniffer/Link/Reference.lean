/-
Nrf54Sniffer.Link.Reference — the reader against a parser of the whole stream.

`Parses` is the parser, a rule for each thing a stream can start with: a frame
as the host encodes it, the beginning of a frame whose end never comes, fewer
bytes than a header, or a byte to skip. It knows of no buffer and of no chunk.

A scan follows exactly these rules (`parses_iff_run`). Where no header announces
a frame that would have to wait past `readerRoom` bytes, a scan never leaves
more than that pending (`bounded_of_announces`), and `feedAll_run` applies.
-/
import Nrf54Sniffer.Link.ReaderTheorems

namespace Nrf54Sniffer.Link

open Nrf54Sniffer.Lib
open Nrf54Sniffer.Wire

variable {W : WireFormat}

/-! ## The parser -/

/-- The stream parses as these calls, with these bytes left over. -/
inductive Parses (W : WireFormat) : List UInt8 → List Call → List UInt8 → Prop where
  | short {bytes : List UInt8} (h : bytes.length < 10) : Parses W bytes [] bytes
  /-- No header starts here, or one that announces more than a frame carries. -/
  | skip {b : UInt8} {bytes rest : List UInt8} {calls : List Call}
      (hlen : 10 ≤ (b :: bytes).length) (hno : validHeader W (b :: bytes) = false)
      (h : Parses W bytes calls rest) : Parses W (b :: bytes) calls rest
  /-- The rest of the frame has not come. -/
  | pending {bytes : List UInt8} (f : HostFrame) (missing : List UInt8)
      (hmax : f.payload.length ≤ 4096) (hframe : bytes ++ missing = f.encode W)
      (hlen : 10 ≤ bytes.length) (hmiss : missing ≠ []) : Parses W bytes [] bytes
  | frame (f : HostFrame) {bytes rest : List UInt8} {calls : List Call}
      (hmax : f.payload.length ≤ 4096) (h : Parses W bytes calls rest) :
      Parses W (f.encode W ++ bytes) (f.call :: calls) rest

/-- Every header a stream holds announces at most what a pending frame may have,
or more than a frame can. -/
def Announces (W : WireFormat) (stream : List UInt8) : Prop :=
  ∀ k, headerAt W (stream.drop k) = true →
    lenField (stream.drop k) ≤ 439 ∨ snMaxPayload < lenField (stream.drop k)

/-! ## A scan follows it -/

/-- A header, whatever payload of its length is to follow, starts a frame. -/
theorem encode_of_valid {p payload : List UInt8} (h : validHeader W p = true)
    (hpayload : payload.length = lenField p) :
    (⟨p.getD 2 0, p.getD 3 0, p.getD 4 0, p.getD 5 0, payload⟩ : HostFrame).encode W
      = p.take snHeaderLen ++ payload := by
  obtain ⟨hlen, hmagic, hcrc⟩ := headerAt_iff.mp (validHeader_iff.mp h).1
  match p, hlen with
  | b0 :: b1 :: b2 :: b3 :: b4 :: b5 :: b6 :: b7 :: b8 :: b9 :: rest, _ =>
      have hmagic' : putLe16 W.magic = [b0, b1] := by
        rw [← hmagic]
        exact putLe16_getLe16 b0 b1
      have hfield : putLe16 (UInt16.ofNat payload.length) = [b6, b7] := by
        rw [hpayload, lenField, UInt16.ofNat_toNat]
        exact putLe16_getLe16 b6 b7
      have hhead : HostFrame.head W ⟨b2, b3, b4, b5, payload⟩ = [b0, b1, b2, b3, b4, b5, b6, b7] := by
        rw [HostFrame.head, hmagic', hfield]
        rfl
      have hcrc' : putLe16 (W.crc16 [b0, b1, b2, b3, b4, b5, b6, b7]) = [b8, b9] := by
        have hcrc8 : W.crc16 [b0, b1, b2, b3, b4, b5, b6, b7] = getLe16 b8 b9 := hcrc
        rw [hcrc8]
        exact putLe16_getLe16 b8 b9
      show HostFrame.encode W ⟨b2, b3, b4, b5, payload⟩ = _
      rw [HostFrame.encode, hhead, hcrc']
      rfl

/-- The frame a header announces, with what is there of its payload. -/
def frameAt (p payload : List UInt8) : HostFrame :=
  ⟨p.getD 2 0, p.getD 3 0, p.getD 4 0, p.getD 5 0, payload⟩

/-- Any bytes do for those of a payload that are missing. -/
theorem parses_pending {p : List UInt8} (hvalid : validHeader W p = true)
    (hlen : p.length < snHeaderLen + lenField p) : Parses W p [] p := by
  have h10 : snHeaderLen = 10 := rfl
  have h4096 : snMaxPayload = 4096 := rfl
  obtain ⟨hhead, hmax⟩ := validHeader_iff.mp hvalid
  have hten := (headerAt_iff.mp hhead).1
  let missing := List.replicate (snHeaderLen + lenField p - p.length) (0 : UInt8)
  let payload := p.drop snHeaderLen ++ missing
  have hpayload : payload.length = lenField p := by
    simp only [payload, missing, List.length_append, List.length_drop, List.length_replicate]
    omega
  refine .pending (frameAt p payload) missing ?_ ?_ hten ?_
  · show payload.length ≤ 4096
    omega
  · rw [frameAt, encode_of_valid hvalid hpayload]
    simp only [payload]
    rw [← List.append_assoc, List.take_append_drop]
  · intro hnil
    have := congrArg List.length hnil
    simp only [missing, List.length_replicate, List.length_nil] at this
    omega

theorem parses_frame {p rest : List UInt8} {calls : List Call} (hvalid : validHeader W p = true)
    (hall : snHeaderLen + lenField p ≤ p.length)
    (h : Parses W (p.drop (snHeaderLen + lenField p)) calls rest) :
    Parses W p (callOf p :: calls) rest := by
  have h4096 : snMaxPayload = 4096 := rfl
  have hpayload : ((p.drop snHeaderLen).take (lenField p)).length = lenField p := by
    rw [List.length_take, List.length_drop]
    omega
  have hbytes : p = (frameAt p ((p.drop snHeaderLen).take (lenField p))).encode W ++
      p.drop (snHeaderLen + lenField p) := by
    rw [frameAt, encode_of_valid hvalid hpayload, ← List.drop_drop, List.append_assoc,
      List.take_append_drop, List.take_append_drop]
  have hmax : ((p.drop snHeaderLen).take (lenField p)).length ≤ 4096 := by
    have := (validHeader_iff.mp hvalid).2
    omega
  have hframe := Parses.frame (W := W) (frameAt p _) hmax h
  rw [← hbytes] at hframe
  exact hframe

/-- A scan follows the rules. -/
theorem parses_run (W : WireFormat) (stream : List UInt8) :
    Parses W stream ((drainScanner W).run stream).1 ((drainScanner W).run stream).2 := by
  induction stream using (drainScanner W).induction with
  | stop p hnext =>
      rw [(drainScanner W).run_of_stop hnext]
      rcases drainStep_eq_none_iff.mp hnext with hshort | ⟨hvalid, hlen⟩
      · exact .short hshort
      · exact parses_pending hvalid hlen
  | step p n out hnext ih =>
      rw [(drainScanner W).run_of_next hnext]
      rcases drainStep_cases hnext with ⟨hten, hno, rfl, rfl⟩ | ⟨hvalid, hall, rfl, rfl⟩
      · cases p with
        | nil => cases hten
        | cons b bytes => exact .skip hten hno ih
      · exact parses_frame hvalid hall ih

/-- The rules leave a scan no choice. -/
theorem Parses.run {stream rest : List UInt8} {calls : List Call} (h : Parses W stream calls rest) :
    (drainScanner W).run stream = (calls, rest) := by
  have h10 : snHeaderLen = 10 := rfl
  have hS := drainScanner_follows W (snHeaderLen + snMaxPayload)
  induction h with
  | short hshort => exact (drainScanner W).run_of_stop (hS.short _ hshort)
  | skip hlen hno _ ih =>
      rw [(drainScanner W).run_of_next (hS.skip _ hlen hno)]
      exact ih
  | @pending bytes f missing hmax hframe hlen hmiss =>
      obtain ⟨hfield, hvalid, _⟩ := f.encode_fields [] hmax (W := W)
      have hpos : 0 < missing.length := List.length_pos_iff.mpr hmiss
      have hsize := congrArg List.length hframe
      rw [List.length_append, HostFrame.encode_length] at hsize
      rw [List.append_nil, ← hframe] at hfield hvalid
      rw [lenField_append missing hlen] at hfield
      rw [validHeader_append missing hlen] at hvalid
      refine (drainScanner W).run_of_stop (hS.wait _ hvalid ?_ ?_)
      · have := (validHeader_iff.mp hvalid).2
        omega
      · omega
  | frame f hmax _ ih =>
      have hmax' : f.payload.length ≤ snMaxPayload := hmax
      rw [run_frame hS f _ hmax' (by omega), ih]

/-- The parser has one answer, a scan's. -/
theorem parses_iff_run {stream rest : List UInt8} {calls : List Call} :
    Parses W stream calls rest ↔ (drainScanner W).run stream = (calls, rest) := by
  constructor
  · exact Parses.run
  · intro h
    have hparses := parses_run W stream
    rw [h] at hparses
    exact hparses

/-! ## However the bytes come -/

/-- What waits is a part of the stream with no whole frame in it. -/
theorem bounded_of_announces {stream : List UInt8} (h : Announces W stream) :
    (drainScanner W).Bounded readerRoom stream := by
  have h10 : snHeaderLen = 10 := rfl
  have hroom : readerRoom = 448 := rfl
  intro ps qs hsplit
  obtain ⟨k, hk⟩ := (drainScanner W).run_rest_drop ps
  have hstop : drainStep W ((drainScanner W).run ps).2 = none := (drainScanner W).run_rest_stop ps
  rw [hk] at hstop ⊢
  rcases drainStep_eq_none_iff.mp hstop with hshort | ⟨hvalid, hlen⟩
  · omega
  · obtain ⟨hhead, hmax⟩ := validHeader_iff.mp hvalid
    obtain ⟨hten, hmagic, hcrc⟩ := headerAt_iff.mp hhead
    -- the same header stands in the stream
    have hdrop : stream.drop k = ps.drop k ++ qs := by
      rw [← hsplit, List.drop_append_of_le_length]
      rw [List.length_drop] at hten
      omega
    have hhead' : headerAt W (stream.drop k) = true := by
      have hvalid' : validHeader W (stream.drop k) = true := by
        rw [hdrop, validHeader_append qs hten]
        exact hvalid
      exact (validHeader_iff.mp hvalid').1
    have hfield : lenField (stream.drop k) = lenField (ps.drop k) := by
      rw [hdrop, lenField_append qs hten]
    rcases h k hhead' with hsmall | hlarge
    · omega
    · omega

/-- **The reader is the parser of the whole stream.** Where every header in the
stream, a phantom one too, announces at most 439 bytes or more than a frame can
carry, the handler calls and what is left in `rx_buf` are the parser's, however
the stream is cut into chunks of 1 to 64 bytes. -/
theorem reader_parses (W : WireFormat) {stream : List UInt8} {chunks : List (List UInt8)}
    (hannounces : Announces W stream) (hchunks : ReaderChunks chunks)
    (hpart : chunks.flatten = stream) (calls : List Call) (rest : List UInt8) :
    Reader.feedAll W {} chunks = ⟨rest, calls⟩ ↔ Parses W stream calls rest := by
  subst hpart
  rw [feedAll_run hchunks (bounded_of_announces hannounces), parses_iff_run, Reader.mk.injEq,
    Prod.ext_iff]
  exact And.comm

instance (stream : List UInt8) : Decidable (Announces W stream) :=
  decidable_of_iff (∀ k, k < stream.length → headerAt W (stream.drop k) = true →
      lenField (stream.drop k) ≤ 439 ∨ snMaxPayload < lenField (stream.drop k)) <| by
    constructor
    · intro h k hhead
      have hlen := (headerAt_iff.mp hhead).1
      rw [List.length_drop] at hlen
      have h10 : snHeaderLen = 10 := rfl
      exact h k (by omega) hhead
    · intro h k _
      exact h k

/-- A header that announces 5000 bytes. -/
def tooLong : List UInt8 :=
  let head := putLe16 ccittFormat.magic ++ [9, 0, 0, 0] ++ putLe16 5000
  head ++ putLe16 (crc16Ccitt head)

/-- A stray byte and that header, a command, and a command cut off, a byte at a
time. -/
theorem reader_parses_bytewise :
    let f : HostFrame := ⟨3, 0, 7, 0, [1, 2]⟩
    let cut := (f.encode ccittFormat).take 11
    let stream := [0xA5] ++ tooLong ++ f.encode ccittFormat ++ cut
    Reader.feedAll ccittFormat {} (stream.map fun b => [b]) = ⟨cut, [f.call]⟩ ∧
      Parses ccittFormat stream [f.call] cut := by
  intro f cut stream
  have hfeed : Reader.feedAll ccittFormat {} (stream.map fun b => [b]) = ⟨cut, [f.call]⟩ := by
    decide +kernel
  refine ⟨hfeed, (reader_parses ccittFormat ?_ ?_ ?_ _ _).mp hfeed⟩
  · decide +kernel
  · show ∀ c ∈ stream.map fun b => [b], 1 ≤ c.length ∧ c.length ≤ readerChunk
    decide +kernel
  · decide +kernel

end Nrf54Sniffer.Link
