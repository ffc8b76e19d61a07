/-
Nrf54Sniffer.Link.HostView — what a host has read when part of the bytes has
come.

The host's parser resynchronises as `drain` does, by magic and header CRC, so
`Parses` is the host's too. `FrameCoding` is what `shared/frame.h` fixes beside
the places of the fields: the number of each type, and the three bytes between
the type and the length, the sequence number among them. `sn_frame_encode` is of
the same submodule; `Encodes` is what is relied on of it.

Whatever the transmit thread has put on the wire parses as the first frames
accepted, whole, and the beginning of the next one (`Encodes.parses`): no
frame is read that was not accepted, none is skipped, and what is missing is
what the ring still holds.
-/
import Nrf54Sniffer.Link.Reference
import Nrf54Sniffer.Link.TransmitTheorems

namespace Nrf54Sniffer.Link

open Nrf54Sniffer.Lib
open Nrf54Sniffer.Wire

variable {W : WireFormat}

/-! ## The board's frames -/

/-- The types this firmware sends. -/
def sentTypes : List FrameType :=
  [.heartbeat, .packet, .packetBatch, .bleBatch, .log, .stats, .link, .controlReply]

/-- The numbers of the types, how the host reads them back, and the bytes at 3,
4 and 5 of a header. -/
structure FrameCoding where
  code : FrameType → UInt8
  type : UInt8 → FrameType
  marks : UInt16 → UInt8 × UInt8 × UInt8
  type_code : ∀ t ∈ sentTypes, type (code t) = t

namespace FrameCoding

variable (C : FrameCoding)

/-- A frame with its sequence number, on the wire. -/
def frame (f : Frame) (seq : UInt16) : HostFrame :=
  ⟨C.code f.type, (C.marks seq).1, (C.marks seq).2.1, (C.marks seq).2.2, f.payload⟩

/-- What a parser makes of it. -/
def call (f : Frame) : Call := ⟨C.code f.type, f.payload⟩

/-- And the frame a host takes it for. -/
def read (c : Call) : Frame := ⟨C.type c.type, c.payload⟩

theorem read_call {f : Frame} (h : f.type ∈ sentTypes) : C.read (C.call f) = f := by
  simp only [read, call, C.type_code f.type h]

end FrameCoding

/-- What `sn_frame_encode` does, into a buffer with room for a whole frame: it
lays a frame out, and refuses a payload longer than `SN_MAX_PAYLOAD`. -/
structure Encodes (W : WireFormat) (C : FrameCoding) (encode : Encode) : Prop where
  fits : ∀ (f : Frame) (seq : UInt16), f.payload.length ≤ snMaxPayload →
    encode f.type seq f.payload = (C.frame f seq).encode W
  long : ∀ (f : Frame) (seq : UInt16), snMaxPayload < f.payload.length →
    encode f.type seq f.payload = []

variable {C : FrameCoding} {encode : Encode}

/-- The frames a host has read. -/
def hostReads (W : WireFormat) (C : FrameCoding) (bytes : List UInt8) : List Frame :=
  ((drainScanner W).run bytes).1.map C.read

/-! ## What was accepted can be encoded -/

/-- No frame longer than a frame can be is past the size test. -/
structure Fits (s : State) : Prop where
  accepted : ∀ f ∈ s.accepted, f.payload.length ≤ snMaxPayload
  sender : ∀ f bytes, s.sender = .accepted f bytes → f.payload.length ≤ snMaxPayload

theorem fits_initial : Fits {} where
  accepted := by simp
  sender := by simp

/-- What encodes to nothing is refused. -/
theorem Encodes.sendTest_fits (hencode : Encodes W C encode) {l : Tx} {f : Frame}
    (h : sendTest encode l f = .accept) : f.payload.length ≤ snMaxPayload := by
  refine Decidable.byContradiction fun hlong => ?_
  have hempty : l.encoded encode f = [] := hencode.long f _ (Nat.lt_of_not_le hlong)
  simp [sendTest, hempty] at h

theorem Encodes.step_fits (hencode : Encodes W C encode) (s : State) (l : Label) (t : State)
    (h : Fits s) (hstep : step encode s l = some t) : Fits t := by
  cases step_takes hstep with
  | accept _ ht =>
      refine ⟨h.accepted, fun g bytes hg => ?_⟩
      cases hg
      exact hencode.sendTest_fits ht
  | @put f bytes hs =>
      refine ⟨fun g hg => ?_, by simp⟩
      rcases List.mem_append.mp hg with hg | hg
      · exact h.accepted g hg
      · rw [List.mem_singleton.mp hg]
        exact h.sender f bytes hs
  | measure _ => exact ⟨h.accepted, by simp⟩
  | _ => exact ⟨h.accepted, h.sender⟩

theorem Encodes.run_fits (hencode : Encodes W C encode) {t : State} {ls : List Label}
    (hrun : (machine encode).run {} ls = some t) : Fits t :=
  (machine encode).run_invariant hencode.step_fits fits_initial hrun

/-! ## Part of the bytes -/

/-- Fewer bytes than the next frame has are waited on. -/
theorem parses_partial {f : HostFrame} {wire more rest : List UInt8}
    (hmax : f.payload.length ≤ snMaxPayload) (h : wire ++ more = f.encode W ++ rest)
    (hshort : wire.length < (f.encode W).length) : Parses W wire [] wire := by
  have hprefix : wire <+: f.encode W :=
    List.prefix_of_prefix_length_le ⟨more, h⟩ (List.prefix_append _ _) (Nat.le_of_lt hshort)
  obtain ⟨missing, hframe⟩ := hprefix
  by_cases hten : wire.length < 10
  · exact .short hten
  · refine .pending f missing hmax hframe (by omega) fun hnil => ?_
    rw [hnil, List.append_nil] at hframe
    rw [hframe] at hshort
    exact Nat.lt_irrefl _ hshort

/-- **Part of the encodings parses as the first frames**, and the beginning of
the next one is left. -/
theorem Encodes.parses (hencode : Encodes W C encode) {fs : List Frame}
    {wire unsent : List UInt8} (hfits : ∀ f ∈ fs, f.payload.length ≤ snMaxPayload) {k : Nat}
    (h : wire ++ unsent = encodings encode k fs) :
    ∃ n rest, n ≤ fs.length ∧ Parses W wire ((fs.take n).map C.call) rest ∧
      rest ++ unsent = encodings encode (k + n) (fs.drop n) ∧
      ∀ f, fs[n]? = some f → rest.length < snHeaderLen + f.payload.length := by
  induction fs generalizing wire k with
  | nil =>
      obtain ⟨rfl, rfl⟩ := List.append_eq_nil_iff.mp h
      exact ⟨0, [], Nat.le_refl 0, .short (by decide), rfl, by simp⟩
  | cons f fs ih =>
      have hf := hfits f (by simp)
      have hlen : ((C.frame f (UInt16.ofNat k)).encode W).length = snHeaderLen + f.payload.length :=
        HostFrame.encode_length _
      have hbytes := h
      rw [encodings, hencode.fits f _ hf] at hbytes
      by_cases hshort : wire.length < ((C.frame f (UInt16.ofNat k)).encode W).length
      · refine ⟨0, wire, Nat.zero_le _, parses_partial hf hbytes hshort, h, fun g hg => ?_⟩
        cases hg
        omega
      · -- the whole frame has come
        have hwhole : (C.frame f (UInt16.ofNat k)).encode W <+: wire :=
          List.prefix_of_prefix_length_le (List.prefix_append _ _) ⟨unsent, hbytes⟩ (by omega)
        obtain ⟨more, rfl⟩ := hwhole
        rw [List.append_assoc] at hbytes
        obtain ⟨n, rest, hle, hparses, hrest, hnext⟩ :=
          ih (fun g hg => hfits g (by simp [hg])) (List.append_cancel_left hbytes)
        refine ⟨n + 1, rest, Nat.succ_le_succ hle, .frame _ hf hparses, ?_, hnext⟩
        rw [hrest, List.drop_succ_cons, Nat.add_assoc, Nat.add_comm 1 n]

/-- With nothing left to come, every frame has been read. -/
theorem Encodes.parsed_all (hencode : Encodes W C encode) {fs : List Frame} {rest : List UInt8}
    {n : Nat} (hfits : ∀ f ∈ fs, f.payload.length ≤ snMaxPayload) (hle : n ≤ fs.length)
    (hrest : rest = encodings encode n (fs.drop n))
    (hnext : ∀ f, fs[n]? = some f → rest.length < snHeaderLen + f.payload.length) :
    n = fs.length := by
  refine Decidable.byContradiction fun hne => ?_
  have hlt : n < fs.length := by omega
  have hshort := hnext fs[n] (List.getElem?_eq_getElem hlt)
  have hlen := congrArg List.length hrest
  rw [List.drop_eq_getElem_cons hlt, encodings,
    hencode.fits _ _ (hfits fs[n] (List.getElem_mem hlt)), List.length_append,
    HostFrame.encode_length] at hlen
  have hsame : (C.frame fs[n] (UInt16.ofNat n)).payload = fs[n].payload := rfl
  rw [hsame] at hlen
  omega

/-! ## Every run -/

/-- The ring holds all that is not sent. -/
theorem unsent_length (s : State) : s.unsent.length ≤ txRingSize := by
  have hsize := s.link.txRing.size_le
  unfold State.unsent
  split
  · simp only [List.length_drop, ClaimRing.content, List.length_append]
    omega
  · omega
  · simp only [ClaimRing.content, List.length_append]
    omega

/-- **The host reads what was accepted.** At any moment of any interleaving of
calls, transmit thread and DMA, the bytes on the wire parse as the first frames
accepted, each with its type and payload, and a beginning of the next one;
what the host lacks is in the ring, at most 8192 bytes, and when nothing is
left there it has read every frame. -/
theorem host_reads_accepted (W : WireFormat) (C : FrameCoding) (encode : Encode)
    (hencode : Encodes W C encode) (ls : List Label) (t : State)
    (hrun : (machine encode).run {} ls = some t) :
    ∃ n rest, Parses W t.wire ((t.accepted.take n).map C.call) rest ∧
      rest ++ t.unsent = encodings encode n (t.accepted.drop n) ∧
      (∀ f, t.accepted[n]? = some f → rest.length < snHeaderLen + f.payload.length) ∧
      t.unsent.length ≤ 8192 ∧ (t.unsent = [] → n = t.accepted.length ∧ rest = []) := by
  have hinv := run_inv hrun
  have hfits := (hencode.run_fits hrun).accepted
  obtain ⟨n, rest, hle, hparses, hrest, hnext⟩ := hencode.parses hfits hinv.wire
  rw [Nat.zero_add] at hrest
  refine ⟨n, rest, hparses, hrest, hnext, unsent_length t, fun hempty => ?_⟩
  rw [hempty, List.append_nil] at hrest
  have hall := hencode.parsed_all hfits hle hrest hnext
  refine ⟨hall, ?_⟩
  rw [hrest, hall, List.drop_length]
  rfl

/-- A coding with the sequence number at 4. -/
def plainCoding : FrameCoding where
  code
    | .heartbeat => 1
    | .packet => 2
    | .packetBatch => 3
    | .bleBatch => 4
    | .log => 5
    | .stats => 6
    | .link => 7
    | .controlReply => 8
    | .controlCmd => 9
    | .bleFilter => 10
    | .bleKeys => 11
    | .other code => code
  type
    | 1 => .heartbeat
    | 2 => .packet
    | 3 => .packetBatch
    | 4 => .bleBatch
    | 5 => .log
    | 6 => .stats
    | 7 => .link
    | 8 => .controlReply
    | 9 => .controlCmd
    | 10 => .bleFilter
    | 11 => .bleKeys
    | code => .other code
  marks seq := (0, seq.toUInt8, (seq >>> 8).toUInt8)
  type_code := by decide

/-- An encoder that does so. -/
def plainEncode (W : WireFormat) (C : FrameCoding) : Encode := fun type seq payload =>
  if payload.length ≤ snMaxPayload then (C.frame ⟨type, payload⟩ seq).encode W else []

theorem plainEncode_encodes (W : WireFormat) (C : FrameCoding) :
    Encodes W C (plainEncode W C) where
  fits _ _ h := if_pos h
  long _ _ h := if_neg (Nat.not_le_of_lt h)

/-- Two frames accepted, and twelve bytes sent: a whole frame and the first byte
of the next. -/
theorem host_reads_accepted_twelve :
    let encode := plainEncode ccittFormat plainCoding
    let ls : List Label :=
      [.send ⟨.log, [7]⟩, .put, .measure, .send ⟨.packet, [8, 9]⟩, .put, .measure, .claim 12,
       .takeDone, .uartOk] ++ List.replicate 12 .dmaByte
    ∃ t, (machine encode).run {} ls = some t ∧
      hostReads ccittFormat plainCoding t.wire = [⟨.log, [7]⟩] ∧
      ∃ n rest, Parses ccittFormat t.wire ((t.accepted.take n).map plainCoding.call) rest ∧
        rest ++ t.unsent = encodings encode n (t.accepted.drop n) := by
  intro encode ls
  have hruns : ((machine encode).run {} ls).any (fun t =>
      hostReads ccittFormat plainCoding t.wire == [⟨.log, [7]⟩]) = true := by decide +kernel
  obtain ⟨t, ht, hreads⟩ := (Option.any_eq_true _ _).mp hruns
  obtain ⟨n, rest, hparses, hrest, _⟩ :=
    host_reads_accepted ccittFormat plainCoding encode (plainEncode_encodes _ _) ls t ht
  exact ⟨t, ht, beq_iff_eq.mp hreads, n, rest, hparses, hrest⟩

end Nrf54Sniffer.Link
