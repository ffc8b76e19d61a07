/-
Nrf54Sniffer.Link.Reader — `drain` and `reader` of `link.c`: host frames out of
the bytes of the UART.

`SN_MAGIC` and `sn_crc16` come from a submodule and are the parameter
`WireFormat`; the layout of the header is the one `drain` reads. `rx_buf` is
the list of its first `rx_len` bytes. The loop of `drain` is a scanner:
`drainStep` is its body on the bytes from `at` on, waiting where the loop ends
or breaks.
-/
import Nrf54Sniffer.Lib.Scanner
import Nrf54Sniffer.Wire.Fields
import Nrf54Sniffer.Wire.Frame

namespace Nrf54Sniffer.Link

open Nrf54Sniffer.Lib
open Nrf54Sniffer.Wire

/-- `SN_MAGIC` and `sn_crc16`. -/
structure WireFormat where
  magic : UInt16
  crc16 : List UInt8 → UInt16

/-- One call of the frame handler. -/
structure Call where
  type : UInt8
  payload : List UInt8
  deriving DecidableEq, Repr

/-- `sizeof(rx_buf)`. -/
def rxBufSize : Nat := 512

/-- `sizeof(chunk)` in `reader`. -/
def readerChunk : Nat := 64

/-- The field at `p[i]` and `p[i + 1]`. -/
def u16At (p : List UInt8) (i : Nat) : UInt16 := getLe16 (p.getD i 0) (p.getD (i + 1) 0)

/-- The payload length a header announces. -/
def lenField (p : List UInt8) : Nat := (u16At p 6).toNat

/-- The handler call for a frame whose bytes are all there. -/
def callOf (p : List UInt8) : Call := ⟨p.getD 2 0, (p.drop snHeaderLen).take (lenField p)⟩

/-- The body of the loop of `drain`. -/
def drainStep (W : WireFormat) (p : List UInt8) : Option (Nat × Option Call) :=
  if p.length < snHeaderLen then none
  else if u16At p 0 ≠ W.magic then some (1, none)
  else if W.crc16 (p.take 8) ≠ u16At p 8 then some (1, none)
  else if lenField p > snMaxPayload then some (1, none)
  -- the rest is still in flight
  else if p.length < snHeaderLen + lenField p then none
  else some (snHeaderLen + lenField p, some (callOf p))

theorem drainStep_pos {W : WireFormat} {p : List UInt8} {r : Nat × Option Call}
    (h : drainStep W p = some r) : 0 < r.1 ∧ r.1 ≤ p.length := by
  have h10 : snHeaderLen = 10 := rfl
  unfold drainStep at h
  split at h
  · cases h
  · split at h
    · cases h; simp only; omega
    · split at h
      · cases h; simp only; omega
      · split at h
        · cases h; simp only; omega
        · split at h
          · cases h
          · cases h; simp only; omega

theorem getD_append {p : List UInt8} {i : Nat} (q : List UInt8) (h : i < p.length) :
    (p ++ q).getD i 0 = p.getD i 0 := by
  simp only [List.getD_eq_getElem?_getD, List.getElem?_append_left h]

/-- Fields inside the bytes that are there do not change when more come. -/
theorem u16At_append {p : List UInt8} {i : Nat} (q : List UInt8) (h : i + 1 < p.length) :
    u16At (p ++ q) i = u16At p i := by
  unfold u16At
  rw [getD_append q (by omega), getD_append q h]

theorem lenField_append {p : List UInt8} (q : List UInt8) (h : snHeaderLen ≤ p.length) :
    lenField (p ++ q) = lenField p := by
  unfold lenField
  rw [u16At_append q (by simp only [snHeaderLen] at h; omega)]

theorem callOf_append {p : List UInt8} (q : List UInt8) (h : snHeaderLen + lenField p ≤ p.length) :
    callOf (p ++ q) = callOf p := by
  have hlen := lenField_append q (by omega : snHeaderLen ≤ p.length)
  unfold callOf
  rw [hlen, getD_append q (by simp only [snHeaderLen] at h; omega),
    List.drop_append_of_le_length (by omega), List.take_append_of_le_length]
  rw [List.length_drop]
  omega

theorem drainStep_append {W : WireFormat} {p : List UInt8} {r : Nat × Option Call}
    (q : List UInt8) (h : drainStep W p = some r) : drainStep W (p ++ q) = some r := by
  by_cases hshort : p.length < snHeaderLen
  · simp only [drainStep, if_pos hshort] at h
    cases h
  · have h10 : snHeaderLen ≤ p.length := by omega
    have hten : 10 ≤ p.length := h10
    have hlong : ¬(p ++ q).length < snHeaderLen := by rw [List.length_append]; omega
    have htake : (p ++ q).take 8 = p.take 8 := List.take_append_of_le_length (by omega)
    unfold drainStep at h ⊢
    rw [if_neg hshort] at h
    rw [if_neg hlong, u16At_append q (by omega), u16At_append q (by omega), htake,
      lenField_append q h10]
    split at h
    · rw [if_pos (by assumption)]; exact h
    · rw [if_neg (by assumption)]
      split at h
      · rw [if_pos (by assumption)]; exact h
      · rw [if_neg (by assumption)]
        split at h
        · rw [if_pos (by assumption)]; exact h
        · rw [if_neg (by assumption)]
          split at h
          · cases h
          · rw [if_neg (by rw [List.length_append]; omega), callOf_append q (by omega)]
            exact h

/-- The loop of `drain`. -/
def drainScanner (W : WireFormat) : Scanner UInt8 Call where
  next := drainStep W
  next_pos := drainStep_pos
  next_append := drainStep_append

/-- `drain`: the calls it makes, and what it leaves in `rx_buf`. A buffer still
full keeps its last ten bytes. -/
def drain (W : WireFormat) (rx : List UInt8) : List Call × List UInt8 :=
  let (calls, rest) := (drainScanner W).run rx
  (calls, if rest.length = rxBufSize then rest.drop (rxBufSize - snHeaderLen) else rest)

/-- The receive side: `rx_buf` up to `rx_len`, and the handler calls so far. -/
structure Reader where
  rx : List UInt8 := []
  calls : List Call := []
  deriving DecidableEq, Repr

/-- One turn of `reader` with a chunk: what does not fit is lost. -/
def Reader.feed (W : WireFormat) (r : Reader) (chunk : List UInt8) : Reader :=
  let room := rxBufSize - r.rx.length
  let (calls, rx) := drain W (r.rx ++ chunk.take (min chunk.length room))
  ⟨rx, r.calls ++ calls⟩

/-- All the turns. -/
def Reader.feedAll (W : WireFormat) (r : Reader) : List (List UInt8) → Reader
  | [] => r
  | c :: cs => (r.feed W c).feedAll W cs

/-- Chunks `ring_buf_get` can hand the reader. -/
def ReaderChunks (chunks : List (List UInt8)) : Prop :=
  ∀ c ∈ chunks, 1 ≤ c.length ∧ c.length ≤ readerChunk

/-! ## Frames the host sends -/

/-- One host frame: its type, the three header bytes `drain` does not look at
(the sequence number is among them) and its payload. -/
structure HostFrame where
  type : UInt8
  b3 : UInt8
  b4 : UInt8
  b5 : UInt8
  payload : List UInt8
  deriving DecidableEq, Repr

/-- The first eight bytes of a frame. -/
def HostFrame.head (W : WireFormat) (f : HostFrame) : List UInt8 :=
  putLe16 W.magic ++ [f.type, f.b3, f.b4, f.b5] ++ putLe16 (UInt16.ofNat f.payload.length)

/-- A frame on the wire: magic at 0, type at 2, length at 6, the CRC of the
first eight bytes at 8, then the payload. -/
def HostFrame.encode (W : WireFormat) (f : HostFrame) : List UInt8 :=
  f.head W ++ putLe16 (W.crc16 (f.head W)) ++ f.payload

/-- What the handler should be called with. -/
def HostFrame.call (f : HostFrame) : Call := ⟨f.type, f.payload⟩

/-- Encoded frames one after another. -/
def encodeAll (W : WireFormat) (fs : List HostFrame) : List UInt8 := (fs.map (·.encode W)).flatten

/-- Ten bytes that carry the magic and a matching header CRC. -/
def headerAt (W : WireFormat) (p : List UInt8) : Bool :=
  decide (snHeaderLen ≤ p.length) && decide (u16At p 0 = W.magic) &&
    decide (W.crc16 (p.take 8) = u16At p 8)

/-- A header `drain` takes: one that announces no more than a frame can
carry. -/
def validHeader (W : WireFormat) (p : List UInt8) : Bool :=
  headerAt W p && decide (lenField p ≤ snMaxPayload)

end Nrf54Sniffer.Link
