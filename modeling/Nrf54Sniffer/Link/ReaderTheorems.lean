/-
Nrf54Sniffer.Link.ReaderTheorems — the board decodes what the host encodes,
through noise and however the bytes arrive.

`Follows S W lim` says that a scanner does what the loop of `drain` does with
every header that announces a frame of at most `lim` bytes. The lemmas about
frames (`run_frame`, `bounded_frame`) and about bytes where no header starts
(`run_junk`, `run_tail`, `bounded_junk`) hold of every such scanner.

`feedAll_run` is the reason the 512 bytes of `rx_buf` are enough: where a
stream never leaves more than 512 - 64 bytes pending, no chunk is cut and the
overflow rule is never taken, so the reader's calls are those of one scan.
-/
import Nrf54Sniffer.Link.Reader

namespace Nrf54Sniffer.Link

open Nrf54Sniffer.Lib
open Nrf54Sniffer.Wire

variable {W : WireFormat} {S : Scanner UInt8 Call}

/-! ## Headers -/

theorem headerAt_iff {p : List UInt8} :
    headerAt W p = true ↔
      snHeaderLen ≤ p.length ∧ u16At p 0 = W.magic ∧ W.crc16 (p.take 8) = u16At p 8 := by
  simp only [headerAt, Bool.and_eq_true, decide_eq_true_eq, and_assoc]

theorem validHeader_iff {p : List UInt8} :
    validHeader W p = true ↔ headerAt W p = true ∧ lenField p ≤ snMaxPayload := by
  simp only [validHeader, Bool.and_eq_true, decide_eq_true_eq]

/-- Ten bytes decide. -/
theorem validHeader_append {p : List UInt8} (q : List UInt8) (h : snHeaderLen ≤ p.length) :
    validHeader W (p ++ q) = validHeader W p := by
  have hten : 10 ≤ p.length := h
  have hlong : snHeaderLen ≤ (p ++ q).length := by rw [List.length_append]; omega
  have htake : (p ++ q).take 8 = p.take 8 := List.take_append_of_le_length (by omega)
  simp only [validHeader, headerAt, u16At_append q (by omega : 0 + 1 < p.length),
    u16At_append q (by omega : 8 + 1 < p.length), htake, lenField_append q h, h, hlong]

/-- What a scanner that treats headers as the loop of `drain` does, as long as
they announce frames of at most `lim` bytes. -/
structure Follows (S : Scanner UInt8 Call) (W : WireFormat) (lim : Nat) : Prop where
  short : ∀ p, p.length < snHeaderLen → S.next p = none
  skip : ∀ p, snHeaderLen ≤ p.length → validHeader W p = false → S.next p = some (1, none)
  wait : ∀ p, validHeader W p = true → snHeaderLen + lenField p ≤ lim →
    p.length < snHeaderLen + lenField p → S.next p = none
  emit : ∀ p, validHeader W p = true → snHeaderLen + lenField p ≤ lim →
    snHeaderLen + lenField p ≤ p.length →
      S.next p = some (snHeaderLen + lenField p, some (callOf p))

theorem drainStep_skip {p : List UInt8} (hlen : snHeaderLen ≤ p.length)
    (h : validHeader W p = false) : drainStep W p = some (1, none) := by
  unfold drainStep
  rw [if_neg (by omega)]
  split
  · rfl
  · split
    · rfl
    · split
      · rfl
      · rename_i hmagic hcrc hmax
        have hvalid : validHeader W p = true :=
          validHeader_iff.mpr ⟨headerAt_iff.mpr ⟨hlen, Decidable.not_not.mp hmagic,
            Decidable.not_not.mp hcrc⟩, by omega⟩
        rw [hvalid] at h
        cases h

theorem drainStep_valid {p : List UInt8} (h : validHeader W p = true) :
    drainStep W p = if p.length < snHeaderLen + lenField p then none
      else some (snHeaderLen + lenField p, some (callOf p)) := by
  obtain ⟨hhead, hmax⟩ := validHeader_iff.mp h
  obtain ⟨hlen, hmagic, hcrc⟩ := headerAt_iff.mp hhead
  unfold drainStep
  rw [if_neg (by omega), if_neg (by rw [hmagic]; exact fun hne => hne rfl),
    if_neg (by rw [hcrc]; exact fun hne => hne rfl), if_neg (by omega)]

/-- It waits for a header, or for the payload of one it has. -/
theorem drainStep_eq_none_iff {p : List UInt8} :
    drainStep W p = none ↔
      p.length < snHeaderLen ∨
        validHeader W p = true ∧ p.length < snHeaderLen + lenField p := by
  constructor
  · intro h
    by_cases hshort : p.length < snHeaderLen
    · exact .inl hshort
    · cases hvalid : validHeader W p with
      | false =>
          rw [drainStep_skip (by omega) hvalid] at h
          cases h
      | true =>
          rw [drainStep_valid hvalid] at h
          split at h
          · rename_i hlen
            exact .inr ⟨rfl, hlen⟩
          · cases h
  · rintro (hshort | ⟨hvalid, hlen⟩)
    · exact if_pos hshort
    · rw [drainStep_valid hvalid, if_pos hlen]

/-- It passes a byte where no frame starts, or a frame that is all there. -/
theorem drainStep_cases {p : List UInt8} {n : Nat} {out : Option Call}
    (h : drainStep W p = some (n, out)) :
    (snHeaderLen ≤ p.length ∧ validHeader W p = false ∧ n = 1 ∧ out = none) ∨
      (validHeader W p = true ∧ snHeaderLen + lenField p ≤ p.length ∧
        n = snHeaderLen + lenField p ∧ out = some (callOf p)) := by
  by_cases hshort : p.length < snHeaderLen
  · rw [drainStep, if_pos hshort] at h
    cases h
  · cases hvalid : validHeader W p with
    | false =>
        rw [drainStep_skip (by omega) hvalid] at h
        cases h
        exact .inl ⟨by omega, rfl, rfl, rfl⟩
    | true =>
        rw [drainStep_valid hvalid] at h
        split at h
        · cases h
        · rename_i hall
          cases h
          exact .inr ⟨rfl, by omega, rfl, rfl⟩

/-- `drain` always leaves room for another byte. -/
theorem drain_length (xs : List UInt8) (h : xs.length ≤ rxBufSize) :
    (drain W xs).2.length < rxBufSize := by
  have h512 : rxBufSize = 512 := rfl
  have h10 : snHeaderLen = 10 := rfl
  have := (drainScanner W).run_rest_length xs
  simp only [drain]
  split
  · rw [List.length_drop]
    omega
  · omega

theorem drainScanner_follows (W : WireFormat) (lim : Nat) : Follows (drainScanner W) W lim where
  short p h := if_pos h
  skip p hlen h := drainStep_skip hlen h
  wait p h _ hlen := (drainStep_valid h).trans (if_pos hlen)
  emit p h _ hlen := (drainStep_valid h).trans (if_neg (by omega))

/-! ## Frames -/

theorem HostFrame.head_length (f : HostFrame) : (f.head W).length = 8 := rfl

theorem HostFrame.encode_length (f : HostFrame) :
    (f.encode W).length = snHeaderLen + f.payload.length := by
  simp only [HostFrame.encode, List.length_append, putLe16_length, HostFrame.head_length,
    snHeaderLen]

/-- The fields of an encoded frame, whatever follows it. -/
theorem HostFrame.encode_fields (f : HostFrame) (rest : List UInt8)
    (h : f.payload.length ≤ snMaxPayload) :
    lenField (f.encode W ++ rest) = f.payload.length ∧
      validHeader W (f.encode W ++ rest) = true ∧ callOf (f.encode W ++ rest) = f.call := by
  have hbytes : f.encode W ++ rest = f.head W ++ (putLe16 (W.crc16 (f.head W))
      ++ (f.payload ++ rest)) := by
    simp only [HostFrame.encode, List.append_assoc]
  have hlen : lenField (f.encode W ++ rest) = f.payload.length := by
    have hfield : u16At (f.encode W ++ rest) 6 = UInt16.ofNat f.payload.length :=
      getLe16_putLe16 _
    unfold lenField
    rw [hfield, UInt16.toNat_ofNat', Nat.mod_eq_of_lt]
    simp only [snMaxPayload] at h
    omega
  have hmagic : u16At (f.encode W ++ rest) 0 = W.magic := getLe16_putLe16 _
  have hcrc : u16At (f.encode W ++ rest) 8 = W.crc16 (f.head W) := getLe16_putLe16 _
  have htake : (f.encode W ++ rest).take 8 = f.head W := by
    rw [hbytes]
    exact List.take_left' f.head_length
  refine ⟨hlen, ?_, ?_⟩
  · rw [validHeader_iff, headerAt_iff, htake, hcrc, hmagic, hlen, List.length_append,
      HostFrame.encode_length]
    exact ⟨⟨by omega, rfl, rfl⟩, h⟩
  · have hdrop : (f.encode W ++ rest).drop snHeaderLen = f.payload ++ rest := by
      rw [hbytes]
      rfl
    unfold callOf
    rw [hlen, hdrop, List.take_left]
    rfl

/-- The calls for some frames. -/
def calls (fs : List HostFrame) : List Call := fs.map HostFrame.call

/-- A whole frame is consumed and handed over. -/
theorem run_frame {lim : Nat} (hS : Follows S W lim) (f : HostFrame) (rest : List UInt8)
    (hmax : f.payload.length ≤ snMaxPayload) (hlim : snHeaderLen + f.payload.length ≤ lim) :
    S.run (f.encode W ++ rest) = (f.call :: (S.run rest).1, (S.run rest).2) := by
  obtain ⟨hlen, hvalid, hcall⟩ := f.encode_fields rest hmax (W := W)
  have hnext := hS.emit (f.encode W ++ rest) hvalid (by omega)
    (by rw [List.length_append, HostFrame.encode_length]; omega)
  rw [S.run_of_next hnext, hcall, hlen, ← f.encode_length (W := W), List.drop_left]
  rfl

/-- Any number of frames. -/
theorem run_encodeAll {lim : Nat} (hS : Follows S W lim) (fs : List HostFrame)
    (rest : List UInt8) (hlim : lim ≤ snHeaderLen + snMaxPayload)
    (hfs : ∀ f ∈ fs, snHeaderLen + f.payload.length ≤ lim) :
    S.run (encodeAll W fs ++ rest) = (calls fs ++ (S.run rest).1, (S.run rest).2) := by
  induction fs with
  | nil => rfl
  | cons f fs ih =>
      have hf := hfs f (by simp)
      have hbytes : encodeAll W (f :: fs) ++ rest = f.encode W ++ (encodeAll W fs ++ rest) := by
        simp only [encodeAll, List.map_cons, List.flatten_cons, List.append_assoc]
      rw [hbytes, run_frame hS f _ (by omega) hf, ih (fun g hg => hfs g (by simp [hg]))]
      rfl

/-- A frame that is all there keeps the remainder below its own length. -/
theorem bounded_valid {lim B : Nat} (hS : Follows S W lim) {p : List UInt8}
    (hvalid : validHeader W p = true) (hlim : snHeaderLen + lenField p ≤ lim)
    (hB : snHeaderLen + lenField p ≤ B + 1) (hall : snHeaderLen + lenField p ≤ p.length)
    (hrest : S.Bounded B (p.drop (snHeaderLen + lenField p))) : S.Bounded B p := by
  refine Scanner.bounded_of_next (hS.emit p hvalid hlim hall) ?_ hrest
  intro ps qs hsplit hwait
  by_cases hshort : ps.length < snHeaderLen
  · omega
  · -- the prefix has the header, so it waits for bytes of the payload
    have hpvalid : validHeader W ps = true := by
      rw [← validHeader_append qs (by omega), hsplit]
      exact hvalid
    have hplen : lenField ps = lenField p := by
      rw [← lenField_append qs (by omega), hsplit]
    by_cases hwhole : snHeaderLen + lenField ps ≤ ps.length
    · rw [hS.emit ps hpvalid (by omega) hwhole] at hwait
      cases hwait
    · omega

theorem bounded_frame {lim B : Nat} (hS : Follows S W lim) (f : HostFrame) (rest : List UInt8)
    (hmax : f.payload.length ≤ snMaxPayload) (hlim : snHeaderLen + f.payload.length ≤ lim)
    (hB : snHeaderLen + f.payload.length ≤ B + 1) (hrest : S.Bounded B rest) :
    S.Bounded B (f.encode W ++ rest) := by
  obtain ⟨hlen, hvalid, _⟩ := f.encode_fields rest hmax (W := W)
  refine bounded_valid hS hvalid (by omega) (by omega) ?_ ?_
  · rw [List.length_append, HostFrame.encode_length]
    omega
  · rw [hlen, ← f.encode_length (W := W), List.drop_left]
    exact hrest

/-! ## Bytes where no header starts -/

/-- No header starts in `junk`, whatever it runs on into. -/
def Quiet (W : WireFormat) (junk rest : List UInt8) : Prop :=
  ∀ k, k < junk.length → validHeader W ((junk ++ rest).drop k) = false

theorem Quiet.head {c : UInt8} {junk rest : List UInt8} (h : Quiet W (c :: junk) rest) :
    validHeader W (c :: (junk ++ rest)) = false := by
  simpa using h 0 (by simp)

theorem Quiet.tail {c : UInt8} {junk rest : List UInt8} (h : Quiet W (c :: junk) rest) :
    Quiet W junk rest := by
  intro k hk
  simpa using h (k + 1) (by simpa using hk)

/-- In front of at least nine more bytes, junk is skipped. -/
theorem run_junk {lim : Nat} (hS : Follows S W lim) {junk rest : List UInt8}
    (h : Quiet W junk rest) (hrest : snHeaderLen ≤ rest.length + 1) :
    S.run (junk ++ rest) = S.run rest := by
  induction junk with
  | nil => rfl
  | cons c junk ih =>
      have hnext := hS.skip (c :: (junk ++ rest))
        (by rw [List.length_cons, List.length_append]; omega) h.head
      rw [List.cons_append, S.run_of_next hnext]
      exact ih h.tail

/-- At the end of the stream, fewer than ten bytes of junk are left. -/
theorem run_tail {lim : Nat} (hS : Follows S W lim) {junk : List UInt8} (h : Quiet W junk []) :
    (S.run junk).1 = [] ∧ (S.run junk).2.length < snHeaderLen := by
  induction junk with
  | nil =>
      rw [S.run_of_stop (hS.short [] (by decide))]
      exact ⟨rfl, by decide⟩
  | cons c junk ih =>
      by_cases hshort : (c :: junk).length < snHeaderLen
      · rw [S.run_of_stop (hS.short _ hshort)]
        exact ⟨rfl, hshort⟩
      · have hnext := hS.skip (c :: junk) (by omega) (by simpa using h.head)
        rw [S.run_of_next hnext]
        exact ih h.tail

/-- Junk leaves at most nine bytes pending. -/
theorem bounded_junk {lim B : Nat} (hS : Follows S W lim) {junk rest : List UInt8}
    (h : Quiet W junk rest) (hB : snHeaderLen ≤ B + 1) (hrest : S.Bounded B rest) :
    S.Bounded B (junk ++ rest) := by
  induction junk with
  | nil => exact hrest
  | cons c junk ih =>
      rw [List.cons_append]
      by_cases hshort : (c :: (junk ++ rest)).length < snHeaderLen
      · exact Scanner.bounded_of_stop (hS.short _ hshort) (by omega)
      · have hnext := hS.skip (c :: (junk ++ rest)) (by omega) h.head
        refine Scanner.bounded_of_next hnext ?_ (ih h.tail)
        intro ps qs hsplit hwait
        by_cases hps : ps.length < snHeaderLen
        · omega
        · have hinvalid : validHeader W ps = false := by
            rw [← validHeader_append qs (by omega), hsplit]
            exact h.head
          rw [hS.skip ps (by omega) hinvalid] at hwait
          cases hwait

/-! ## The reader -/

/-- The bytes a chunk can always be appended behind. -/
def readerRoom : Nat := rxBufSize - readerChunk

theorem feed_run {r : Reader} {done chunk : List UInt8} {calls : List Call}
    (hr : r = ⟨((drainScanner W).run done).2, calls ++ ((drainScanner W).run done).1⟩)
    (hchunk : chunk.length ≤ readerChunk)
    (hbefore : ((drainScanner W).run done).2.length ≤ readerRoom)
    (hafter : ((drainScanner W).run (done ++ chunk)).2.length ≤ readerRoom) :
    r.feed W chunk = ⟨((drainScanner W).run (done ++ chunk)).2,
      calls ++ ((drainScanner W).run (done ++ chunk)).1⟩ := by
  subst hr
  have hroom : min chunk.length (rxBufSize - ((drainScanner W).run done).2.length)
      = chunk.length := by
    simp only [readerRoom, rxBufSize, readerChunk] at *
    omega
  have happend := (drainScanner W).run_append done chunk
  have hrest : ((drainScanner W).run (((drainScanner W).run done).2 ++ chunk)).2
      = ((drainScanner W).run (done ++ chunk)).2 := by rw [happend]
  have hfull : ¬((drainScanner W).run (done ++ chunk)).2.length = rxBufSize := by
    simp only [readerRoom, rxBufSize, readerChunk] at *
    omega
  simp only [Reader.feed, hroom, List.take_length, drain, hrest, if_neg hfull]
  rw [happend, List.append_assoc]

/-- **Chunks do not matter.** On a stream that never leaves more than
`readerRoom` bytes pending, the reader makes the calls of one scan of it, and
`rx_buf` ends with what that scan leaves. -/
theorem feedAll_run {chunks : List (List UInt8)} (hchunks : ReaderChunks chunks)
    (hb : (drainScanner W).Bounded readerRoom chunks.flatten) :
    Reader.feedAll W {} chunks = ⟨((drainScanner W).run chunks.flatten).2,
      ((drainScanner W).run chunks.flatten).1⟩ := by
  suffices H : ∀ (done : List UInt8) (r : Reader),
      r = ⟨((drainScanner W).run done).2, ((drainScanner W).run done).1⟩ →
      (drainScanner W).Bounded readerRoom (done ++ chunks.flatten) →
      r.feedAll W chunks = ⟨((drainScanner W).run (done ++ chunks.flatten)).2,
        ((drainScanner W).run (done ++ chunks.flatten)).1⟩ from H [] {} rfl hb
  clear hb
  induction chunks with
  | nil =>
      intro done r hr _
      rw [hr, List.flatten_nil, List.append_nil]
      rfl
  | cons c cs ih =>
      intro done r hr hb
      rw [List.flatten_cons] at hb ⊢
      have hfeed := @feed_run W r done c [] hr (hchunks c (by simp)).2
        (hb done (c ++ cs.flatten) rfl) (hb (done ++ c) cs.flatten (by rw [List.append_assoc]))
      have hrest := ih (fun c' hc' => hchunks c' (by simp [hc'])) (done ++ c) (r.feed W c) hfeed
        (by rw [List.append_assoc]; exact hb)
      rw [List.append_assoc] at hrest
      exact hrest

/-! ## Through noise -/

/-- Each frame with the junk in front of it, then the junk at the end. -/
def noisy (W : WireFormat) : List (List UInt8 × HostFrame) → List UInt8 → List UInt8
  | [], last => last
  | (junk, f) :: segs, last => junk ++ (f.encode W ++ noisy W segs last)

/-- No header starts in any of the junk. -/
def NoisyQuiet (W : WireFormat) : List (List UInt8 × HostFrame) → List UInt8 → Prop
  | [], last => Quiet W last []
  | (junk, f) :: segs, last =>
      Quiet W junk (f.encode W ++ noisy W segs last) ∧ NoisyQuiet W segs last

/-- The largest payload whose frame is 512 - 64 + 1 bytes. -/
def maxHostPayload : Nat := 439

theorem run_noisy {lim : Nat} (hS : Follows S W lim) (hlim : 449 ≤ lim)
    (segs : List (List UInt8 × HostFrame)) (last : List UInt8)
    (hsize : ∀ s ∈ segs, s.2.payload.length ≤ maxHostPayload) (hquiet : NoisyQuiet W segs last) :
    (S.run (noisy W segs last)).1 = segs.map (·.2.call) ∧
      (S.run (noisy W segs last)).2.length < snHeaderLen := by
  induction segs with
  | nil => exact run_tail hS hquiet
  | cons s segs ih =>
      obtain ⟨junk, f⟩ := s
      have hf : f.payload.length ≤ 439 := hsize (junk, f) (by simp)
      have h10 : snHeaderLen = 10 := rfl
      have hmax : snMaxPayload = 4096 := rfl
      obtain ⟨hcalls, hrest⟩ := ih (fun s hs => hsize s (by simp [hs])) hquiet.2
      have hlong : snHeaderLen ≤ (f.encode W ++ noisy W segs last).length + 1 := by
        rw [List.length_append, HostFrame.encode_length]
        omega
      simp only [noisy, run_junk hS hquiet.1 hlong, run_frame hS f _ (by omega) (by omega), hcalls,
        List.map_cons, hrest, and_self]

theorem bounded_noisy (segs : List (List UInt8 × HostFrame)) (last : List UInt8)
    (hsize : ∀ s ∈ segs, s.2.payload.length ≤ maxHostPayload) (hquiet : NoisyQuiet W segs last) :
    (drainScanner W).Bounded readerRoom (noisy W segs last) := by
  have hS := drainScanner_follows W 449
  have hroom : readerRoom = 448 := rfl
  have h10 : snHeaderLen = 10 := rfl
  have hmax : snMaxPayload = 4096 := rfl
  induction segs with
  | nil =>
      have hnil : (drainScanner W).Bounded readerRoom [] :=
        Scanner.bounded_of_stop (hS.short [] (by decide)) (by simp)
      have hq : Quiet W last [] := hquiet
      have := bounded_junk hS hq (by omega) hnil
      rwa [List.append_nil] at this
  | cons s segs ih =>
      obtain ⟨junk, f⟩ := s
      have hf : f.payload.length ≤ 439 := hsize (junk, f) (by simp)
      have hrest := ih (fun s hs => hsize s (by simp [hs])) hquiet.2
      exact bounded_junk hS hquiet.1 (by omega)
        (bounded_frame hS f _ (by omega) (by omega) (by omega) hrest)

/-- **The board decodes what the host encodes.** Frames of at most 449 bytes
with any junk around them in which no header starts, cut into chunks of 1 to 64
bytes in any way: the handler is called once for each frame, in order, with its
type and payload, and for nothing else, and fewer than ten bytes are left. -/
theorem drain_undoes_encode (W : WireFormat) (segs : List (List UInt8 × HostFrame))
    (last : List UInt8) (chunks : List (List UInt8))
    (hsize : ∀ s ∈ segs, s.2.payload.length ≤ 439)
    (hquiet : NoisyQuiet W segs last)
    (hchunks : ReaderChunks chunks) (hpart : chunks.flatten = noisy W segs last) :
    (Reader.feedAll W {} chunks).calls = segs.map (·.2.call) ∧
      (Reader.feedAll W {} chunks).rx.length < snHeaderLen := by
  have hrun := feedAll_run (W := W) hchunks (by rw [hpart]; exact bounded_noisy segs last hsize hquiet)
  rw [hrun, hpart]
  exact run_noisy (drainScanner_follows W 449) (Nat.le_refl _) segs last hsize hquiet

instance (junk rest : List UInt8) : Decidable (Quiet W junk rest) :=
  inferInstanceAs (Decidable (∀ k, k < junk.length → _))

/-- One bit of CRC-16/CCITT. -/
def crcBit (crc : UInt16) : UInt16 :=
  if crc &&& 0x8000 = 0 then crc <<< 1 else (crc <<< 1) ^^^ 0x1021

/-- CRC-16/CCITT, most significant bit first, from 0xFFFF. -/
def crc16Ccitt (bytes : List UInt8) : UInt16 :=
  bytes.foldl (fun (crc : UInt16) (b : UInt8) =>
    (List.range 8).foldl (fun c _ => crcBit c) (crc ^^^ (b.toUInt16 <<< 8))) 0xFFFF

/-- A wire format with that CRC. -/
def ccittFormat : WireFormat := ⟨0x5AA5, crc16Ccitt⟩

/-- Two commands with junk around them, in three chunks that cut a header and a
payload. -/
theorem drain_undoes_encode_two_commands :
    let f : HostFrame := ⟨3, 0, 7, 0, [1, 2, 3, 4, 5]⟩
    let g : HostFrame := ⟨3, 0, 8, 0, [9]⟩
    let segs := [([0xA5, 0xA5], f), ([], g)]
    let bytes := noisy ccittFormat segs [0xA5, 0x5A]
    let chunks := [bytes.take 5, (bytes.drop 5).take 9, bytes.drop 14]
    (Reader.feedAll ccittFormat {} chunks).calls = segs.map (·.2.call) ∧
      (Reader.feedAll ccittFormat {} chunks).rx.length < snHeaderLen := by
  intro f g segs bytes chunks
  refine drain_undoes_encode ccittFormat segs [0xA5, 0x5A] chunks (by decide) ?_ ?_ ?_
  · show Quiet _ _ _ ∧ Quiet _ _ _ ∧ Quiet _ _ _
    decide +kernel
  · show ∀ c ∈ chunks, 1 ≤ c.length ∧ c.length ≤ readerChunk
    decide +kernel
  · decide +kernel

end Nrf54Sniffer.Link
