/-
Nrf54Sniffer.Link.LostByteTheorems — exactly when one lost byte costs one
frame.

The deletion only makes new windows around itself (`header_near`): a header in
the damaged frame starts at its first byte, or within ten bytes of the
deletion. So at most one header is left, and behind its frame nothing starts
until the next frame that begins there (`quiet_after`, `run_encodeAll_drop`).
The rest is counting calls.
-/
import Nrf54Sniffer.Link.LostByte

namespace Nrf54Sniffer.Link

open Nrf54Sniffer.Lib
open Nrf54Sniffer.Wire

variable {W : WireFormat} {S : Scanner UInt8 Call}

/-! ## Windows around the deletion -/

/-- The bytes around byte `j`. -/
theorem erase_split {E : List UInt8} {j : Nat} (hj : j < E.length) :
    ∃ A b B, E = A ++ b :: B ∧ A.length = j ∧ E.eraseIdx j = A ++ B := by
  refine ⟨E.take j, E[j], E.drop (j + 1), ?_, ?_, List.eraseIdx_eq_take_drop_succ E j⟩
  · rw [← List.drop_eq_getElem_cons hj, List.take_append_drop]
  · rw [List.length_take]
    omega

/-- Past the deletion every window is one of the stream as it was sent. -/
theorem drop_past_deletion {A B rest : List UInt8} (b : UInt8) {m : Nat} (hm : A.length ≤ m) :
    (A ++ B ++ rest).drop m = (A ++ b :: B ++ rest).drop (m + 1) := by
  obtain ⟨i, rfl⟩ : ∃ i, m = A.length + i := ⟨m - A.length, by omega⟩
  have hr : (A ++ b :: B ++ rest).drop (A.length + i + 1) = (b :: (B ++ rest)).drop (i + 1) := by
    rw [List.append_assoc, Nat.add_assoc, ← List.drop_drop, List.drop_left, List.cons_append]
  rw [hr, List.append_assoc, ← List.drop_drop, List.drop_left, List.drop_succ_cons]

section Damage

variable {f : HostFrame} {post : List HostFrame} {A B : List UInt8} {b : UInt8}

/-- A header in the damaged frame starts before the deletion, at the first byte
or less than ten bytes away. -/
theorem header_near (hclean : Clean W (f :: post)) (hE : f.encode W = A ++ b :: B) {k : Nat}
    (hk : k < (A ++ B).length)
    (hvalid : validHeader W ((A ++ B ++ encodeAll W post).drop k) = true) :
    k < A.length ∧ (k = 0 ∨ A.length < k + snHeaderLen) := by
  have hlen : (f.encode W).length = (A ++ B).length + 1 := by
    rw [hE]
    simp only [List.length_append, List.length_cons]
    omega
  have hkA : k < A.length := by
    rcases Nat.lt_or_ge k A.length with h | h
    · exact h
    · rw [drop_past_deletion b h, ← hE,
        validHeader_of_headerAt (hclean.1 (k + 1) (Nat.succ_pos k) (by omega))] at hvalid
      cases hvalid
  refine ⟨hkA, ?_⟩
  rcases Nat.eq_zero_or_pos k with h | h
  · exact Or.inl h
  · right
    rcases Nat.lt_or_ge A.length (k + snHeaderLen) with hnear | hfar
    · exact hnear
    · have hten : snHeaderLen ≤ (A.drop k).length := by rw [List.length_drop]; omega
      have hsent := validHeader_of_headerAt (hclean.1 k h (by omega))
      rw [hE, List.append_assoc, List.drop_append_of_le_length (by omega),
        validHeader_append _ hten] at hsent
      rw [List.append_assoc, List.drop_append_of_le_length (by omega),
        validHeader_append _ hten, hsent] at hvalid
      cases hvalid

/-- With its first ten bytes whole, the damaged frame announces one byte more
than it has left. -/
theorem own_header (hmax : f.payload.length ≤ snMaxPayload) (hE : f.encode W = A ++ b :: B)
    (hA : snHeaderLen ≤ A.length) (rest : List UInt8) :
    snHeaderLen + lenField (A ++ B ++ rest) = (A ++ B).length + 1 := by
  have hsent : lenField (f.encode W ++ rest) = f.payload.length := (f.encode_fields rest hmax).1
  have hlen := f.encode_length (W := W)
  rw [hE, List.append_assoc, lenField_append _ hA] at hsent
  rw [hE] at hlen
  rw [List.append_assoc, lenField_append _ hA, hsent]
  simp only [List.length_append, List.length_cons] at hlen ⊢
  omega

/-- Behind a frame that ends inside the damaged one, no header starts. -/
theorem quiet_after (hwf : WellFormed W (f :: post)) (hE : f.encode W = A ++ b :: B) {k : Nat}
    (hk : FirstHeader W (A ++ B ++ encodeAll W post) (A ++ B).length k)
    (he : k + (snHeaderLen + lenField ((A ++ B ++ encodeAll W post).drop k)) ≤ (A ++ B).length) :
    Quiet W ((A ++ B).drop (k + (snHeaderLen
      + lenField ((A ++ B ++ encodeAll W post).drop k)))) (encodeAll W post) := by
  have hmax : f.payload.length ≤ snMaxPayload := by
    have := hwf.size f (by simp)
    simp only [maxHostPayload, snMaxPayload] at *
    omega
  obtain ⟨hlt, hvalid, _⟩ := hk
  obtain ⟨hkA, hnear⟩ := header_near hwf.clean hE hlt hvalid
  intro m hm
  rw [List.length_drop] at hm
  rw [← List.drop_append_of_le_length he, List.drop_drop]
  cases hv : validHeader W ((A ++ B ++ encodeAll W post).drop
      (k + (snHeaderLen + lenField ((A ++ B ++ encodeAll W post).drop k)) + m)) with
  | false => rfl
  | true =>
      obtain ⟨hmA, _⟩ := header_near hwf.clean hE (by omega) hv
      have hwhole : k = 0 := by
        rcases hnear with h | h
        · exact h
        · omega
      subst hwhole
      have hown := own_header hmax hE (by omega) (encodeAll W post)
      rw [List.drop_zero] at he
      omega

end Damage

/-! ## Scanning up to and past the first header -/

/-- Either no header starts in the first `n` bytes, or a first one does. -/
theorem firstHeader_or (W : WireFormat) (bytes : List UInt8) (n : Nat) :
    (∀ m, m < n → validHeader W (bytes.drop m) = false) ∨ ∃ k, FirstHeader W bytes n k := by
  induction n with
  | zero => exact Or.inl (fun m hm => absurd hm (Nat.not_lt_zero m))
  | succ n ih =>
      rcases ih with hnone | ⟨k, hlt, hvalid, hfirst⟩
      · cases hv : validHeader W (bytes.drop n) with
        | true => exact Or.inr ⟨n, Nat.lt_succ_self n, hv, hnone⟩
        | false =>
            left
            intro m hm
            rcases Nat.lt_succ_iff_lt_or_eq.mp hm with h | h
            · exact hnone m h
            · rw [h]
              exact hv
      · exact Or.inr ⟨k, by omega, hvalid, hfirst⟩

/-- Everything before the first header is skipped. -/
theorem run_to_header {lim n k : Nat} {bytes : List UInt8} (hS : Follows S W lim)
    (hk : FirstHeader W bytes n k) : S.run bytes = S.run (bytes.drop k) := by
  obtain ⟨_, hvalid, hfirst⟩ := hk
  have hten := (headerAt_iff.mp (validHeader_iff.mp hvalid).1).1
  have hsplit : bytes.take k ++ bytes.drop k = bytes := List.take_append_drop k bytes
  have hquiet : Quiet W (bytes.take k) (bytes.drop k) := by
    intro m hm
    rw [List.length_take] at hm
    rw [hsplit]
    exact hfirst m (by omega)
  have := run_junk hS hquiet (by omega)
  rwa [hsplit] at this

/-- A first header whose frame ends at `e`, all of it there, makes its call. -/
theorem run_header {lim n k e : Nat} {bytes : List UInt8} (hS : Follows S W lim)
    (hk : FirstHeader W bytes n k) (he : e = k + (snHeaderLen + lenField (bytes.drop k)))
    (hlim : snHeaderLen + lenField (bytes.drop k) ≤ lim) (hall : e ≤ bytes.length) :
    (S.run bytes).1 = callOf (bytes.drop k) :: (S.run (bytes.drop e)).1 := by
  have hnext := hS.emit (bytes.drop k) hk.2.1 hlim (by rw [List.length_drop]; omega)
  rw [run_to_header hS hk, S.run_of_next hnext, List.drop_drop, ← he]
  rfl

/-- One whose frame is not all there waits. -/
theorem run_header_wait {lim n k e : Nat} {bytes : List UInt8} (hS : Follows S W lim)
    (hk : FirstHeader W bytes n k) (he : e = k + (snHeaderLen + lenField (bytes.drop k)))
    (hlim : snHeaderLen + lenField (bytes.drop k) ≤ lim) (hmore : bytes.length < e) :
    (S.run bytes).1 = [] := by
  have h10 : snHeaderLen = 10 := rfl
  have hten := (headerAt_iff.mp (validHeader_iff.mp hk.2.1).1).1
  rw [List.length_drop] at hten
  have hnext := hS.wait (bytes.drop k) hk.2.1 hlim (by rw [List.length_drop]; omega)
  rw [run_to_header hS hk, S.run_of_stop hnext]

/-- Past some bytes, what is left of them and the frames is what is left of the
frames. -/
theorem drop_past {d rest : List UInt8} {e : Nat} (h : d.length ≤ e) :
    (d ++ rest).drop e = rest.drop (e - d.length) := by
  rw [List.drop_append, List.drop_of_length_le h, List.nil_append]

/-- A frame that runs on into the frames behind costs the ones it reaches
into. -/
theorem run_past {lim n k e : Nat} (hS : Follows S W lim) (hlim : 449 ≤ lim)
    (hlim' : lim ≤ snHeaderLen + snMaxPayload) {d : List UInt8} {post : List HostFrame}
    (hpost : WellFormed W post) (hk : FirstHeader W (d ++ encodeAll W post) n k)
    (he : e = k + (snHeaderLen + lenField ((d ++ encodeAll W post).drop k)))
    (hlen : snHeaderLen + lenField ((d ++ encodeAll W post).drop k) ≤ lim)
    (hpast : d.length ≤ e) (hall : e ≤ (d ++ encodeAll W post).length) :
    (S.run (d ++ encodeAll W post)).1
      = callOf ((d ++ encodeAll W post).drop k) :: calls (framesFrom W (e - d.length) post) := by
  rw [run_header hS hk he hlen hall, drop_past hpast, run_encodeAll_drop hS hlim hlim' hpost]

/-! ## The reader on single bytes -/

/-- The loop of `drain` with its overflow rule: a header that announces more
than `rx_buf` holds is waited on until the buffer is full, and then all but the
last ten bytes are dropped. -/
def cutStep (W : WireFormat) (p : List UInt8) : Option (Nat × Option Call) :=
  if validHeader W p = true ∧ rxBufSize < snHeaderLen + lenField p then
    if p.length < rxBufSize then none else some (rxBufSize - snHeaderLen, none)
  else drainStep W p

theorem cutStep_pos {p : List UInt8} {r : Nat × Option Call} (h : cutStep W p = some r) :
    0 < r.1 ∧ r.1 ≤ p.length := by
  have h10 : snHeaderLen = 10 := rfl
  have h512 : rxBufSize = 512 := rfl
  unfold cutStep at h
  split at h
  · split at h
    · cases h
    · cases h
      simp only
      omega
  · exact drainStep_pos h

theorem cutStep_append {p : List UInt8} {r : Nat × Option Call} (q : List UInt8)
    (h : cutStep W p = some r) : cutStep W (p ++ q) = some r := by
  by_cases hshort : p.length < snHeaderLen
  · have hinvalid : ¬(validHeader W p = true ∧ rxBufSize < snHeaderLen + lenField p) := by
      intro hv
      have := (headerAt_iff.mp (validHeader_iff.mp hv.1).1).1
      omega
    rw [cutStep, if_neg hinvalid, drainStep, if_pos hshort] at h
    cases h
  · unfold cutStep at h ⊢
    rw [validHeader_append q (by omega), lenField_append q (by omega)]
    split at h
    · rename_i hc
      rw [if_pos hc]
      split at h
      · cases h
      · rw [if_neg (by rw [List.length_append]; omega)]
        exact h
    · rename_i hc
      rw [if_neg hc]
      exact drainStep_append q h

def cutScanner (W : WireFormat) : Scanner UInt8 Call where
  next := cutStep W
  next_pos := cutStep_pos
  next_append := cutStep_append

theorem cutStep_of_le {p : List UInt8} (h : snHeaderLen + lenField p ≤ rxBufSize) :
    cutStep W p = drainStep W p :=
  if_neg (by omega)

theorem cutStep_of_invalid {p : List UInt8} (h : validHeader W p = false) :
    cutStep W p = drainStep W p :=
  if_neg (by rw [h]; intro hv; cases hv.1)

theorem validHeader_of_short {p : List UInt8} (h : p.length < snHeaderLen) :
    validHeader W p = false := by
  cases hv : validHeader W p with
  | false => rfl
  | true =>
      have := (headerAt_iff.mp (validHeader_iff.mp hv).1).1
      omega

theorem cutScanner_follows (W : WireFormat) : Follows (cutScanner W) W rxBufSize where
  short p h := (cutStep_of_invalid (validHeader_of_short h)).trans (if_pos h)
  skip p hlen h := (cutStep_of_invalid h).trans (drainStep_skip hlen h)
  wait p h hlim hlen := (cutStep_of_le hlim).trans ((drainStep_valid h).trans (if_pos hlen))
  emit p h hlim hlen :=
    (cutStep_of_le hlim).trans ((drainStep_valid h).trans (if_neg (by omega)))

/-- One `drain` of at most 512 bytes is the beginning of a scan with the
overflow rule, whatever comes next. -/
theorem drain_cut (xs ys : List UInt8) (h : xs.length ≤ rxBufSize) :
    (cutScanner W).run (xs ++ ys)
      = ((drain W xs).1 ++ ((cutScanner W).run ((drain W xs).2 ++ ys)).1,
          ((cutScanner W).run ((drain W xs).2 ++ ys)).2) := by
  have h512 : rxBufSize = 512 := rfl
  have h10 : snHeaderLen = 10 := rfl
  induction xs using (drainScanner W).induction with
  | stop xs hstop =>
      simp only [drain, (drainScanner W).run_of_stop hstop, List.nil_append]
      by_cases hfull : xs.length = rxBufSize
      · -- a full buffer that waits starts with a header announcing more
        rw [if_pos hfull]
        obtain ⟨hvalid, hlong⟩ : validHeader W xs = true ∧ rxBufSize < snHeaderLen + lenField xs := by
          rcases drainStep_eq_none_iff.mp hstop with hshort | ⟨hvalid, hlen⟩
          · omega
          · exact ⟨hvalid, by omega⟩
        have hnext : (cutScanner W).next xs = some (rxBufSize - snHeaderLen, none) :=
          (if_pos ⟨hvalid, hlong⟩).trans (if_neg (by omega))
        rw [(cutScanner W).run_of_next ((cutScanner W).next_append ys hnext),
          List.drop_append_of_le_length (by omega)]
        rfl
      · rw [if_neg hfull]
  | step xs n out hnext ih =>
      obtain ⟨hpos, hle⟩ := (drainScanner W).next_pos hnext
      have hcut : (cutScanner W).next xs = some (n, out) := by
        show cutStep W xs = some (n, out)
        rcases drainStep_cases hnext with ⟨-, hv, -, -⟩ | ⟨-, hall, -, -⟩
        · rw [cutStep_of_invalid hv]
          exact hnext
        · rw [cutStep_of_le (by omega)]
          exact hnext
      have hrest := ih (by rw [List.length_drop]; omega)
      rw [(cutScanner W).run_of_next ((cutScanner W).next_append ys hcut),
        List.drop_append_of_le_length hle, hrest]
      simp only [drain, (drainScanner W).run_of_next hnext, List.append_assoc]

/-- **Single bytes.** Fed one byte at a time, the reader makes calls that are
the beginning of those of a scan with the overflow rule. -/
theorem bytewise_prefix (bytes : List UInt8) :
    ((Reader.feedAll W {} (bytes.map fun b => [b])).calls).IsPrefix
      ((cutScanner W).run bytes).1 := by
  suffices H : ∀ (r : Reader) (done : List UInt8), r.rx.length < rxBufSize →
      (∀ ys, (cutScanner W).run (done ++ ys) = (r.calls ++ ((cutScanner W).run (r.rx ++ ys)).1,
        ((cutScanner W).run (r.rx ++ ys)).2)) →
      ((r.feedAll W (bytes.map fun b => [b])).calls).IsPrefix
        ((cutScanner W).run (done ++ bytes)).1 from
    H {} [] (by decide) (fun ys => rfl)
  induction bytes with
  | nil =>
      intro r done _ hlag
      rw [hlag []]
      exact ⟨_, rfl⟩
  | cons b bytes ih =>
      intro r done hlen hlag
      have hone : [b].take (min [b].length (rxBufSize - r.rx.length)) = [b] := by
        rw [List.take_of_length_le]
        simp only [List.length_cons, List.length_nil]
        omega
      have hfit : (r.rx ++ [b]).length ≤ rxBufSize := by
        rw [List.length_append, List.length_singleton]
        omega
      have hfeed : r.feed W [b] = ⟨(drain W (r.rx ++ [b])).2, r.calls ++ (drain W (r.rx ++ [b])).1⟩ := by
        simp only [Reader.feed, hone]
      have hstep := ih (r.feed W [b]) (done ++ [b]) (by rw [hfeed]; exact drain_length _ hfit) (by
        intro ys
        have := drain_cut (W := W) (r.rx ++ [b]) ys hfit
        rw [hfeed, List.append_assoc, hlag ([b] ++ ys), ← List.append_assoc, this,
          List.append_assoc])
      rw [List.append_assoc] at hstep
      exact hstep

/-- Single bytes are chunks. -/
theorem readerChunks_bytes (bytes : List UInt8) : ReaderChunks (bytes.map fun b => [b]) := by
  intro c hc
  obtain ⟨b, _, rfl⟩ := List.mem_map.mp hc
  refine ⟨Nat.le_refl 1, ?_⟩
  show 1 ≤ 64
  decide

theorem flatten_bytes (bytes : List UInt8) : (bytes.map fun b => [b]).flatten = bytes := by
  induction bytes with
  | nil => rfl
  | cons b bytes ih => rw [List.map_cons, List.flatten_cons, ih]; rfl

/-! ## Harmless damage is tolerated -/

theorem bounded_encodeAll {fs : List HostFrame} (h : WellFormed W fs) :
    (drainScanner W).Bounded readerRoom (encodeAll W fs) := by
  have hS := drainScanner_follows W 449
  induction fs with
  | nil => exact Scanner.bounded_of_stop (hS.short [] (by decide)) (Nat.zero_le _)
  | cons f fs ih =>
      have hle := h.encode_le
      rw [HostFrame.encode_length] at hle
      have hroom : readerRoom = 448 := rfl
      have hmax : snMaxPayload = 4096 := rfl
      exact bounded_frame hS f _ (by omega) hle (by omega) (ih h.tail)

/-- In front of frames, quiet bytes are never a lot pending. -/
theorem bounded_quiet {junk : List UInt8} {fs : List HostFrame} (h : WellFormed W fs)
    (hq : Quiet W junk (encodeAll W fs)) :
    (drainScanner W).Bounded readerRoom (junk ++ encodeAll W fs) :=
  bounded_junk (drainScanner_follows W 449) hq (by decide) (bounded_encodeAll h)

/-- A first header whose frame is short and all there is never a lot pending. -/
theorem bounded_header {n k e : Nat} {bytes : List UInt8} (hk : FirstHeader W bytes n k)
    (he : e = k + (snHeaderLen + lenField (bytes.drop k)))
    (hlen : snHeaderLen + lenField (bytes.drop k) ≤ 449) (hall : e ≤ bytes.length)
    (hrest : (drainScanner W).Bounded readerRoom (bytes.drop e)) :
    (drainScanner W).Bounded readerRoom bytes := by
  have hS := drainScanner_follows W 449
  have hsplit : bytes.take k ++ bytes.drop k = bytes := List.take_append_drop k bytes
  have hquiet : Quiet W (bytes.take k) (bytes.drop k) := by
    intro m hm
    rw [List.length_take] at hm
    rw [hsplit]
    exact hk.2.2 m (by omega)
  have hhead : (drainScanner W).Bounded readerRoom (bytes.drop k) :=
    bounded_valid hS hk.2.1 hlen hlen (by rw [List.length_drop]; omega)
      (by rw [List.drop_drop, ← he]; exact hrest)
  have := bounded_junk hS hquiet (by decide) hhead
  rwa [hsplit] at this

/-- What is shorter than the room is never a lot pending. -/
theorem bounded_short {bytes : List UInt8} (h : bytes.length ≤ readerRoom) :
    (drainScanner W).Bounded readerRoom bytes := by
  intro ps qs hsplit
  have hps : ps.length ≤ bytes.length := by
    rw [← hsplit, List.length_append]
    omega
  have := (drainScanner W).run_rest_length ps
  omega

/-- The room of a frame that reaches into the next one, and stops inside it. -/
theorem framesFrom_next {g : HostFrame} {rest : List HostFrame} {i : Nat} (hi : 0 < i)
    (h : i ≤ (g.encode W).length) : framesFrom W i (g :: rest) = rest := by
  cases i with
  | zero => omega
  | succ i =>
      have hzero : i + 1 - (g.encode W).length = 0 := by omega
      simp only [framesFrom, hzero, framesFrom_zero]

/-- From inside a frame on, a stream of frames is never a lot pending. -/
theorem bounded_drop {g : HostFrame} {rest : List HostFrame} (hwf : WellFormed W (g :: rest))
    {i : Nat} (hi : 0 < i) (h : i ≤ (g.encode W).length) :
    (drainScanner W).Bounded readerRoom ((encodeAll W (g :: rest)).drop i) := by
  rw [encodeAll_cons, List.drop_append_of_le_length h]
  exact bounded_quiet hwf.tail (quiet_drop hwf.clean hi)

/-- What the reader makes of a damaged frame and the frames behind it when the
damage is harmless: the frames behind, and at most one frame more, which was
sent. -/
def Survives (W : WireFormat) (sent : List Call) (d : List UInt8) (post : List HostFrame) : Prop :=
  (drainScanner W).Bounded readerRoom (d ++ encodeAll W post) ∧
    (((drainScanner W).run (d ++ encodeAll W post)).1 = calls post ∨
      ∃ c ∈ sent, ((drainScanner W).run (d ++ encodeAll W post)).1 = c :: calls post)

/-- A header whose frame ends inside the damaged one makes its call, and costs
none of the frames behind. -/
theorem run_inside {f : HostFrame} {post : List HostFrame} {A B : List UInt8} {b : UInt8}
    {k e : Nat} (hwf : WellFormed W (f :: post)) (hE : f.encode W = A ++ b :: B)
    (hk : FirstHeader W (A ++ B ++ encodeAll W post) (A ++ B).length k)
    (he : e = k + (snHeaderLen + lenField ((A ++ B ++ encodeAll W post).drop k)))
    (hin : e ≤ (A ++ B).length) (hshort : (A ++ B).length ≤ 448) :
    (drainScanner W).Bounded readerRoom (A ++ B ++ encodeAll W post) ∧
      ((drainScanner W).run (A ++ B ++ encodeAll W post)).1
        = callOf ((A ++ B ++ encodeAll W post).drop k) :: calls post := by
  have hquiet := quiet_after hwf hE hk (by omega)
  rw [← he] at hquiet
  have hall : e ≤ (A ++ B ++ encodeAll W post).length := by
    rw [List.length_append]
    omega
  refine ⟨bounded_header hk he (by omega) hall ?_, ?_⟩
  · rw [List.drop_append_of_le_length hin]
    exact bounded_quiet hwf.tail hquiet
  · rw [run_header (drainScanner_follows W 449) hk he (by omega) hall,
      List.drop_append_of_le_length hin,
      run_quiet (drainScanner_follows W 449) (Nat.le_refl _) (by decide) hwf.tail hquiet]

/-- Nothing follows: the reader waits for bytes that do not come. -/
theorem survives_last {sent : List Call} {d : List UInt8} {n k e : Nat}
    (hk : FirstHeader W (d ++ encodeAll W []) n k)
    (he : e = k + (snHeaderLen + lenField ((d ++ encodeAll W []).drop k)))
    (hpast : d.length < e) (hshort : d.length ≤ 448) : Survives W sent d [] := by
  have hlen : (d ++ encodeAll W []).length = d.length := by
    rw [List.length_append]
    rfl
  have hmax := (validHeader_iff.mp hk.2.1).2
  refine ⟨bounded_short (by rw [hlen]; exact hshort), Or.inl ?_⟩
  exact run_header_wait (drainScanner_follows W (snHeaderLen + snMaxPayload)) hk he (by omega)
    (by omega)

/-- The header's frame ends inside the next one, and is that one. -/
theorem survives_next {sent : List Call} {d : List UInt8} {g : HostFrame}
    {rest : List HostFrame} {n k e : Nat} (hwf : WellFormed W (g :: rest))
    (hk : FirstHeader W (d ++ encodeAll W (g :: rest)) n k)
    (he : e = k + (snHeaderLen + lenField ((d ++ encodeAll W (g :: rest)).drop k)))
    (hpast : d.length < e) (hin : e ≤ d.length + (g.encode W).length)
    (hcall : callOf ((d ++ encodeAll W (g :: rest)).drop k) = g.call) :
    Survives W sent d (g :: rest) := by
  have hS := drainScanner_follows W 449
  have hglen := hwf.encode_le
  have hlen : (d ++ encodeAll W (g :: rest)).length
      = d.length + ((g.encode W).length + (encodeAll W rest).length) := by
    rw [List.length_append, encodeAll_cons, List.length_append]
  -- the same call has the same payload length, so the frame is short
  have hpay : lenField ((d ++ encodeAll W (g :: rest)).drop k) = g.payload.length := by
    have := congrArg (fun c => c.payload.length) hcall
    simp only [callOf, HostFrame.call, List.length_take, List.length_drop] at this
    omega
  rw [HostFrame.encode_length] at hglen
  refine ⟨bounded_header hk he (by omega) (by omega) ?_, Or.inl ?_⟩
  · rw [drop_past (by omega)]
    exact bounded_drop hwf (by omega) (by omega)
  · rw [run_past hS (Nat.le_refl _) (by decide) hwf hk he (by omega) (by omega) (by omega), hcall,
      framesFrom_next (by omega) (by omega)]
    rfl

/-- Harmless damage survives. -/
theorem survives_of_harmless {pre : List HostFrame} {f : HostFrame} {j : Nat}
    {post : List HostFrame} (hwf : WellFormed W (f :: post)) (hj : j < (f.encode W).length)
    (h : Harmless W pre f j post) :
    Survives W (calls (pre ++ f :: post)) ((f.encode W).eraseIdx j) post := by
  obtain ⟨A, b, B, hE, _, hd⟩ := erase_split hj
  have hshort : (A ++ B).length ≤ 448 := by
    have := hwf.encode_le
    rw [hE] at this
    simp only [List.length_append, List.length_cons] at this ⊢
    omega
  unfold Harmless at h
  rw [hd] at h ⊢
  rcases firstHeader_or W (A ++ B ++ encodeAll W post) (A ++ B).length with hnone | ⟨k, hk⟩
  · exact ⟨bounded_quiet hwf.tail hnone, Or.inl (run_quiet (drainScanner_follows W 449)
      (Nat.le_refl _) (by decide) hwf.tail hnone)⟩
  · rcases h k hk with ⟨hin, hsent⟩ | ⟨hpast, hnext⟩
    · obtain ⟨hb, hrun⟩ := run_inside hwf hE hk rfl hin hshort
      exact ⟨hb, Or.inr ⟨_, hsent, hrun⟩⟩
    · cases hpost : post with
      | nil =>
          subst hpost
          exact survives_last hk rfl hpast hshort
      | cons g rest =>
          subst hpost
          obtain ⟨hin, hcall⟩ := hnext g rest rfl
          exact survives_next hwf.tail hk rfl hpast hin hcall

/-- Frames in front are delivered first. -/
theorem run_pre {lim : Nat} (hS : Follows S W lim) (hlim : 449 ≤ lim)
    (hlim' : lim ≤ snHeaderLen + snMaxPayload) {fs : List HostFrame} (rest : List UInt8)
    (hsize : ∀ f ∈ fs, f.payload.length ≤ maxHostPayload) :
    (S.run (encodeAll W fs ++ rest)).1 = calls fs ++ (S.run rest).1 := by
  have hsizes : ∀ f ∈ fs, snHeaderLen + f.payload.length ≤ lim := by
    intro f hf
    have := hsize f hf
    simp only [maxHostPayload, snHeaderLen] at *
    omega
  rw [run_encodeAll hS fs rest hlim' hsizes]

theorem bounded_pre {fs : List HostFrame} {rest : List UInt8}
    (hsize : ∀ f ∈ fs, f.payload.length ≤ maxHostPayload)
    (hrest : (drainScanner W).Bounded readerRoom rest) :
    (drainScanner W).Bounded readerRoom (encodeAll W fs ++ rest) := by
  have hS := drainScanner_follows W 449
  induction fs with
  | nil => exact hrest
  | cons f fs ih =>
      have hf : f.payload.length ≤ 439 := hsize f (by simp)
      have h10 : snHeaderLen = 10 := rfl
      have hroom : readerRoom = 448 := rfl
      have hmax : snMaxPayload = 4096 := rfl
      rw [encodeAll_cons, List.append_assoc]
      exact bounded_frame hS f _ (by omega) (by omega) (by omega)
        (ih fun g hg => hsize g (by simp [hg]))

/-- Harmless damage costs one frame at most, however the bytes arrive. -/
theorem tolerates_of_harmless {pre : List HostFrame} {f : HostFrame} {j : Nat}
    {post : List HostFrame} (hwf : WellFormed W (pre ++ f :: post))
    (hj : j < (f.encode W).length) (h : Harmless W pre f j post) :
    Tolerates W pre f j post := by
  intro chunks hchunks hflat
  have hsize : ∀ g ∈ pre, g.payload.length ≤ maxHostPayload :=
    fun g hg => hwf.size g (by simp [hg])
  obtain ⟨hb, hrun⟩ := survives_of_harmless hwf.of_append hj h
  have hbounded : (drainScanner W).Bounded readerRoom chunks.flatten := by
    rw [hflat]
    exact bounded_pre hsize hb
  have hcalls : (Reader.feedAll W {} chunks).calls
      = calls pre ++ ((drainScanner W).run ((f.encode W).eraseIdx j ++ encodeAll W post)).1 := by
    rw [feedAll_run hchunks hbounded, hflat]
    exact run_pre (drainScanner_follows W 449) (Nat.le_refl _) (by decide) _ hsize
  have hmem : ∀ c ∈ calls pre ++ calls post, c ∈ calls (pre ++ f :: post) := by
    intro c hc
    rw [calls_append]
    rcases List.mem_append.mp hc with hc | hc
    · exact List.mem_append_left _ hc
    · exact List.mem_append_right _ (List.mem_cons_of_mem _ hc)
  rw [hcalls, calls_append]
  rcases hrun with hrun | ⟨c, hsent, hrun⟩
  · rw [hrun]
    exact ⟨List.Sublist.refl _, hmem⟩
  · rw [hrun]
    refine ⟨List.Sublist.append (List.Sublist.refl _) (List.sublist_cons_self _ _), ?_⟩
    intro x hx
    rcases List.mem_append.mp hx with hx | hx
    · exact hmem x (List.mem_append_left _ hx)
    · rcases List.mem_cons.mp hx with rfl | hx
      · exact hsent
      · exact hmem x (List.mem_append_right _ hx)

/-! ## Only harmless damage is tolerated -/

/-- A stream of frames entered past its first byte has lost a frame. -/
theorem framesFrom_length_lt {i : Nat} (hi : 0 < i) (g : HostFrame) (rest : List HostFrame) :
    (framesFrom W i (g :: rest)).length < (g :: rest).length := by
  cases i with
  | zero => omega
  | succ i =>
      have := framesFrom_length_le (W := W) (i + 1 - (g.encode W).length) rest
      simp only [framesFrom, List.length_cons]
      omega

/-- A header that announces more than the buffer holds costs a frame. -/
theorem cut_overflow {d : List UInt8} {g : HostFrame} {rest : List HostFrame} {n k : Nat}
    (hwf : WellFormed W (g :: rest)) (hk : FirstHeader W (d ++ encodeAll W (g :: rest)) n k)
    (hlen : rxBufSize < snHeaderLen + lenField ((d ++ encodeAll W (g :: rest)).drop k))
    (hshort : d.length ≤ 448) :
    ((cutScanner W).run (d ++ encodeAll W (g :: rest))).1.length < (g :: rest).length := by
  have h512 : rxBufSize = 512 := rfl
  have h10 : snHeaderLen = 10 := rfl
  have hS := cutScanner_follows W
  have hcut : (cutScanner W).next ((d ++ encodeAll W (g :: rest)).drop k)
      = if ((d ++ encodeAll W (g :: rest)).drop k).length < rxBufSize then none
        else some (rxBufSize - snHeaderLen, none) := if_pos ⟨hk.2.1, hlen⟩
  rw [run_to_header hS hk]
  by_cases hfull : ((d ++ encodeAll W (g :: rest)).drop k).length < rxBufSize
  · rw [if_pos hfull] at hcut
    rw [(cutScanner W).run_of_stop hcut]
    simp
  · rw [if_neg hfull] at hcut
    rw [(cutScanner W).run_of_next hcut, List.drop_drop, drop_past (by omega)]
    simp only [Option.toList_none, List.nil_append]
    rw [run_encodeAll_drop hS (by decide) (by decide) hwf, calls_length]
    exact framesFrom_length_lt (by omega) g rest

/-- If a frame that runs on past the damaged one costs nothing, it is the next
frame. -/
theorem next_of_no_loss {d : List UInt8} {g : HostFrame} {rest : List HostFrame} {n k e : Nat}
    (hwf : WellFormed W (g :: rest)) (hk : FirstHeader W (d ++ encodeAll W (g :: rest)) n k)
    (he : e = k + (snHeaderLen + lenField ((d ++ encodeAll W (g :: rest)).drop k)))
    (hpast : d.length < e) (hshort : d.length ≤ 448) {pre : List Call}
    (hsub : (pre ++ calls (g :: rest)).Sublist
      (pre ++ ((cutScanner W).run (d ++ encodeAll W (g :: rest))).1)) :
    e ≤ d.length + (g.encode W).length ∧
      callOf ((d ++ encodeAll W (g :: rest)).drop k) = g.call := by
  have hS := cutScanner_follows W
  have hcount := hsub.length_le
  rw [List.length_append, List.length_append, calls_length] at hcount
  have hall : (d ++ encodeAll W (g :: rest)).length
      = d.length + ((g.encode W).length + (encodeAll W rest).length) := by
    rw [List.length_append, encodeAll_cons, List.length_append]
  by_cases hlen : snHeaderLen + lenField ((d ++ encodeAll W (g :: rest)).drop k) ≤ rxBufSize
  · by_cases hmore : (d ++ encodeAll W (g :: rest)).length < e
    · -- the frame is still waited for at the end
      rw [run_header_wait hS hk he hlen hmore, List.length_nil, List.length_cons] at hcount
      omega
    · have hrun := run_past hS (by decide) (by decide) hwf hk he hlen (by omega) (by omega)
      by_cases hin : e ≤ d.length + (g.encode W).length
      · refine ⟨hin, ?_⟩
        rw [framesFrom_next (by omega) (by omega)] at hrun
        rw [hrun] at hsub
        have heq := hsub.eq_of_length (by simp [calls])
        have htail := List.append_cancel_left heq
        exact (List.cons.inj htail).1.symm
      · -- it reaches into the frame after the next
        cases rest with
        | nil =>
            have : (encodeAll W []).length = 0 := rfl
            omega
        | cons h rest =>
            have hstep : framesFrom W (e - d.length) (g :: h :: rest)
                = framesFrom W (e - d.length - (g.encode W).length) (h :: rest) := by
              obtain ⟨i, hi⟩ : ∃ i, e - d.length = i + 1 := ⟨e - d.length - 1, by omega⟩
              rw [hi]
              rfl
            have hlt := framesFrom_length_lt (W := W)
              (by omega : 0 < e - d.length - (g.encode W).length) h rest
            rw [hrun, hstep] at hcount
            simp only [List.length_cons, calls_length] at hcount hlt
            omega
  · have := cut_overflow hwf hk (by omega) hshort
    omega

/-- Damage that is tolerated under every chunking is harmless. -/
theorem harmless_of_tolerates {pre : List HostFrame} {f : HostFrame} {j : Nat}
    {post : List HostFrame} (hwf : WellFormed W (pre ++ f :: post))
    (hj : j < (f.encode W).length) (h : Tolerates W pre f j post) :
    Harmless W pre f j post := by
  have hsize : ∀ g ∈ pre, g.payload.length ≤ maxHostPayload :=
    fun g hg => hwf.size g (by simp [hg])
  have hbytes := h _ (readerChunks_bytes _) (flatten_bytes _)
  have hwf' : WellFormed W (f :: post) := hwf.of_append
  obtain ⟨A, b, B, hE, _, hd⟩ := erase_split hj
  have hshort : (A ++ B).length ≤ 448 := by
    have := hwf'.encode_le
    rw [hE] at this
    simp only [List.length_append, List.length_cons] at this ⊢
    omega
  have hdamaged : damaged W pre f j post
      = encodeAll W pre ++ (A ++ B ++ encodeAll W post) := by
    rw [damaged, hd]
  simp only [Harmless, hd]
  intro k hk
  rw [hdamaged] at hbytes
  rcases Nat.lt_or_ge (A ++ B).length (k + (snHeaderLen
      + lenField ((A ++ B ++ encodeAll W post).drop k))) with hpast | hin
  · refine Or.inr ⟨hpast, ?_⟩
    intro g rest hpost
    subst hpost
    have hprefix := bytewise_prefix (W := W)
      (encodeAll W pre ++ (A ++ B ++ encodeAll W (g :: rest)))
    have hsub := hbytes.1.trans hprefix.sublist
    rw [run_pre (cutScanner_follows W) (by decide) (by decide) _ hsize, calls_append] at hsub
    exact next_of_no_loss hwf'.tail hk rfl hpast hshort hsub
  · refine Or.inl ⟨hin, ?_⟩
    obtain ⟨hb, hrun⟩ := run_inside hwf' hE hk rfl hin hshort
    apply hbytes.2
    rw [feedAll_run (readerChunks_bytes _) (by rw [flatten_bytes]; exact bounded_pre hsize hb),
      flatten_bytes, run_pre (drainScanner_follows W 449) (Nat.le_refl _) (by decide) _ hsize, hrun]
    exact List.mem_append_right _ (List.mem_cons_self)

/-- **One lost byte costs one frame exactly when the damage is harmless.** -/
theorem tolerates_iff_harmless (W : WireFormat) (pre : List HostFrame) (f : HostFrame) (j : Nat)
    (post : List HostFrame) (hwf : WellFormed W (pre ++ f :: post))
    (hj : j < (f.encode W).length) :
    Tolerates W pre f j post ↔ Harmless W pre f j post :=
  ⟨harmless_of_tolerates hwf hj, tolerates_of_harmless hwf hj⟩

/-! ## A payload byte lost from one of two commands -/

/-- A START and a STOP, say: two commands of five payload bytes. -/
def commandA : HostFrame := ⟨3, 1, 0, 0, [3, 0, 0, 0, 0]⟩
def commandB : HostFrame := ⟨3, 1, 1, 0, [4, 0, 0, 0, 0]⟩

theorem commands_wellFormed : WellFormed ccittFormat [commandA, commandB] where
  size := by decide
  clean := by
    refine ⟨?_, ?_, trivial⟩
    · intro k h0 hk
      have hall : ∀ i, i < 15 → headerAt ccittFormat ((commandA.encode ccittFormat
          ++ encodeAll ccittFormat [commandB]).drop (i + 1)) = false ∨ 14 ≤ i := by
        decide +kernel
      have hlen : (commandA.encode ccittFormat).length = 15 := by decide +kernel
      rcases hall (k - 1) (by omega) with h | h
      · rwa [Nat.sub_add_cancel h0] at h
      · omega
    · intro k h0 hk
      have hall : ∀ i, i < 15 → headerAt ccittFormat ((commandB.encode ccittFormat
          ++ encodeAll ccittFormat []).drop (i + 1)) = false := by decide +kernel
      have hlen : (commandB.encode ccittFormat).length = 15 := by decide +kernel
      have := hall (k - 1) (by omega)
      rwa [Nat.sub_add_cancel h0] at this

/-- With byte 12 lost, the first command comes out with the magic's first byte
for its last one, and the second does not come out at all. -/
theorem lost_payload_byte_not_tolerated :
    WellFormed ccittFormat [commandA, commandB] ∧
      12 < (commandA.encode ccittFormat).length ∧
      (Reader.feedAll ccittFormat {} [damaged ccittFormat [] commandA 12 [commandB]]).calls
        = [⟨3, [3, 0, 0, 0, 0xA5]⟩] ∧
      ¬Tolerates ccittFormat [] commandA 12 [commandB] := by
  have hcalls : (Reader.feedAll ccittFormat {}
      [damaged ccittFormat [] commandA 12 [commandB]]).calls = [⟨3, [3, 0, 0, 0, 0xA5]⟩] := by
    decide +kernel
  refine ⟨commands_wellFormed, by decide +kernel, hcalls, ?_⟩
  intro h
  have := (h [damaged ccittFormat [] commandA 12 [commandB]]
    (by show ∀ c ∈ [damaged ccittFormat [] commandA 12 [commandB]],
          1 ≤ c.length ∧ c.length ≤ readerChunk
        decide +kernel)
    (by rw [List.flatten_cons, List.flatten_nil, List.append_nil])).2
  rw [hcalls] at this
  have hmem := this _ (List.mem_singleton.mpr rfl)
  revert hmem
  decide +kernel

/-- A byte lost from the last command of a stream. -/
theorem tolerates_iff_harmless_last :
    Tolerates ccittFormat [commandA] commandB 12 []
      ↔ Harmless ccittFormat [commandA] commandB 12 [] :=
  tolerates_iff_harmless ccittFormat [commandA] commandB 12 [] commands_wellFormed
    (by decide +kernel)

end Nrf54Sniffer.Link
