/-
Nrf54Sniffer.Link.TransmitTheorems — the wire carries exactly the accepted
frames.

`Inv` is what every interleaving keeps: the wire followed by what is not sent
yet is the encodings of the frames accepted, the next sequence number is their
number, and a frame past the space test still fits, because the transmit thread
only makes room. `step_takes` says once what a step can do; `step_inv` goes
through its cases, `run_inv` through the runs.

The byte counter is followed along the runs that do not zero it.
-/
import Nrf54Sniffer.Lib.PackedStream
import Nrf54Sniffer.Link.Transmit

namespace Nrf54Sniffer.Link

open Nrf54Sniffer.Lib
open Nrf54Sniffer.Wire

variable {encode : Encode}

/-! ## One call on its own -/

/-- A call refused for want of space counts a drop and changes nothing else. -/
theorem snLinkSend_noMem {l : Tx} {f : Frame} (h : (snLinkSend encode l f).2 = .noMem) :
    (snLinkSend encode l f).1
      = { l with counters := { l.counters with framesDropped := l.counters.framesDropped + 1 } } := by
  unfold snLinkSend at h ⊢
  cases ht : sendTest encode l f with
  | inval => rw [ht] at h; cases h
  | noMem => rfl
  | accept => rw [ht] at h; cases h

/-- A call with a frame that does not encode changes nothing. -/
theorem snLinkSend_inval {l : Tx} {f : Frame} (h : (snLinkSend encode l f).2 = .inval) :
    (snLinkSend encode l f).1 = l := by
  unfold snLinkSend at h ⊢
  cases ht : sendTest encode l f with
  | inval => rfl
  | noMem => rw [ht] at h; cases h
  | accept => rw [ht] at h; cases h

/-- With nothing in between, the steps of a call that is not refused come to
`snLinkSend`. -/
theorem run_snLinkSend {s : State} {f : Frame} (hs : s.sender = .none)
    (hok : (snLinkSend encode s.link f).2.ok) :
    (machine encode).run s [.send f, .put, .measure]
      = some { s with link := (snLinkSend encode s.link f).1, accepted := s.accepted ++ [f] } := by
  unfold snLinkSend at hok ⊢
  cases ht : sendTest encode s.link f with
  | inval => rw [ht] at hok; cases hok
  | noMem => rw [ht] at hok; cases hok
  | accept =>
      simp only [Machine.run, machine, step, hs, if_true, ht, Option.bind_some]

/-! ## What a step does -/

/-- The steps, each with what it was taken on: one for each outcome. -/
inductive Takes (encode : Encode) (s : State) : Label → State → Prop
  | inval {f : Frame} (hfree : s.sender = .none) (ht : sendTest encode s.link f = .inval) :
      Takes encode s (.send f) s
  | noMem {f : Frame} (hfree : s.sender = .none) (ht : sendTest encode s.link f = .noMem) :
      Takes encode s (.send f) { s with link := countDropped s.link }
  | accept {f : Frame} (hfree : s.sender = .none) (ht : sendTest encode s.link f = .accept) :
      Takes encode s (.send f) { s with sender := .accepted f (s.link.encoded encode f) }
  | put {f : Frame} {bytes : List UInt8} (hs : s.sender = .accepted f bytes) :
      Takes encode s .put { s with link := putFrame s.link bytes, sender := .measuring
                                   accepted := s.accepted ++ [f] }
  | measure (hs : s.sender = .measuring) :
      Takes encode s .measure { s with link := noteHighWater s.link, sender := .none }
  | claim {n : Nat} (hp : s.phase = .idle) (hpos : 0 < n) (hchunk : n ≤ txDmaChunk)
      (hsize : n ≤ s.link.txRing.size) :
      Takes encode s (.claim n)
        { s with link := { s.link with txRing := s.link.txRing.claim n }, phase := .claimed }
  | takeDone (hp : s.phase = .claimed) (hdone : s.txDone = true) :
      Takes encode s .takeDone { s with txDone := false, phase := .ready }
  | uartFail (hp : s.phase = .ready) :
      Takes encode s .uartFail
        { s with txDone := true, phase := .idle
                 link := { s.link with txRing := s.link.txRing.finish 0 } }
  | uartOk (hp : s.phase = .ready) : Takes encode s .uartOk { s with phase := .sending 0 }
  | dmaByte {k : Nat} {byte : UInt8} (hp : s.phase = .sending k)
      (hbyte : s.link.txRing.claimed[k]? = some byte) :
      Takes encode s .dmaByte { s with wire := s.wire ++ [byte], phase := .sending (k + 1) }
  | dmaDone (hp : s.phase = .sending s.link.txRing.claimed.length) :
      Takes encode s .dmaDone { s with txDone := true, phase := .signalled }
  | finish (hp : s.phase = .signalled) (hdone : s.txDone = true) :
      Takes encode s .finish
        { s with phase := .idle
                 link := { s.link with
                           txRing := s.link.txRing.finish s.link.txRing.claimed.length } }
  | resetCounters : Takes encode s .resetCounters { s with link := snLinkResetCounters s.link }

theorem step_takes {s t : State} {a : Label} (h : step encode s a = some t) :
    Takes encode s a t := by
  cases a with
  | send f =>
      simp only [step, Option.ite_none_right_eq_some] at h
      obtain ⟨hfree, h⟩ := h
      cases ht : sendTest encode s.link f with
      | inval => rw [ht] at h; cases h; exact .inval hfree ht
      | noMem => rw [ht] at h; cases h; exact .noMem hfree ht
      | accept => rw [ht] at h; cases h; exact .accept hfree ht
  | put =>
      simp only [step] at h
      split at h
      · rename_i f bytes hs
        cases h
        exact .put hs
      · cases h
  | measure =>
      obtain ⟨hs, heq⟩ := Option.ite_none_right_eq_some.mp h
      cases heq
      exact .measure hs
  | claim n =>
      obtain ⟨⟨hp, hpos, hchunk, hsize⟩, heq⟩ := Option.ite_none_right_eq_some.mp h
      cases heq
      exact .claim hp hpos hchunk hsize
  | takeDone =>
      obtain ⟨⟨hp, hdone⟩, heq⟩ := Option.ite_none_right_eq_some.mp h
      cases heq
      exact .takeDone hp hdone
  | uartFail =>
      obtain ⟨hp, heq⟩ := Option.ite_none_right_eq_some.mp h
      cases heq
      exact .uartFail hp
  | uartOk =>
      obtain ⟨hp, heq⟩ := Option.ite_none_right_eq_some.mp h
      cases heq
      exact .uartOk hp
  | dmaByte =>
      simp only [step] at h
      split at h
      · rename_i k hp
        obtain ⟨byte, hbyte, rfl⟩ := Option.map_eq_some_iff.mp h
        exact .dmaByte hp hbyte
      · cases h
  | dmaDone =>
      obtain ⟨hp, heq⟩ := Option.ite_none_right_eq_some.mp h
      cases heq
      exact .dmaDone hp
  | finish =>
      obtain ⟨⟨hp, hdone⟩, heq⟩ := Option.ite_none_right_eq_some.mp h
      cases heq
      exact .finish hp hdone
  | resetCounters =>
      cases h
      exact .resetCounters

/-! ## The invariant -/

theorem encodings_append_singleton (k : Nat) (fs : List Frame) (f : Frame) :
    encodings encode k (fs ++ [f])
      = encodings encode k fs ++ encode f.type (UInt16.ofNat (k + fs.length)) f.payload := by
  induction fs generalizing k with
  | nil => simp [encodings]
  | cons g fs ih =>
      have hk : k + 1 + fs.length = k + (fs.length + 1) := by omega
      simp only [List.cons_append, encodings, ih, List.append_assoc, List.length_cons, hk]

/-- What every interleaving keeps. -/
structure Inv (encode : Encode) (s : State) : Prop where
  wire : s.wire ++ s.unsent = encodings encode 0 s.accepted
  seq : s.link.seq = UInt16.ofNat s.accepted.length
  fits : ∀ f bytes, s.sender = .accepted f bytes →
    bytes = s.link.encoded encode f ∧ bytes.length ≤ s.link.txRing.space
  span : ∀ k, s.phase = .sending k → k ≤ s.link.txRing.claimed.length

theorem inv_initial : Inv encode {} where
  wire := rfl
  seq := rfl
  fits := by intro f bytes h; cases h
  span := by intro k h; cases h

/-- What has passed the space test fits. -/
theorem sendTest_accept {l : Tx} {f : Frame} (h : sendTest encode l f = .accept) :
    (l.encoded encode f).length ≤ l.txRing.space := by
  unfold sendTest at h
  simp only at h
  split at h
  · cases h
  · split at h
    · cases h
    · omega

/-- A put adds its bytes behind everything not sent yet. -/
theorem unsent_put {s : State} {f : Frame} {bytes : List UInt8} (h : Inv encode s)
    (hfit : bytes.length ≤ s.link.txRing.space) (sender : Sender) :
    State.unsent { s with link := putFrame s.link bytes, sender, accepted := s.accepted ++ [f] }
      = s.unsent ++ bytes := by
  have hput := s.link.txRing.put_queued hfit
  have hcontent := s.link.txRing.put_content hfit
  unfold State.unsent
  cases hp : s.phase with
  | idle => exact hcontent
  | claimed => exact hcontent
  | ready => exact hcontent
  | sending k =>
      have hk := h.span k hp
      show (s.link.txRing.put bytes).content.drop k = s.link.txRing.content.drop k ++ bytes
      rw [hcontent, List.drop_append_of_le_length]
      simp only [ClaimRing.content, List.length_append]
      omega
  | signalled => exact hput

/-- The put keeps the invariant. -/
theorem put_inv {s : State} {f : Frame} {bytes : List UInt8} (h : Inv encode s)
    (hs : s.sender = .accepted f bytes) :
    Inv encode { s with link := putFrame s.link bytes, sender := .measuring
                        accepted := s.accepted ++ [f] } := by
  obtain ⟨hbytes, hfit⟩ := h.fits f bytes hs
  refine ⟨?_, ?_, (by intro g bs hg; cases hg), h.span⟩
  · rw [unsent_put h hfit, ← List.append_assoc, h.wire, encodings_append_singleton, Nat.zero_add,
      ← h.seq, hbytes]
    rfl
  · show s.link.seq + 1 = UInt16.ofNat (s.accepted ++ [f]).length
    rw [h.seq, List.length_append, UInt16.ofNat_add]
    rfl

/-- One more byte on the wire is one fewer to send. -/
theorem dmaByte_inv {s : State} {k : Nat} {byte : UInt8} (h : Inv encode s)
    (hp : s.phase = .sending k) (hbyte : s.link.txRing.claimed[k]? = some byte) :
    Inv encode { s with wire := s.wire ++ [byte], phase := .sending (k + 1) } := by
  obtain ⟨hlt, hget⟩ := List.getElem?_eq_some_iff.mp hbyte
  refine ⟨?_, h.seq, h.fits, ?_⟩
  · have hdrop : s.link.txRing.content.drop k = byte :: s.link.txRing.content.drop (k + 1) := by
      have hlt' : k < s.link.txRing.content.length := by
        simp only [ClaimRing.content, List.length_append]
        omega
      have hhead : s.link.txRing.content[k] = byte := by
        simp only [ClaimRing.content, List.getElem_append_left hlt]
        exact hget
      rw [List.drop_eq_getElem_cons hlt', hhead]
    have hw := h.wire
    simp only [State.unsent, hp, hdrop] at hw
    show s.wire ++ [byte] ++ s.link.txRing.content.drop (k + 1) = _
    rw [List.append_assoc, List.singleton_append, hw]
  · intro j hj
    cases hj
    exact hlt

/-- **One step of any thread keeps the invariant.** -/
theorem step_inv {s t : State} (a : Label) (h : Inv encode s) (hstep : step encode s a = some t) :
    Inv encode t := by
  have hw := h.wire
  cases step_takes hstep with
  | inval _ _ => exact h
  | noMem _ _ => exact ⟨h.wire, h.seq, h.fits, h.span⟩
  | accept _ ht =>
      refine ⟨h.wire, h.seq, ?_, h.span⟩
      intro g bytes hg
      cases hg
      exact ⟨rfl, sendTest_accept ht⟩
  | put hs => exact put_inv h hs
  | measure _ =>
      refine ⟨h.wire, h.seq, ?_, h.span⟩
      intro f bytes hf
      cases hf
  | claim hp _ _ _ =>
      refine ⟨?_, h.seq, ?_, by intro k hk; cases hk⟩
      · simp only [State.unsent, hp] at hw
        simpa only [State.unsent, ClaimRing.claim_content] using hw
      · intro f bytes hf
        obtain ⟨hb, hle⟩ := h.fits f bytes hf
        exact ⟨hb, by rw [ClaimRing.claim_space]; exact hle⟩
  | takeDone hp _ =>
      simp only [State.unsent, hp] at hw
      exact ⟨hw, h.seq, h.fits, by intro k hk; cases hk⟩
  | uartFail hp =>
      simp only [State.unsent, hp] at hw
      refine ⟨?_, h.seq, ?_, by intro k hk; cases hk⟩
      · simpa only [State.unsent, ClaimRing.finish_content _ (Nat.zero_le _), List.drop_zero]
          using hw
      · intro f bytes hf
        obtain ⟨hb, hle⟩ := h.fits f bytes hf
        exact ⟨hb, Nat.le_trans hle (s.link.txRing.space_le_finish 0)⟩
  | uartOk hp =>
      simp only [State.unsent, hp] at hw
      refine ⟨?_, h.seq, h.fits, ?_⟩
      · simpa only [State.unsent, List.drop_zero] using hw
      · intro k hk
        cases hk
        exact Nat.zero_le _
  | dmaByte hp hbyte => exact dmaByte_inv h hp hbyte
  | dmaDone hp =>
      simp only [State.unsent, hp, ClaimRing.content, List.drop_left] at hw
      exact ⟨hw, h.seq, h.fits, by intro k hk; cases hk⟩
  | finish hp _ =>
      simp only [State.unsent, hp] at hw
      refine ⟨?_, h.seq, ?_, by intro k hk; cases hk⟩
      · simpa only [State.unsent, ClaimRing.finish_all_content] using hw
      · intro f bytes hf
        obtain ⟨hb, hle⟩ := h.fits f bytes hf
        exact ⟨hb, Nat.le_trans hle (s.link.txRing.space_le_finish _)⟩
  | resetCounters => exact ⟨h.wire, h.seq, h.fits, h.span⟩

/-- Every run from boot keeps the invariant. -/
theorem run_inv {t : State} {ls : List Label} (hrun : (machine encode).run {} ls = some t) :
    Inv encode t :=
  (machine encode).run_invariant (fun _ a _ h hstep => step_inv a h hstep) inv_initial hrun

/-! ## The byte counter -/

/-- `bytes_sent` is the length of the encodings accepted, in 32 bits. -/
def BytesCounted (encode : Encode) (s : State) : Prop :=
  s.link.counters.bytesSent = UInt32.ofNat (encodings encode 0 s.accepted).length

theorem step_bytesCounted {s t : State} (a : Label) (ha : a ≠ .resetCounters)
    (h : Inv encode s) (hc : BytesCounted encode s) (hstep : step encode s a = some t) :
    BytesCounted encode t := by
  cases step_takes hstep with
  | inval _ _ => exact hc
  | noMem _ _ => exact hc
  | accept _ _ => exact hc
  | @put f bytes hs =>
      obtain ⟨hbytes, _⟩ := h.fits f bytes hs
      show s.link.counters.bytesSent + UInt32.ofNat bytes.length
        = UInt32.ofNat (encodings encode 0 (s.accepted ++ [f])).length
      rw [hc, encodings_append_singleton, List.length_append, UInt32.ofNat_add, Nat.zero_add,
        ← h.seq, hbytes]
      rfl
  | measure _ => exact hc
  | claim _ _ _ _ => exact hc
  | takeDone _ _ => exact hc
  | uartFail _ => exact hc
  | uartOk _ => exact hc
  | dmaByte _ _ => exact hc
  | dmaDone _ => exact hc
  | finish _ _ => exact hc
  | resetCounters => exact absurd rfl ha

theorem run_bytesCounted {t : State} {ls : List Label} (hls : .resetCounters ∉ ls)
    (hrun : (machine encode).run {} ls = some t) : BytesCounted encode t := by
  have hmeets : (machine encode).RunMeets (fun _ a => a ≠ .resetCounters) {} ls := by
    apply Machine.runMeets_of_forall
    intro a ha _ heq
    exact hls (heq ▸ ha)
  have hboth := (machine encode).run_invariant_of
    (I := fun s => Inv encode s ∧ BytesCounted encode s)
    (fun s a _ h ha hstep => ⟨step_inv a h.1 hstep, step_bytesCounted a ha h.1 h.2 hstep⟩)
    ⟨inv_initial, rfl⟩ hmeets hrun
  exact hboth.2

/-! ## The calls -/

/-- The calls accepted are the frames accepted. -/
theorem step_served {s t : State} {l : Label} (ht : Takes encode s l t) :
    t.accepted = s.accepted ++ keptFrames true (completes encode s l) := by
  cases ht with
  | inval _ ht => simp [completes, ht, keptFrames]
  | noMem _ ht => simp [completes, ht, keptFrames]
  | accept _ ht => simp [completes, ht, keptFrames]
  | put hs => simp [completes, hs, keptFrames]
  | _ => simp [completes, keptFrames]

theorem served_accepted {t : State} {calls : List (Frame × Bool)} {ls : List Label}
    (hrun : (served encode).run ({}, []) ls = some (t, calls)) :
    t.accepted = keptFrames true calls := by
  have hkeeps : ∀ (r : State × List (Frame × Bool)) (l : Label) (r' : State × List (Frame × Bool)),
      r.1.accepted = keptFrames true r.2 → (served encode).step r l = some r' →
      r'.1.accepted = keptFrames true r'.2 := by
    intro r l r' h hstep
    obtain ⟨s', hlink, heq⟩ := Option.map_eq_some_iff.mp hstep
    cases heq
    rw [step_served (step_takes hlink), h, keptFrames_append]
  exact (served encode).run_invariant hkeeps rfl hrun

theorem served_run {t : State} {calls : List (Frame × Bool)} {ls : List Label}
    (hrun : (served encode).run ({}, []) ls = some (t, calls)) :
    (machine encode).run {} ls = some t := by
  have hghost := (machine encode).run_withGhost
    (fun s l calls => calls ++ completes encode s l) {} [] ls
  rw [← hghost]
  exact congrArg (Option.map Prod.fst) hrun

/-- Every run has its calls. -/
theorem run_served {t : State} {ls : List Label} (hrun : (machine encode).run {} ls = some t) :
    ∃ calls, (served encode).run ({}, []) ls = some (t, calls) := by
  rw [← (machine encode).run_withGhost (fun s l calls => calls ++ completes encode s l) {} [] ls]
    at hrun
  obtain ⟨⟨s, calls⟩, hserved, heq⟩ := Option.map_eq_some_iff.mp hrun
  cases heq
  exact ⟨calls, hserved⟩

/-! ## The wire -/

/-- **The wire carries exactly the accepted frames.** After any interleaving of
calls, transmit thread, DMA and counter resets, the bytes on the wire and then
those in the ring not sent yet are the encodings of the accepted frames in
order, the `k`-th numbered `k` modulo 65536. The accepted frames are those of
the calls that returned 0. Without a reset `bytes_sent` is their length, in 32
bits. A refused call changes nothing but the drop count, and one that does not
encode nothing at all. -/
theorem wire_carries_accepted (encode : Encode) (ls : List Label) (t : State)
    (hrun : (machine encode).run {} ls = some t) :
    t.wire ++ t.unsent = encodings encode 0 t.accepted ∧
    (∃ calls, (served encode).run ({}, []) ls = some (t, calls) ∧
      t.accepted = keptFrames true calls) ∧
    (.resetCounters ∉ ls →
      t.link.counters.bytesSent = UInt32.ofNat (encodings encode 0 t.accepted).length) ∧
    (∀ f, (snLinkSend encode t.link f).2 = .noMem →
      (snLinkSend encode t.link f).1 = { t.link with counters :=
        { t.link.counters with framesDropped := t.link.counters.framesDropped + 1 } }) ∧
    (∀ f, (snLinkSend encode t.link f).2 = .inval → (snLinkSend encode t.link f).1 = t.link) := by
  obtain ⟨calls, hserved⟩ := run_served hrun
  exact ⟨(run_inv hrun).wire, ⟨calls, hserved, served_accepted hserved⟩,
    fun hls => run_bytesCounted hls hrun, fun _ h => snLinkSend_noMem h,
    fun _ h => snLinkSend_inval h⟩

/-- Two frames, with one failed start of the DMA and a span that stops inside
the first. -/
theorem wire_carries_accepted_two_frames :
    let encode : Encode := fun _ seq payload => seq.toUInt8 :: payload
    let ls : List Label :=
      [.send ⟨.packet, [7, 8]⟩, .put, .claim 2, .measure, .takeDone, .uartFail, .claim 2,
       .takeDone, .uartOk, .dmaByte, .send ⟨.log, [9]⟩, .put, .dmaByte, .dmaDone, .finish]
    ∃ t, (machine encode).run {} ls = some t ∧ t.accepted = [⟨.packet, [7, 8]⟩, ⟨.log, [9]⟩] ∧
      t.wire ++ t.unsent = encodings encode 0 t.accepted := by
  intro encode ls
  have hruns : ((machine encode).run {} ls).any (fun t =>
      t.accepted == [⟨.packet, [7, 8]⟩, ⟨.log, [9]⟩]) = true := by decide +kernel
  obtain ⟨t, ht, haccepted⟩ := (Option.any_eq_true _ _).mp hruns
  exact ⟨t, ht, beq_iff_eq.mp haccepted, (wire_carries_accepted encode ls t ht).1⟩

end Nrf54Sniffer.Link
