/-
Nrf54Sniffer.Link.ReserveTheorems — what the control reserve is worth.

A frame without control leaves `TX_CONTROL_RESERVE` bytes of the ring free, so
right after one the ring holds at most 7680 bytes. From there on it grows past
that only by frames with control, and the transmit thread only makes room:
`Room` is this bound, for every interleaving. A frame with control is then
refused only when it does not fit in the reserve together with the control
frames accepted since.
-/
import Nrf54Sniffer.Link.TransmitTheorems
import Mathlib.Data.List.DropRight

namespace Nrf54Sniffer.Link

open Nrf54Sniffer.Lib
open Nrf54Sniffer.Wire

variable {encode : Encode}

/-! ## Control frames since the last other one -/

/-- The frames with control accepted since the last frame without. -/
def controlTail (fs : List Frame) : List Frame := fs.rtakeWhile fun f => carriesControl f.type

/-- Their encoded bytes. The first of them has its place among all the frames
accepted as its sequence number. -/
def controlTailBytes (encode : Encode) (fs : List Frame) : Nat :=
  (encodings encode (fs.length - (controlTail fs).length) (controlTail fs)).length

theorem controlTail_length_le (fs : List Frame) : (controlTail fs).length ≤ fs.length :=
  (List.rtakeWhile_suffix _ fs).length_le

/-- A frame without control starts over. -/
theorem controlTailBytes_data (fs : List Frame) {f : Frame} (hf : carriesControl f.type = false) :
    controlTailBytes encode (fs ++ [f]) = 0 := by
  have htail : controlTail (fs ++ [f]) = [] := by
    simp [controlTail, hf]
  simp [controlTailBytes, htail, encodings]

/-- A frame with control adds its own bytes. -/
theorem controlTailBytes_control (fs : List Frame) {f : Frame} (hf : carriesControl f.type) :
    controlTailBytes encode (fs ++ [f])
      = controlTailBytes encode fs
        + (encode f.type (UInt16.ofNat fs.length) f.payload).length := by
  have htail : controlTail (fs ++ [f]) = controlTail fs ++ [f] := by
    simp [controlTail, hf]
  have hle := controlTail_length_le fs
  have hstart : (fs ++ [f]).length - (controlTail (fs ++ [f])).length
      = fs.length - (controlTail fs).length := by
    rw [htail]
    simp only [List.length_append, List.length_singleton]
    omega
  have hnext : fs.length - (controlTail fs).length + (controlTail fs).length = fs.length := by
    omega
  rw [controlTailBytes, hstart, htail, encodings_append_singleton, List.length_append, hnext]
  rfl

/-! ## The bound -/

/-- Beyond what a frame without control may fill, the ring holds only control,
and a frame past the space test leaves its reserve free. -/
structure Room (encode : Encode) (s : State) : Prop where
  bound : s.link.txRing.content.length ≤ snLinkCapacity + controlTailBytes encode s.accepted
  leaves : ∀ f bytes, s.sender = .accepted f bytes →
    bytes.length + reserve f.type ≤ s.link.txRing.space

theorem room_initial : Room encode {} where
  bound := Nat.zero_le _
  leaves := by intro f bytes h; cases h

/-- The transmit thread keeps the bound: it takes nothing in and only makes
room. -/
theorem Room.drained {s t : State} (h : Room encode s)
    (hsize : t.link.txRing.content.length ≤ s.link.txRing.content.length)
    (hspace : s.link.txRing.space ≤ t.link.txRing.space)
    (hsender : t.sender = s.sender) (haccepted : t.accepted = s.accepted) : Room encode t where
  bound := by
    rw [haccepted]
    exact Nat.le_trans hsize h.bound
  leaves := by
    intro f bytes hf
    rw [hsender] at hf
    exact Nat.le_trans (h.leaves f bytes hf) hspace

/-- What has passed the space test leaves its reserve free. -/
theorem sendTest_accept_leaves {l : Tx} {f : Frame} (h : sendTest encode l f = .accept) :
    (l.encoded encode f).length + reserve f.type ≤ l.txRing.space := by
  unfold sendTest at h
  simp only at h
  split at h
  · cases h
  · split at h
    · cases h
    · omega

/-- What has failed the space test does not fit with its reserve. -/
theorem sendTest_noMem {l : Tx} {f : Frame} (h : sendTest encode l f = .noMem) :
    l.txRing.space < (l.encoded encode f).length + reserve f.type := by
  unfold sendTest at h
  simp only at h
  split at h
  · cases h
  · split at h
    · assumption
    · cases h

/-- The put keeps the bound: a frame without control left the reserve free, and
one with control is counted. -/
theorem put_room {s : State} {f : Frame} {bytes : List UInt8} (hinv : Inv encode s)
    (h : Room encode s) (hs : s.sender = .accepted f bytes) :
    Room encode { s with link := putFrame s.link bytes, sender := .measuring
                         accepted := s.accepted ++ [f] } := by
  refine ⟨?_, by intro g bs hg; cases hg⟩
  obtain ⟨hbytes, hfit⟩ := hinv.fits f bytes hs
  have hleaves := h.leaves f bytes hs
  have hsize : (s.link.txRing.put bytes).content.length
      = s.link.txRing.content.length + bytes.length := by
    rw [s.link.txRing.put_content hfit, List.length_append]
  show (s.link.txRing.put bytes).content.length
    ≤ snLinkCapacity + controlTailBytes encode (s.accepted ++ [f])
  cases hf : carriesControl f.type with
  | false =>
      have hspace := s.link.txRing.content_add_space
      simp only [reserve, hf, Bool.false_eq_true, if_false] at hleaves
      rw [hsize, controlTailBytes_data _ hf]
      unfold snLinkCapacity
      omega
  | true =>
      have hbound := h.bound
      rw [hsize, controlTailBytes_control _ hf, ← hinv.seq, hbytes, Tx.encoded]
      omega

/-- **One step of any thread keeps the bound.** -/
theorem step_room {s t : State} (a : Label) (hinv : Inv encode s) (h : Room encode s)
    (hstep : step encode s a = some t) : Room encode t := by
  cases step_takes hstep with
  | inval _ _ => exact h
  | noMem _ _ => exact ⟨h.bound, h.leaves⟩
  | accept _ ht =>
      refine ⟨h.bound, ?_⟩
      intro g bytes hg
      cases hg
      exact sendTest_accept_leaves ht
  | put hs => exact put_room hinv h hs
  | measure _ => exact ⟨h.bound, by intro f bytes hf; cases hf⟩
  | claim _ _ _ _ => exact h.drained (by simp) (by simp) rfl rfl
  | takeDone _ _ => exact ⟨h.bound, h.leaves⟩
  | uartFail _ =>
      exact h.drained (s.link.txRing.finish_length_le 0) (s.link.txRing.space_le_finish 0) rfl rfl
  | uartOk _ => exact ⟨h.bound, h.leaves⟩
  | dmaByte _ _ => exact ⟨h.bound, h.leaves⟩
  | dmaDone _ => exact ⟨h.bound, h.leaves⟩
  | finish _ _ =>
      exact h.drained (s.link.txRing.finish_length_le _) (s.link.txRing.space_le_finish _) rfl rfl
  | resetCounters => exact ⟨h.bound, h.leaves⟩

theorem run_room {t : State} {ls : List Label} (hrun : (machine encode).run {} ls = some t) :
    Room encode t := by
  have hboth := (machine encode).run_invariant (I := fun s => Inv encode s ∧ Room encode s)
    (fun _ a _ h hstep => ⟨step_inv a h.1 hstep, step_room a h.1 h.2 hstep⟩)
    ⟨inv_initial, room_initial⟩ hrun
  exact hboth.2

/-! ## The guarantee -/

/-- **The reserve protects control.** Whatever has been sent before, and however
the ring has drained, a frame with control is refused for want of space only
when it and the control frames accepted since the last other frame come to more
than the reserve. With none of them accepted since, one of up to 512 bytes is
never refused. -/
theorem refused_only_over_reserve (encode : Encode) (ls : List Label) (t : State) (f : Frame)
    (hrun : (machine encode).run {} ls = some t) (hf : carriesControl f.type) :
    ((snLinkSend encode t.link f).2 = .noMem →
      txControlReserve < (t.link.encoded encode f).length + controlTailBytes encode t.accepted) ∧
    (controlTail t.accepted = [] → (t.link.encoded encode f).length ≤ txControlReserve →
      (snLinkSend encode t.link f).2 ≠ .noMem) := by
  have hover : (snLinkSend encode t.link f).2 = .noMem →
      txControlReserve < (t.link.encoded encode f).length
        + controlTailBytes encode t.accepted := by
    intro href
    have ht : sendTest encode t.link f = .noMem := by
      unfold snLinkSend at href
      cases ht : sendTest encode t.link f with
      | inval => rw [ht] at href; cases href
      | noMem => rfl
      | accept => rw [ht] at href; cases href
    have hspace := sendTest_noMem ht
    have htotal := t.link.txRing.content_add_space
    have hbound := (run_room hrun).bound
    simp only [reserve, hf, if_true] at hspace
    have hcapacity : snLinkCapacity + txControlReserve = txRingSize := rfl
    omega
  refine ⟨hover, ?_⟩
  intro htail hlen href
  have := hover href
  rw [controlTailBytes, htail] at this
  simp only [encodings, List.length_nil] at this
  omega

/-- Data up to the reserve, then replies until one no longer fits. -/
theorem refused_only_over_reserve_full :
    let encode : Encode := fun t _ _ => List.replicate (if carriesControl t then 300 else 3840) 0
    let ls : List Label :=
      [.send ⟨.packetBatch, []⟩, .put, .measure, .send ⟨.packetBatch, []⟩, .put, .measure,
       .send ⟨.controlReply, []⟩, .put, .measure]
    ∃ t, (machine encode).run {} ls = some t ∧
      (snLinkSend encode t.link ⟨.stats, []⟩).2 = .noMem ∧
      txControlReserve < (t.link.encoded encode ⟨.stats, []⟩).length
        + controlTailBytes encode t.accepted := by
  intro encode ls
  have hruns : (((machine encode).run {} ls).any fun t =>
      (snLinkSend encode t.link ⟨.stats, []⟩).2 = .noMem) = true := by decide +kernel
  obtain ⟨t, ht, href⟩ := (Option.any_eq_true _ _).mp hruns
  have href := of_decide_eq_true href
  exact ⟨t, ht, href, (refused_only_over_reserve encode ls t ⟨.stats, []⟩ ht rfl).1 href⟩

end Nrf54Sniffer.Link
