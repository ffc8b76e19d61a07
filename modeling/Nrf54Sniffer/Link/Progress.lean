/-
Nrf54Sniffer.Link.Progress — the reader can never wedge.

`Settled` is what every `drain` leaves: room for another byte, and either no more
than ten bytes or the beginning of a frame that is longer than what is there. A
header that is waited on either gets its frame or fills the buffer, and the
overflow rule then discards it (`pending_leaves`).
-/
import Nrf54Sniffer.Link.Reference
import Nrf54Sniffer.Link.RxBuf

namespace Nrf54Sniffer.Link

open Nrf54Sniffer.Lib
open Nrf54Sniffer.Wire

variable {W : WireFormat}

/-! ## What a drain leaves -/

/-- The bytes start with a header that announces no more than a frame carries,
and its frame is longer than what is there. -/
def Pending (W : WireFormat) (rx : List UInt8) : Prop :=
  validHeader W rx = true ∧ rx.length < snHeaderLen + lenField rx

/-- Room for another byte, and nothing held back but a frame to come. -/
structure Settled (W : WireFormat) (rx : List UInt8) : Prop where
  room : rx.length ≤ 511
  waits : rx.length ≤ 10 ∨ Pending W rx

theorem drain_settled (W : WireFormat) {rx : List UInt8} (h : rx.length ≤ rxBufSize) :
    Settled W (drain W rx).2 := by
  have h512 : rxBufSize = 512 := rfl
  have h10 : snHeaderLen = 10 := rfl
  have hroom : (drain W rx).2.length < rxBufSize := drain_length rx h
  have hstop : drainStep W ((drainScanner W).run rx).2 = none := (drainScanner W).run_rest_stop rx
  refine ⟨by omega, ?_⟩
  unfold drain
  dsimp only
  split
  · rename_i hfull
    left
    rw [List.length_drop, hfull]
    exact Nat.le_refl 10
  · rcases drainStep_eq_none_iff.mp hstop with hshort | hpending
    · exact .inl (by omega)
    · exact .inr hpending

theorem feed_settled (W : WireFormat) {r : Reader} (h : r.rx.length ≤ rxBufSize)
    (chunk : List UInt8) : Settled W (r.feed W chunk).rx := by
  apply drain_settled
  rw [List.length_append, List.length_take]
  omega

theorem feedAll_settled (W : WireFormat) {r : Reader} (h : Settled W r.rx)
    (chunks : List (List UInt8)) : Settled W (r.feedAll W chunks).rx := by
  induction chunks generalizing r with
  | nil => exact h
  | cons c cs ih =>
      have hroom := h.room
      have h512 : rxBufSize = 512 := rfl
      exact ih (feed_settled W (by omega) c)

theorem settled_initial (W : WireFormat) : Settled W [] := ⟨by decide, .inl (by decide)⟩

/-! ## A header that is waited on -/

/-- What a chunk appends. -/
def appended (rx chunk : List UInt8) : List UInt8 :=
  rx ++ chunk.take (min chunk.length (rxBufSize - rx.length))

/-- The frame of the header that is pending at offset 0, its payload taken out
of `bytes`. -/
def frameCall (rx bytes : List UInt8) : Call :=
  ⟨rx.getD 2 0, (bytes.drop snHeaderLen).take (lenField rx)⟩

/-- The frame was handed to the handler, first of all, when `bytes` were there. -/
def Delivered (r r' : Reader) (bytes : List UInt8) : Prop :=
  ∃ more, r'.calls = r.calls ++ frameCall r.rx bytes :: more

/-- The buffer was full: the last ten bytes were kept and no call was made. -/
def Discarded (r r' : Reader) (bytes : List UInt8) : Prop :=
  bytes.length = rxBufSize ∧ r' = ⟨bytes.drop (rxBufSize - snHeaderLen), r.calls⟩

/-- Some of the chunks only add to what is there, and with the next one the
header is gone. -/
def Reader.Leaves (W : WireFormat) (r : Reader) (chunks : List (List UInt8)) : Prop :=
  ∃ before c after, chunks = before ++ c :: after ∧
    r.feedAll W before = ⟨r.rx ++ before.flatten, r.calls⟩ ∧
    let bytes := appended (r.rx ++ before.flatten) c
    bytes.length ≤ rxBufSize ∧
      (Delivered r ((r.feedAll W before).feed W c) bytes ∨
        Discarded r ((r.feedAll W before).feed W c) bytes)

theorem appended_length {rx : List UInt8} (h : rx.length ≤ rxBufSize) (chunk : List UInt8) :
    (appended rx chunk).length ≤ rxBufSize := by
  rw [appended, List.length_append, List.length_take]
  omega

/-- More bytes do not change a header. -/
theorem validHeader_more {rx : List UInt8} (h : validHeader W rx = true) (more : List UInt8) :
    validHeader W (rx ++ more) = true ∧ lenField (rx ++ more) = lenField rx ∧
      (rx ++ more).getD 2 0 = rx.getD 2 0 := by
  have hten : 10 ≤ rx.length := (headerAt_iff.mp (validHeader_iff.mp h).1).1
  exact ⟨(validHeader_append more hten).trans h, lenField_append more hten,
    getD_append more (by omega)⟩

/-- What a chunk does to a header that is waited on. -/
theorem pending_feed {r : Reader} (h : Pending W r.rx) (hroom : r.rx.length ≤ 511)
    (chunk : List UInt8) :
    (Delivered r (r.feed W chunk) (appended r.rx chunk) ∨
      Discarded r (r.feed W chunk) (appended r.rx chunk)) ∨
      r.feed W chunk = ⟨r.rx ++ chunk, r.calls⟩ ∧ Pending W (r.rx ++ chunk) ∧
        (r.rx ++ chunk).length ≤ 511 := by
  have h512 : rxBufSize = 512 := rfl
  have hfeed : r.feed W chunk
      = ⟨(drain W (appended r.rx chunk)).2, r.calls ++ (drain W (appended r.rx chunk)).1⟩ := rfl
  obtain ⟨hvalid, hlen, htype⟩ :
      validHeader W (appended r.rx chunk) = true ∧
        lenField (appended r.rx chunk) = lenField r.rx ∧
        (appended r.rx chunk).getD 2 0 = r.rx.getD 2 0 := validHeader_more h.1 _
  have hstep := drainStep_valid hvalid
  rw [hfeed]
  by_cases hall : (appended r.rx chunk).length < snHeaderLen + lenField (appended r.rx chunk)
  · rw [if_pos hall] at hstep
    have hrun : (drainScanner W).run (appended r.rx chunk) = ([], appended r.rx chunk) :=
      (drainScanner W).run_of_stop hstep
    unfold drain
    rw [hrun]
    by_cases hfull : (appended r.rx chunk).length = rxBufSize
    · refine .inl (.inr ⟨hfull, ?_⟩)
      simp only [if_pos hfull, List.append_nil]
    · -- nothing was cut off: the chunk fitted
      have hsame : appended r.rx chunk = r.rx ++ chunk := by
        have hsize : (appended r.rx chunk).length
            = r.rx.length + min chunk.length (rxBufSize - r.rx.length) := by
          rw [appended, List.length_append, List.length_take]
          omega
        rw [appended, List.take_of_length_le (by omega)]
      have hle : (appended r.rx chunk).length ≤ rxBufSize := appended_length (by omega) chunk
      rw [hsame] at hall hvalid hfull hle ⊢
      refine .inr ⟨?_, ⟨hvalid, hall⟩, by omega⟩
      simp only [if_neg hfull, List.append_nil]
  · rw [if_neg hall] at hstep
    have hcall : callOf (appended r.rx chunk) = frameCall r.rx (appended r.rx chunk) := by
      rw [callOf, frameCall, htype, hlen]
    refine .inl (.inl ⟨((drainScanner W).run ((appended r.rx chunk).drop
      (snHeaderLen + lenField (appended r.rx chunk)))).1, ?_⟩)
    unfold drain
    rw [(drainScanner W).run_of_next hstep, ← hcall]
    rfl

/-- **A pending header does not stay.** By the time the buffer could be full,
however much the header announces, its frame was delivered or it is discarded. -/
theorem pending_leaves {r : Reader} (h : Pending W r.rx) (hroom : r.rx.length ≤ 511)
    {chunks : List (List UInt8)} (hmore : 512 - r.rx.length ≤ chunks.flatten.length) :
    r.Leaves W chunks := by
  induction chunks generalizing r with
  | nil =>
      simp only [List.flatten_nil, List.length_nil] at hmore
      omega
  | cons c cs ih =>
      have h512 : rxBufSize = 512 := rfl
      rcases pending_feed h hroom c with hgone | ⟨hfeed, hpending, hroom'⟩
      · refine ⟨[], c, cs, rfl, ?_, ?_⟩
        · simp only [List.flatten_nil, List.append_nil]
          rfl
        · simp only [List.flatten_nil, List.append_nil]
          exact ⟨appended_length (by omega) c, hgone⟩
      · have hrest : Reader.Leaves W ⟨r.rx ++ c, r.calls⟩ cs := by
          refine ih hpending hroom' ?_
          simp only [List.flatten_cons, List.length_append] at hmore ⊢
          omega
        obtain ⟨before, c', after, hchunks, hwaits, hle, hgone⟩ := hrest
        obtain ⟨_, hlen, htype⟩ := validHeader_more h.1 c
        have hfirst : ∀ cs', r.feedAll W (c :: cs') = (⟨r.rx ++ c, r.calls⟩ : Reader).feedAll W cs' := by
          intro cs'
          rw [Reader.feedAll, hfeed]
        refine ⟨c :: before, c', after, by rw [hchunks]; rfl, ?_, ?_⟩
        · rw [hfirst, hwaits, List.flatten_cons, List.append_assoc]
        · rw [hfirst, List.flatten_cons, ← List.append_assoc]
          refine ⟨hle, hgone.imp ?_ id⟩
          rintro ⟨more, hmore⟩
          refine ⟨more, ?_⟩
          rw [hmore, frameCall, frameCall, hlen, htype]

/-! ## Only bytes received -/

/-- What is in the buffer, and every payload, are bytes received, in order. -/
structure FromStream (r : Reader) (stream : List UInt8) : Prop where
  rx : r.rx.Sublist stream
  payloads : ∀ c ∈ r.calls, c.payload.Sublist stream

theorem drain_calls_sublist {rx : List UInt8} {c : Call} (h : c ∈ (drain W rx).1) :
    c.payload.Sublist rx := by
  obtain ⟨k, n, hnext⟩ := (drainScanner W).run_emits h
  obtain ⟨-, rfl, -⟩ := drainStep_call hnext
  exact ((List.take_sublist _ _).trans (List.drop_sublist _ _)).trans (List.drop_sublist _ _)

theorem drain_rest_sublist (W : WireFormat) (rx : List UInt8) : (drain W rx).2.Sublist rx := by
  obtain ⟨k, hk⟩ := (drainScanner W).run_rest_drop rx
  unfold drain
  dsimp only
  rw [hk]
  split
  · exact (List.drop_sublist _ _).trans (List.drop_sublist _ _)
  · exact List.drop_sublist _ _

theorem feed_fromStream {r : Reader} {stream : List UInt8} (h : FromStream r stream)
    (chunk : List UInt8) : FromStream (r.feed W chunk) (stream ++ chunk) := by
  have happended : (appended r.rx chunk).Sublist (stream ++ chunk) :=
    h.rx.append (List.take_sublist _ _)
  refine ⟨(drain_rest_sublist W _).trans happended, fun c hc => ?_⟩
  rcases List.mem_append.mp hc with hc | hc
  · exact (h.payloads c hc).trans (List.sublist_append_left _ _)
  · exact (drain_calls_sublist hc).trans happended

theorem feedAll_fromStream {r : Reader} {stream : List UInt8} (h : FromStream r stream)
    (chunks : List (List UInt8)) : FromStream (r.feedAll W chunks) (stream ++ chunks.flatten) := by
  induction chunks generalizing r stream with
  | nil =>
      rw [List.flatten_nil, List.append_nil]
      exact h
  | cons c cs ih =>
      rw [List.flatten_cons, ← List.append_assoc]
      exact ih (feed_fromStream h c)

/-! ## The reader -/

/-- The list model's state of an array. -/
def RxBuf.reader (s : RxBuf) : Reader := ⟨s.rx, s.handled.map Handled.call⟩

theorem RxBuf.Refines.reader {s : RxBuf} {r : Reader} (h : RxBuf.Refines s r) : s.reader = r := by
  rw [RxBuf.reader, h.rx, h.calls]

/-- The same of the array. -/
def RxBuf.Leaves (W : WireFormat) (s : RxBuf) (chunks : List (List UInt8)) : Prop :=
  ∃ before c after s₁ s₂, chunks = before ++ c :: after ∧
    s.feedAll W before = some s₁ ∧ s₁.feed W c = some s₂ ∧
    s₁.reader = ⟨s.rx ++ before.flatten, s.reader.calls⟩ ∧
    let bytes := appended s₁.rx c
    bytes.length ≤ rxBufSize ∧
      (Delivered s.reader s₂.reader bytes ∨ Discarded s.reader s₂.reader bytes)

theorem RxBuf.Refines.leaves {s : RxBuf} {r : Reader} {chunks : List (List UInt8)}
    (h : RxBuf.Refines s r) (hleaves : r.Leaves W chunks) : s.Leaves W chunks := by
  obtain ⟨before, c, after, hchunks, hwaits, hle, hgone⟩ := hleaves
  obtain ⟨s₁, hbefore, hs₁⟩ := RxBuf.feedAll_refines W h before
  obtain ⟨s₂, hfeed, hs₂⟩ := RxBuf.feed_refines W hs₁ c
  have hrx : s₁.rx = r.rx ++ before.flatten := by rw [hs₁.rx, hwaits]
  refine ⟨before, c, after, s₁, s₂, hchunks, hbefore, hfeed, ?_, ?_⟩
  · rw [hs₁.reader, hwaits, h.rx, h.reader]
  · rw [hrx, h.reader, hs₂.reader]
    exact ⟨hle, hgone⟩

/-- **The reader can never wedge or read outside its buffer.** Whatever bytes
have come, in whatever chunks: no access left the array or the bytes received;
there is room for another byte, and what is held back is at most ten bytes or
the beginning of a frame; every payload was a range of the bytes received, of
at most 502; and a header pending at offset 0 is delivered or discarded by the
time the buffer could be full. -/
theorem reader_never_wedges (W : WireFormat) (chunks : List (List UInt8)) :
    ∃ s, RxBuf.feedAll W {} chunks = some s ∧ s.rx.length = s.rxLen ∧ Settled W s.rx ∧
      (∀ h ∈ s.handled, h.InRange ∧ h.payload.Sublist chunks.flatten) ∧
      ∀ later, Pending W s.rx → 512 - s.rxLen ≤ later.flatten.length → s.Leaves W later := by
  obtain ⟨s, hfeed, hs⟩ := RxBuf.feedAll_refines W RxBuf.refines_initial chunks
  have hempty : FromStream {} [] := ⟨.slnil, by simp⟩
  have hsettled : Settled W (Reader.feedAll W {} chunks).rx :=
    feedAll_settled W (settled_initial W) chunks
  have hstream := feedAll_fromStream (W := W) hempty chunks
  have hlen := hs.sound.rx_length
  refine ⟨s, hfeed, hlen, hs.rx ▸ hsettled, fun h hh => ⟨hs.inRange h hh, ?_⟩,
    fun later hpending hmore => ?_⟩
  · refine hstream.payloads h.call ?_
    rw [← hs.calls]
    exact List.mem_map_of_mem hh
  · rw [← hlen] at hmore
    rw [hs.rx] at hpending hmore
    exact hs.leaves (pending_leaves hpending hsettled.room hmore)

/-- A header that announces 4096 bytes is waited on. -/
theorem reader_never_wedges_longest :
    let head := putLe16 ccittFormat.magic ++ [9, 0, 0, 0] ++ putLe16 4096
    let header := head ++ putLe16 (crc16Ccitt head)
    let later := List.replicate 9 (List.replicate 64 (0 : UInt8))
    ∃ s, RxBuf.feedAll ccittFormat {} [header] = some s ∧ s.Leaves ccittFormat later := by
  intro head header later
  obtain ⟨s, hfeed, hlen, -, -, hleaves⟩ := reader_never_wedges ccittFormat [header]
  have hrx : (RxBuf.feedAll ccittFormat {} [header]).map RxBuf.rx = some header := by
    decide +kernel
  rw [hfeed, Option.map_some, Option.some_inj] at hrx
  refine ⟨s, hfeed, hleaves later ?_ ?_⟩
  · rw [hrx]
    show validHeader ccittFormat header = true ∧ header.length < snHeaderLen + lenField header
    decide +kernel
  · rw [← hlen, hrx]
    decide +kernel

end Nrf54Sniffer.Link
