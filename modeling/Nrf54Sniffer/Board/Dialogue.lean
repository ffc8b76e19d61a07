/-
Nrf54Sniffer.Board.Dialogue — from the commands a host sends to the replies it
reads.

The pieces are put end to end: the UART's receive path and the reader thread,
the control plane among all the other threads of the board, the link, and the
host's own reader. `Conversation` says how they are joined, at any moment: the
bytes received are the beginning of what the host sent, the control plane has
handled the beginning of what the reader has called it for, and the link has
served the beginning of what the board handed over.

The host then reads replies to its own commands, in their order; while none is
refused, to the first of them, and when everything is through, to all.
-/
import Nrf54Sniffer.Board.Audit
import Nrf54Sniffer.Link.RxPath

namespace Nrf54Sniffer.Board

open Nrf54Sniffer.Lib
open Nrf54Sniffer.Wire
open Nrf54Sniffer.Link

variable {p : Platform} {W : WireFormat} {encode : Encode}

/-! ## The host's frames -/

/-- The types a host sends. -/
def hostTypes : List FrameType := [.controlCmd, .bleFilter, .bleKeys]

/-- A coding whose types the board tells apart too. -/
structure HostCoding extends FrameCoding where
  type_host : ∀ t ∈ hostTypes, type (code t) = t

/-- The board takes a call for the frame that was sent. -/
theorem HostCoding.read_call (C : HostCoding) {f : Frame} (h : f.type ∈ hostTypes) :
    C.toFrameCoding.read (C.toFrameCoding.call f) = f := by
  simp only [FrameCoding.read, FrameCoding.call, C.type_host f.type h]

/-- A frame that the reader has room for. -/
structure Sendable (f : Frame) : Prop where
  type : f.type ∈ hostTypes
  length : f.payload.length ≤ maxHostPayload

theorem Sendable.fits {f : Frame} (h : Sendable f) : f.payload.length ≤ snMaxPayload :=
  Nat.le_trans h.length (by decide)

/-- Frames that the reader has room for are never a lot pending. -/
theorem bounded_encodings {C : FrameCoding} (hencode : Encodes W C encode) {fs : List Frame}
    (h : ∀ f ∈ fs, Sendable f) (k : Nat) :
    (drainScanner W).Bounded readerRoom (encodings encode k fs) := by
  have hS := drainScanner_follows W 449
  induction fs generalizing k with
  | nil => exact Scanner.bounded_of_stop (hS.short [] (by decide)) (Nat.zero_le _)
  | cons f fs ih =>
      have hf := h f (by simp)
      have hlen : f.payload.length ≤ 439 := hf.length
      have hroom : readerRoom = 448 := rfl
      have h10 : snHeaderLen = 10 := rfl
      have hsame : (C.frame f (UInt16.ofNat k)).payload = f.payload := rfl
      rw [encodings, hencode.fits f _ hf.fits]
      exact bounded_frame hS _ _ (hsame ▸ hf.fits) (by rw [hsame]; omega) (by rw [hsame]; omega)
        (ih (fun g hg => h g (by simp [hg])) (k + 1))

/-- **The board is called for the frames sent**, as far as the reader has got. -/
theorem reader_calls {C : HostCoding} (hencode : Encodes W C.toFrameCoding encode)
    {sent : List Frame} {chunks : List (List UInt8)} (hsent : ∀ f ∈ sent, Sendable f)
    (hchunks : ReaderChunks chunks) (hbytes : chunks.flatten <+: encodings encode 0 sent) :
    ∃ n, ((Reader.feedAll W {} chunks).calls.map C.toFrameCoding.read) = sent.take n ∧
      (chunks.flatten = encodings encode 0 sent → sent.take n = sent) := by
  obtain ⟨more, hmore⟩ := hbytes
  have hbounded : (drainScanner W).Bounded readerRoom chunks.flatten := by
    intro ps qs hsplit
    exact bounded_encodings hencode hsent 0 ps (qs ++ more)
      (by rw [← List.append_assoc, hsplit, hmore])
  have hfits : ∀ f ∈ sent, f.payload.length ≤ snMaxPayload := fun f hf => (hsent f hf).fits
  obtain ⟨n, rest, hle, hparses, hrest, hnext⟩ := hencode.parses hfits hmore
  refine ⟨n, ?_, fun hall => ?_⟩
  · rw [feedAll_run hchunks hbounded, hparses.run, List.map_map]
    refine (List.map_congr_left fun f hf => ?_).trans (List.map_id _)
    exact C.read_call (hsent f (List.mem_of_mem_take hf)).type
  · have hnone : more = [] := List.append_cancel_left (by rw [hmore, hall, List.append_nil])
    rw [hnone, List.append_nil, Nat.zero_add] at hrest
    exact List.take_of_length_le (Nat.le_of_eq (hencode.parsed_all hfits hle hrest hnext).symm)

/-! ## Replies -/

/-- The command a frame of the host is. -/
def commandIn (f : Frame) : Option UInt8 := commandOf (.hostFrame f.type f.payload)

/-- The frames of the host among the inputs. -/
def hostFramesIn (inputs : List Input) : List Frame :=
  inputs.filterMap fun
    | .hostFrame type payload => some ⟨type, payload⟩
    | _ => none

theorem commandIn_hostFramesIn (inputs : List Input) :
    (hostFramesIn inputs).filterMap commandIn = inputs.filterMap commandOf := by
  rw [hostFramesIn, List.filterMap_filterMap]
  refine List.filterMap_congr fun i _ => ?_
  cases i <;> rfl

/-- Some of the second list, with their partners. -/
theorem forall₂_sublist {α β : Type} {R : α → β → Prop} {as : List α} {bs cs : List β}
    (h : List.Forall₂ R as bs) (hs : cs.Sublist bs) :
    ∃ ds, ds.Sublist as ∧ List.Forall₂ R ds cs := by
  induction hs generalizing as with
  | slnil =>
      cases h
      exact ⟨[], .refl _, .nil⟩
  | cons b _ ih =>
      obtain _ | ⟨_, hrest⟩ := h
      obtain ⟨ds, hsub, hds⟩ := ih hrest
      exact ⟨ds, hsub.cons _, hds⟩
  | cons_cons b _ ih =>
      obtain _ | ⟨hab, hrest⟩ := h
      obtain ⟨ds, hsub, hds⟩ := ih hrest
      exact ⟨_ :: ds, hsub.cons_cons _, .cons hab hds⟩

/-- The host, the board and the two directions of the link, at one moment. Both
ends lay frames out with `encode`. -/
structure Conversation (W : WireFormat) (C : HostCoding) (encode : Encode) (p : Platform)
    (w : World) (sent : List Frame) (rx : RxPath.State) (inputs : List Input) (fw : Firmware)
    (t : Link.State) (calls : List (Frame × Bool)) : Prop where
  encodes : Encodes W C.toFrameCoding encode
  sendable : ∀ f ∈ sent, Sendable f
  uart : ∃ ls, RxPath.machine.run {} ls = some rx
  lost : rx.lost = 0
  received : rx.received <+: encodings encode 0 sent
  board : (machine p).run (boot w) inputs = some fw
  handled :
    hostFramesIn inputs <+: (Reader.feedAll W {} rx.got).calls.map C.toFrameCoding.read
  link : ∃ ls, (served encode).run ({}, []) ls = some (t, calls)
  served : calls <+: callsOf fw.outbox.log

/-- Nothing is on its way any more. -/
structure Through (W : WireFormat) (C : HostCoding) (encode : Encode) (sent : List Frame)
    (rx : RxPath.State) (inputs : List Input) (fw : Firmware) (t : Link.State)
    (calls : List (Frame × Bool)) : Prop where
  received : rx.got.flatten = encodings encode 0 sent
  handled :
    hostFramesIn inputs = (Reader.feedAll W {} rx.got).calls.map C.toFrameCoding.read
  served : calls = callsOf fw.outbox.log
  unsent : t.unsent = []

/-- No reply was refused. -/
def RepliesAccepted (calls : List (Frame × Bool)) : Prop :=
  ∀ c ∈ calls, c.1.type = .controlReply → c.2 = true

/-- Where no reply was refused, the replies accepted are those handed over. -/
theorem repliesIn_kept {calls : List (Frame × Bool)} (h : RepliesAccepted calls) :
    repliesIn (keptFrames true calls) = repliesIn (calls.map Prod.fst) := by
  induction calls with
  | nil => rfl
  | cons c calls ih =>
      obtain ⟨f, ok⟩ := c
      have hrest := ih fun d hd => h d (by simp [hd])
      have hone := h (f, ok) (by simp)
      simp only [repliesIn, keptFrames, beq_true] at hrest ⊢
      cases ok with
      | true => simp [List.filter_cons, hrest]
      | false =>
          have hother : f.type ≠ .controlReply := fun htype => by simpa using hone htype
          simp [hother, hrest]

section Replies

variable {C : HostCoding} {w : World} {sent : List Frame} {rx : RxPath.State}
  {inputs : List Input} {fw : Firmware} {t : Link.State} {calls : List (Frame × Bool)}

/-- The board has handled the beginning of what was sent. -/
theorem Conversation.inputs_prefix (h : Conversation W C encode p w sent rx inputs fw t calls) :
    hostFramesIn inputs <+: sent := by
  obtain ⟨ls, hrun⟩ := h.uart
  obtain ⟨hsound, hqueued⟩ := RxPath.run_sound hrun
  have hgot := (RxPath.got_received hsound hqueued h.lost).trans h.received
  obtain ⟨n, hcalls, _⟩ := reader_calls h.encodes h.sendable hqueued.chunks hgot
  exact (hcalls ▸ h.handled).trans (List.take_prefix n sent)

/-- With nothing on its way, it has handled all of it. -/
theorem Conversation.inputs_all (h : Conversation W C encode p w sent rx inputs fw t calls)
    (hthrough : Through W C encode sent rx inputs fw t calls) : hostFramesIn inputs = sent := by
  obtain ⟨ls, hrun⟩ := h.uart
  obtain ⟨hsound, hqueued⟩ := RxPath.run_sound hrun
  have hgot := (RxPath.got_received hsound hqueued h.lost).trans h.received
  obtain ⟨n, hcalls, hall⟩ := reader_calls h.encodes h.sendable hqueued.chunks hgot
  rw [hthrough.handled, hcalls, hall hthrough.received]

/-- What was handed over answers what was handled. -/
theorem Conversation.replies (h : Conversation W C encode p w sent rx inputs fw t calls) :
    List.Forall₂ (RepliesTo p) ((hostFramesIn inputs).filterMap commandIn)
      (repliesIn fw.outbox.frames) := by
  obtain ⟨handed, hframes, hhands⟩ := hands_run h.board
  rw [commandIn_hostFramesIn, hframes]
  exact repliesIn_flatten hhands

/-- The host reads the beginning of what the link accepted. -/
theorem Conversation.reads (h : Conversation W C encode p w sent rx inputs fw t calls) :
    ∃ n, hostReads W C.toFrameCoding t.wire = (keptFrames true calls).take n ∧
      (t.unsent = [] → (keptFrames true calls).take n = keptFrames true calls) := by
  obtain ⟨ls, hlink⟩ := h.link
  have hledger : Ledger p fw.outbox := (machine p).run_invariant
    (fun _ _ _ hl hs => step_ledger hl hs) (ledger_boot p w) h.board
  obtain ⟨n, _, hreads, hall⟩ :=
    h.encodes.hostReads_take (served_run hlink) (accepted_types hlink h.served hledger.types)
  rw [served_accepted hlink] at hreads hall
  exact ⟨n, hreads, fun hempty => List.take_of_length_le (Nat.le_of_eq (hall hempty).symm)⟩

/-- **Commands are answered, end to end.** At any moment, through any order of
bytes, buffers, reader turns, inputs of the other threads and turns of the
link, as long as the UART lost no byte: the board has handled the beginning of
what the host sent, nothing else and nothing twice; the host's reader finds
replies to commands the host sent, in their order, each with the command's id
and a status of the four; while no reply is refused those are its first
commands; and once nothing is on its way, all of them. -/
theorem commands_answered (h : Conversation W C encode p w sent rx inputs fw t calls) :
    hostFramesIn inputs <+: sent ∧
    ∃ answered, answered.Sublist (sent.filterMap commandIn) ∧
      List.Forall₂ (RepliesTo p) answered (repliesIn (hostReads W C.toFrameCoding t.wire)) ∧
      (RepliesAccepted calls → answered <+: sent.filterMap commandIn) ∧
      (RepliesAccepted calls → Through W C encode sent rx inputs fw t calls →
        answered = sent.filterMap commandIn) := by
  have hhandled := h.inputs_prefix
  refine ⟨hhandled, ?_⟩
  have hids := hhandled.filterMap commandIn
  obtain ⟨n, hreads, hall⟩ := h.reads
  have hhanded : calls.map Prod.fst <+: fw.outbox.frames := by
    have hlog : (callsOf fw.outbox.log).map Prod.fst = fw.outbox.frames := by
      simp [callsOf, Outbox.frames, Function.comp_def]
    exact hlog ▸ h.served.map Prod.fst
  by_cases haccepted : RepliesAccepted calls
  · -- the replies read are the first of those handed over
    have hfirst : repliesIn (hostReads W C.toFrameCoding t.wire) <+: repliesIn fw.outbox.frames := by
      rw [hreads]
      refine ((List.take_prefix n _).filter _).trans ?_
      have hkept := repliesIn_kept haccepted
      unfold repliesIn at hkept ⊢
      rw [hkept]
      exact hhanded.filter _
    obtain ⟨later, hlater⟩ := hfirst
    refine ⟨((hostFramesIn inputs).filterMap commandIn).take
      (repliesIn (hostReads W C.toFrameCoding t.wire)).length,
      ((List.take_prefix _ _).trans hids).sublist, ?_,
      fun _ => (List.take_prefix _ _).trans hids, fun _ hthrough => ?_⟩
    · have htake := List.forall₂_take (repliesIn (hostReads W C.toFrameCoding t.wire)).length
        h.replies
      rwa [← hlater, List.take_left] at htake
    · have hwhole : repliesIn (hostReads W C.toFrameCoding t.wire) = repliesIn fw.outbox.frames := by
        rw [hreads, hall hthrough.unsent, repliesIn_kept haccepted, hthrough.served]
        simp [callsOf, Outbox.frames, Function.comp_def]
      rw [hwhole, ← h.replies.length_eq, List.take_length, h.inputs_all hthrough]
  · have hsome : (repliesIn (hostReads W C.toFrameCoding t.wire)).Sublist
        (repliesIn fw.outbox.frames) := by
      rw [hreads]
      have hkept : (keptFrames true calls).Sublist (calls.map Prod.fst) :=
        List.filter_sublist.map _
      exact (((List.take_sublist n _).trans hkept).trans hhanded.sublist).filter _
    obtain ⟨answered, hsub, hanswers⟩ := forall₂_sublist h.replies hsome
    exact ⟨answered, hsub.trans hids.sublist, hanswers, fun hno => absurd hno haccepted,
      fun hno => absurd hno haccepted⟩

end Replies

/-- The plain coding, for both directions. -/
def plainHostCoding : HostCoding := { plainCoding with type_host := by decide }

/-- And its layout. -/
def hostEncode : Encode := plainEncode ccittFormat plainCoding

/-- One GET_INFO, all the way there and back. -/
theorem commands_answered_one :
    let sent : List Frame := [⟨.controlCmd, [1, 0, 0, 0, 0]⟩]
    ∃ (rx : RxPath.State) (fw : Firmware) (t : Link.State) (calls : List (Frame × Bool)),
      Conversation ccittFormat plainHostCoding hostEncode plainPlatform calmWorld sent rx
        [.hostFrame .controlCmd [1, 0, 0, 0, 0]] fw t calls ∧
      List.Forall₂ (RepliesTo plainPlatform) [1]
        (repliesIn (hostReads ccittFormat plainCoding t.wire)) := by
  intro sent
  let bytes := encodings hostEncode 0 sent
  let reply : Frame := ⟨.controlReply, Control.replyPayload plainPlatform 1 .ok snFirmwareVersion⟩
  have huart : (RxPath.machine.run {} (.request :: bytes.map .arrive ++ [.rdy 15, .get 15])).any
      (fun rx => rx.got.flatten == bytes && rx.received == bytes && rx.lost == 0 &&
        (Reader.feedAll ccittFormat {} rx.got).calls.map plainCoding.read == sent) = true := by
    decide +kernel
  have hboard : ((machine plainPlatform).run (boot calmWorld)
      [.hostFrame .controlCmd [1, 0, 0, 0, 0]]).any
      (fun fw => callsOf fw.outbox.log == [(reply, true)]) = true := by decide +kernel
  have hlink : ((served hostEncode).run ({}, [])
      ([.send reply, .put, .measure] ++ sendOut 16)).any
      (fun s => s.2 == [(reply, true)] && s.1.unsent == []) = true := by decide +kernel
  obtain ⟨rx, hrx, hbytes⟩ := (Option.any_eq_true _ _).mp huart
  obtain ⟨fw, hfw, hlog⟩ := (Option.any_eq_true _ _).mp hboard
  obtain ⟨⟨t, calls⟩, ht, hsent⟩ := (Option.any_eq_true _ _).mp hlink
  simp only [Bool.and_eq_true, beq_iff_eq] at hbytes hlog hsent
  obtain ⟨⟨⟨hgot, hreceived⟩, hlost⟩, hcalls⟩ := hbytes
  obtain ⟨rfl, hunsent⟩ := hsent
  have hconversation : Conversation ccittFormat plainHostCoding hostEncode plainPlatform calmWorld
      sent rx [.hostFrame .controlCmd [1, 0, 0, 0, 0]] fw t [(reply, true)] := {
    encodes := plainEncode_encodes _ _
    sendable := by
      intro f hf
      rw [List.mem_singleton.mp hf]
      exact ⟨by decide, by decide⟩
    uart := ⟨_, hrx⟩
    lost := hlost
    received := hreceived ▸ List.prefix_refl _
    board := hfw
    handled := by
      have hsame : (Reader.feedAll ccittFormat {} rx.got).calls.map plainCoding.read = sent := hcalls
      exact hsame ▸ List.prefix_refl _
    link := ⟨_, ht⟩
    served := hlog ▸ List.prefix_refl _ }
  have hthrough : Through ccittFormat plainHostCoding hostEncode sent rx
      [.hostFrame .controlCmd [1, 0, 0, 0, 0]] fw t [(reply, true)] :=
    ⟨hgot, hcalls.symm, hlog.symm, hunsent⟩
  obtain ⟨_, answered, _, hanswers, _, hall⟩ := commands_answered hconversation
  have hone : answered = [1] := hall (by simp [RepliesAccepted]) hthrough
  rw [hone] at hanswers
  exact ⟨rx, fw, t, _, hconversation, hanswers⟩

end Nrf54Sniffer.Board
