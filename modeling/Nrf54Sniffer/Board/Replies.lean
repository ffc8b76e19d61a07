/-
Nrf54Sniffer.Board.Replies — exactly one reply for each command, in order.

A command's moves hand over batches and nothing else, and the reply comes after
them; the other threads hand over batches, STATS, LINK and LOG frames. So what
one input hands over (`Hands`) says which replies there are, and a run hands
over what its inputs do, one after another.
-/
import Mathlib.Data.List.Forall2
import Nrf54Sniffer.Ble.ControllerTheorems
import Nrf54Sniffer.Board.Moves

namespace Nrf54Sniffer.Board

open Nrf54Sniffer.Lib
open Nrf54Sniffer.Wire
open Nrf54Sniffer.Radio154
open Nrf54Sniffer.Ble
open Nrf54Sniffer.Control

variable {p : Platform} {E : Radio → UInt8 → UInt32 → Prop}

/-- A batch, or one packet of it. -/
def IsData (f : Frame) : Prop := f.type.carriesPackets = true

/-- No reply. -/
def NoReply (f : Frame) : Prop := f.type ≠ .controlReply

theorem IsData.noReply {f : Frame} (h : IsData f) : NoReply f := by
  intro hreply
  rw [IsData, hreply] at h
  cases h

/-! ## The 802.15.4 batch -/

theorem flushLocked_adds {b b' : Batch.Batcher} {o o' : Outbox}
    (h : Batch.flushLocked b o = some (b', o')) : o.Adds IsData o' := by
  obtain ⟨data, hframes, _, _, htypes⟩ := flushLocked_sends h
  exact ⟨data, hframes, htypes⟩

theorem closeEarly_adds {b b' : Batch.Batcher} {o o' : Outbox} {packet : Batch.Packet} {len : Nat}
    (h : Batch.closeEarly b o packet len = some (b', o')) : o.Adds IsData o' := by
  unfold Batch.closeEarly at h
  split at h
  · exact flushLocked_adds h
  · cases h
    exact .refl o

theorem snBatchAdd_adds {b b' : Batch.Batcher} {o o' : Outbox} {packet : Batch.Packet}
    (h : Batch.snBatchAdd b o packet = some (b', o')) : o.Adds IsData o' := by
  simp only [Batch.snBatchAdd, Option.bind_eq_bind, Option.bind_eq_some_iff] at h
  obtain ⟨⟨b₁, o₁⟩, hclose, b₂, _, h⟩ := h
  have hclosed := closeEarly_adds hclose
  split at h
  · obtain ⟨⟨b₃, o₃⟩, hflush, heq⟩ := Option.bind_eq_some_iff.mp h
    cases heq
    exact hclosed.trans (flushLocked_adds hflush)
  · cases h
    exact hclosed

/-! ## The BLE batch -/

theorem bleFlushLocked_adds {s s' : BleRadio} {o o' : Outbox}
    (h : bleFlushLocked s o = some (s', o')) : o.Adds IsData o' := by
  unfold bleFlushLocked at h
  split at h
  · cases h
    exact .refl o
  · split at h
    · simp only [bleFlushOne, sendAlone, Option.bind_eq_bind, Option.bind_eq_some_iff] at h
      obtain ⟨_, _, _, _, _, ⟨_, _, _, _, _, _, hsent⟩, heq⟩ := h
      cases hsent
      cases heq
      exact Outbox.adds_send o rfl
    · simp only [bleFlushMany, Option.bind_eq_bind, Option.bind_eq_some_iff] at h
      obtain ⟨_, _, _, _, heq⟩ := h
      cases heq
      exact Outbox.adds_send o rfl

theorem appendLocked_adds {s s' : BleRadio} {o o' : Outbox} {packet : Sized}
    (h : appendLocked s o packet = some (s', o')) : o.Adds IsData o' := by
  simp only [appendLocked, Option.bind_eq_bind, Option.bind_eq_some_iff] at h
  obtain ⟨⟨s₁, o₁⟩, hclose, batch, _, h⟩ := h
  have hclosed : o.Adds IsData o₁ := by
    unfold Ble.closeEarly at hclose
    split at hclose
    · exact bleFlushLocked_adds hclose
    · cases hclose
      exact .refl o
  split at h
  · obtain ⟨⟨s₂, o₂⟩, hflush, heq⟩ := Option.bind_eq_some_iff.mp h
    cases heq
    exact hclosed.trans (bleFlushLocked_adds hflush)
  · cases h
    exact hclosed

/-! ## Moves and turns -/

theorem Move.adds {fw fw' : Firmware} (h : Move E fw fw') : fw.outbox.Adds IsData fw'.outbox := by
  cases h with
  | flush h =>
      obtain ⟨data, hframes, _, _, htypes⟩ := flushBatch_sends h
      exact ⟨data, hframes, htypes⟩
  | stopBle h => exact bleFlushLocked_adds h
  | hci h =>
      obtain ⟨_, _, _, _, rfl⟩ := h
      exact .refl _
  | radio _ => exact .refl _
  | selected _ => exact .refl _
  | phys _ => exact .refl _
  | timing _ _ => exact .refl _
  | periodic _ => exact .refl _
  | antenna _ => exact .refl _
  | counters => exact .refl fw.outbox
  | scan => exact .refl _

theorem receive_adds {fw fw' : Firmware} {pkt : Option NetPkt} (h : receive fw pkt = some fw') :
    fw.outbox.Adds IsData fw'.outbox := by
  obtain ⟨⟨radio, batcher, outbox, err⟩, hrecv, heq⟩ := Option.map_eq_some_iff.mp h
  cases heq
  unfold netRecvData at hrecv
  split at hrecv
  · cases hrecv
    exact .refl _
  · split at hrecv
    · cases hrecv
      exact .refl _
    · split at hrecv
      · cases hrecv
        exact .refl _
      · obtain ⟨⟨b, o⟩, hadd, heq⟩ := Option.map_eq_some_iff.mp hrecv
        cases heq
        exact snBatchAdd_adds hadd

theorem fwdLoop_adds {fw fw' : Firmware} {h4 : UInt8} {data : List UInt8} {now : Readings}
    (h : fwdLoop fw h4 data now = some fw') : fw.outbox.Adds IsData fw'.outbox := by
  obtain ⟨slot, _, h⟩ := Option.bind_eq_some_iff.mp h
  split at h
  · obtain ⟨⟨ble, outbox⟩, hforward, heq⟩ := Option.map_eq_some_iff.mp h
    cases heq
    obtain ⟨_, _, happend⟩ := Option.bind_eq_some_iff.mp hforward
    exact appendLocked_adds happend
  · cases h
    exact .refl _

theorem Turn.adds {fw fw' : Firmware} (h : Turn fw fw') : fw.outbox.Adds NoReply fw'.outbox := by
  cases h with
  | receive h => exact (receive_adds h).mono fun _ => IsData.noReply
  | packet h => exact (fwdLoop_adds h).mono fun _ => IsData.noReply
  | batchLinger h =>
      obtain ⟨⟨batcher, outbox⟩, hflush, heq⟩ := Option.map_eq_some_iff.mp h
      cases heq
      exact (flushLocked_adds hflush).mono fun _ => IsData.noReply
  | bleLinger h =>
      obtain ⟨⟨ble, outbox⟩, hflush, heq⟩ := Option.map_eq_some_iff.mp h
      cases heq
      exact (bleFlushLocked_adds hflush).mono fun _ => IsData.noReply
  | radioEvent _ => exact .refl _
  | hci h =>
      obtain ⟨_, _, _, _, rfl⟩ := h
      exact .refl _
  | follow _ => exact .refl _
  | tick _ => exact .refl _
  | send f hf =>
      refine Outbox.adds_send _ ?_
      intro hreply
      rw [hreply] at hf
      rcases hf with hf | hf | hf
      · cases hf
      · cases hf
      · cases hf

theorem moves_adds {fw fw' : Firmware} (h : Moves E fw fw') : fw.outbox.Adds IsData fw'.outbox :=
  row_keeps (R := fun fw fw' => fw.outbox.Adds IsData fw'.outbox) (fun fw => .refl fw.outbox)
    Outbox.Adds.trans Move.adds h

theorem turns_adds {fw fw' : Firmware} (h : Turns fw fw') : fw.outbox.Adds NoReply fw'.outbox :=
  row_keeps (R := fun fw fw' => fw.outbox.Adds NoReply fw'.outbox) (fun fw => .refl fw.outbox)
    Outbox.Adds.trans Turn.adds h

theorem snRadioBleSetKeys_outbox {fw fw' : Firmware} {payload : List UInt8} {err : Int}
    (h : snRadioBleSetKeys fw payload = some (fw', err)) : fw'.outbox = fw.outbox := by
  obtain ⟨line, rfl⟩ | ⟨keys, keyCount, _, rfl⟩ := snRadioBleSetKeys_cases h
  · rfl
  · rfl

/-! ## One input -/

/-- The id of a command the input is: five bytes at least. -/
def commandOf : Input → Option UInt8
  | .hostFrame .controlCmd (command :: _ :: _ :: _ :: _ :: _) => some command
  | _ => none

/-- A reply to the command, with one of the four statuses. -/
def RepliesTo (p : Platform) (command : UInt8) (f : Frame) : Prop :=
  ∃ status value, f = ⟨.controlReply, replyPayload p command status value⟩

/-- What an input hands to the link: a command hands over data and then one
reply, any other frame of the host nothing, and the rest no reply. -/
def Hands (p : Platform) (i : Input) (sent : List Frame) : Prop :=
  match commandOf i with
  | some command => ∃ data f, sent = data ++ [f] ∧ (∀ g ∈ data, IsData g) ∧ RepliesTo p command f
  | none => (∀ f ∈ sent, NoReply f) ∧ ∀ type payload, i = .hostFrame type payload → sent = []

theorem commandOf_short {type : FrameType} {payload : List UInt8}
    (h : type = .controlCmd → payload.length < 5) : commandOf (.hostFrame type payload) = none := by
  unfold commandOf
  split
  · rename_i heq
    cases heq
    have hlen := h rfl
    simp only [List.length_cons] at hlen
    omega
  · rfl

theorem hands_step {fw fw' : Firmware} {i : Input} (h : step p fw i = some fw') :
    ∃ sent, fw'.outbox.frames = fw.outbox.frames ++ sent ∧ Hands p i sent := by
  have hnothing : ∀ type payload, commandOf (.hostFrame type payload) = none →
      fw'.outbox = fw.outbox → ∃ sent, fw'.outbox.frames = fw.outbox.frames ++ sent ∧
        Hands p (.hostFrame type payload) sent := by
    intro type payload hnone hsame
    refine ⟨[], by rw [hsame, List.append_nil], ?_⟩
    unfold Hands
    rw [hnone]
    exact ⟨by simp, fun _ _ _ => rfl⟩
  cases i with
  | hostFrame type payload =>
      cases snControlHandle_handled h with
      | filter payload => exact hnothing _ _ rfl rfl
      | keys hset => exact hnothing _ _ rfl (snRadioBleSetKeys_outbox hset)
      | command hcommand =>
          obtain ⟨fw₁, status, value, hmoves, rfl⟩ :=
            onCommand_replied (E := fun _ _ _ => True) (fun _ _ => trivial) hcommand
          obtain ⟨data, hframes, hdata⟩ := moves_adds hmoves
          refine ⟨data ++ [_], ?_, data, _, rfl, hdata, status, value, rfl⟩
          rw [← List.append_assoc, ← hframes]
          exact Outbox.send_frames _ _
      | ignored _ _ hshort => exact hnothing _ _ (commandOf_short hshort) rfl
  | _ =>
      obtain ⟨sent, hframes, hsent⟩ :=
        turns_adds (step_turns (fun type payload heq => by cases heq) h)
      exact ⟨sent, hframes, hsent, fun type payload heq => by cases heq⟩

/-! ## Every run -/

/-- The replies among some frames. -/
def repliesIn (frames : List Frame) : List Frame := frames.filter (·.type = .controlReply)

/-- What an input hands over has the reply to the command it is, and no
other. -/
theorem repliesIn_hands {i : Input} {sent : List Frame} (h : Hands p i sent) :
    List.Forall₂ (RepliesTo p) (commandOf i).toList (repliesIn sent) := by
  unfold Hands at h
  cases hcommand : commandOf i with
  | none =>
      rw [hcommand] at h
      have hnone : repliesIn sent = [] :=
        List.filter_eq_nil_iff.mpr fun f hf => by simpa [NoReply] using h.1 f hf
      rw [hnone]
      exact .nil
  | some command =>
      rw [hcommand] at h
      obtain ⟨data, f, rfl, hdata, hreplies⟩ := h
      have hnone : repliesIn data = [] :=
        List.filter_eq_nil_iff.mpr fun g hg => by simpa [NoReply] using (hdata g hg).noReply
      have hone : repliesIn [f] = [f] := by
        obtain ⟨status, value, rfl⟩ := hreplies
        rfl
      unfold repliesIn at hnone hone ⊢
      rw [List.filter_append, hnone, hone]
      exact .cons hreplies .nil

/-- A run hands over what its inputs do. -/
theorem hands_run {fw fw' : Firmware} {inputs : List Input}
    (hrun : (machine p).run fw inputs = some fw') :
    ∃ sent, fw'.outbox.frames = fw.outbox.frames ++ sent.flatten ∧
      List.Forall₂ (Hands p) inputs sent := by
  induction inputs generalizing fw with
  | nil =>
      cases hrun
      exact ⟨[], (List.append_nil _).symm, .nil⟩
  | cons i inputs ih =>
      obtain ⟨fw₁, hstep, hrest⟩ := (machine p).run_cons_eq_some.mp hrun
      obtain ⟨first, hframes, hfirst⟩ := hands_step hstep
      obtain ⟨sent, hframes', hsent⟩ := ih hrest
      refine ⟨first :: sent, ?_, .cons hfirst hsent⟩
      rw [hframes', hframes, List.append_assoc, List.flatten_cons]

theorem repliesIn_flatten {inputs : List Input} {sent : List (List Frame)}
    (h : List.Forall₂ (Hands p) inputs sent) :
    List.Forall₂ (RepliesTo p) (inputs.filterMap commandOf) (repliesIn sent.flatten) := by
  induction h with
  | nil => exact .nil
  | @cons i first inputs sent hfirst _ ih =>
      have hone := repliesIn_hands hfirst
      have hsplit : (i :: inputs).filterMap commandOf
          = (commandOf i).toList ++ inputs.filterMap commandOf := by
        rw [List.filterMap_cons]
        cases commandOf i with
        | none => rfl
        | some command => rfl
      have hboth : repliesIn (first :: sent).flatten = repliesIn first ++ repliesIn sent.flatten :=
        List.filter_append _ _
      rw [hsplit, hboth]
      exact List.rel_append hone ih

/-! ## Every frame is handled -/

theorem flushBatch_total {fw : Firmware} (h : BatchesHold fw) :
    ∃ fw', flushBatch fw = some fw' := by
  obtain ⟨ks, hrep, _⟩ := h.batch
  obtain ⟨b, o, hflush, _⟩ := Batch.snBatchFlush_spec hrep fw.outbox
  exact ⟨{ fw with batcher := b, outbox := o }, by rw [flushBatch, hflush, Option.map_some]⟩

theorem stopBoth_total {fw : Firmware} (h : BatchesHold fw) : ∃ fw', stopBoth fw = some fw' := by
  obtain ⟨fw₁, err₁, hfirst⟩ := stopRadio_total h radio154
  obtain ⟨fw₂, err₂, hsecond⟩ := stopRadio_total (stopRadio_holds h hfirst) radioBle
  refine ⟨fw₂, ?_⟩
  rw [stopBoth, hfirst, Option.bind_some]
  exact congrArg (Option.map Prod.fst) hsecond

theorem onSetRadio_total {fw : Firmware} (h : BatchesHold fw) (command : UInt8) (value : UInt32) :
    ∃ fw', onSetRadio p fw command value = some fw' := by
  unfold onSetRadio
  split
  · exact ⟨_, rfl⟩
  · split
    · obtain ⟨fw₁, err, hstop⟩ := stopRadio_total h fw.selectedRadio
      exact ⟨_, by rw [hstop, Option.map_some, Option.map_some]⟩
    · exact ⟨_, rfl⟩

theorem onSetChannel_total {fw : Firmware} (h : BatchesHold fw) (command : UInt8)
    (value : UInt32) : ∃ fw', onSetChannel p fw command value = some fw' := by
  unfold onSetChannel
  split
  · exact ⟨_, rfl⟩
  · obtain ⟨fw₁, hflush⟩ := flushBatch_total h
    exact ⟨_, by rw [hflush, Option.map_some]⟩

theorem onCommand_total {fw : Firmware} (h : BatchesHold fw) (command : UInt8) (value : UInt32) :
    ∃ fw', onCommand p fw command value = some fw' := by
  unfold onCommand
  cases p.command command with
  | setRadio => exact onSetRadio_total h command value
  | setChannel => exact onSetChannel_total h command value
  | stop =>
      obtain ⟨fw₁, err, hstop⟩ := stopRadio_total h fw.selectedRadio
      exact ⟨_, by rw [onStop, hstop, Option.map_some]⟩
  | getInfo =>
      obtain ⟨fw₁, hboth⟩ := stopBoth_total h
      exact ⟨_, by rw [onGetInfo, hboth, Option.map_some]⟩
  | setBlePhys | setBlePeriodic | setBleScan | start | setAntenna | energyDetect | unknown =>
      exact ⟨_, rfl⟩

theorem snControlHandle_total {fw : Firmware} (h : BatchesHold fw) (type : FrameType)
    (payload : List UInt8) : ∃ fw', snControlHandle p fw type payload = some fw' := by
  unfold snControlHandle
  split
  · exact ⟨_, rfl⟩
  · cases hformed : wellFormed payload with
    | true =>
        obtain ⟨keys, _, _, hset⟩ := snRadioBleSetKeys_wellFormed hformed fw
        exact ⟨_, by rw [hset, Option.map_some]⟩
    | false =>
        obtain ⟨line, err, hset⟩ := snRadioBleSetKeys_malformed hformed fw
        exact ⟨_, by rw [hset, Option.map_some]⟩
  · exact onCommand_total h _ _
  · exact ⟨_, rfl⟩

/-- The frames the host sends, as inputs. -/
def hostFrames (frames : List (FrameType × List UInt8)) : List Input :=
  frames.map fun f => .hostFrame f.1 f.2

theorem hostFrames_total {fw : Firmware} (h : BatchesHold fw)
    (frames : List (FrameType × List UInt8)) :
    ∃ fw', (machine p).run fw (hostFrames frames) = some fw' := by
  induction frames generalizing fw with
  | nil => exact ⟨fw, rfl⟩
  | cons f frames ih =>
      obtain ⟨fw₁, hstep⟩ := snControlHandle_total (p := p) h f.1 f.2
      obtain ⟨fw', hrest⟩ := ih (snControlHandle_holds h hstep)
      exact ⟨fw', (machine p).run_cons_eq_some.mpr ⟨fw₁, hstep, hrest⟩⟩

/-- **Exactly one reply for each command, in order.** Every row of frames is
handled in every reachable state. And however a run goes on from whatever
state, with the other threads at work between the frames, each input hands over
what it may, one input after another: data before the reply of its command, and
no reply but the ones to the commands. -/
theorem one_reply_per_command (p : Platform) :
    (∀ fw, Reachable p fw → ∀ frames, ∃ fw', (machine p).run fw (hostFrames frames) = some fw') ∧
    ∀ fw fw' inputs, (machine p).run fw inputs = some fw' →
      ∃ sent, fw'.outbox.frames = fw.outbox.frames ++ sent.flatten ∧
        List.Forall₂ (Hands p) inputs sent ∧
        List.Forall₂ (RepliesTo p) (inputs.filterMap commandOf) (repliesIn sent.flatten) := by
  refine ⟨fun fw hreach frames => hostFrames_total hreach.batchesHold frames, ?_⟩
  intro fw fw' inputs hrun
  obtain ⟨sent, hframes, hsent⟩ := hands_run hrun
  exact ⟨sent, hframes, hsent, repliesIn_flatten hsent⟩

/-- START, a frame too short to be a command, and STOP: two replies. -/
theorem one_reply_per_command_start_stop :
    ∃ fw, (machine plainPlatform).run (boot calmWorld) (hostFrames
        [(.controlCmd, [2, 0, 0, 0, 0]), (.controlCmd, [3, 0]), (.controlCmd, [3, 0, 0, 0, 0])])
          = some fw ∧
      List.Forall₂ (RepliesTo plainPlatform) [2, 3] (repliesIn fw.outbox.frames) := by
  have hreach : Reachable plainPlatform (boot calmWorld) := ⟨calmWorld, [], rfl⟩
  obtain ⟨hhandled, hanswered⟩ := one_reply_per_command plainPlatform
  obtain ⟨fw, hrun⟩ := hhandled _ hreach
    [(.controlCmd, [2, 0, 0, 0, 0]), (.controlCmd, [3, 0]), (.controlCmd, [3, 0, 0, 0, 0])]
  obtain ⟨sent, hframes, _, hreplies⟩ := hanswered _ _ _ hrun
  exact ⟨fw, hrun, hframes ▸ hreplies⟩

end Nrf54Sniffer.Board
