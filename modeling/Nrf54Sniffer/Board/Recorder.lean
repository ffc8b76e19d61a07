/-
Nrf54Sniffer.Board.Recorder — what a host records of the whole board.

Two radios, two batches, one link: packets of either radio go into its batch,
and what the batches close into is handed to the link among replies, counters
and log lines. `Chronicle` follows each radio's packets through all of it: the
frames handed over so far are each one radio's or the board's own, and for
either radio its frames and its open batch are the packets it was given
(`packetsOf`), in order. Every input keeps it (`step_records`), whatever the
link, the driver and the controller answer.

At the other end are the link's threads and the host's reader. So for any run of
the board and any interleaving of the link, what the host has read are packets
of the radios, in order and each once, and of the others it can be said where
they are.
-/
import Nrf54Sniffer.Board.Audit
import Nrf54Sniffer.Board.CaptureDelivery
import Nrf54Sniffer.Lib.MergedStreams

namespace Nrf54Sniffer.Board

open Nrf54Sniffer.Lib
open Nrf54Sniffer.Wire
open Nrf54Sniffer.Radio154
open Nrf54Sniffer.Ble
open Nrf54Sniffer.Control

variable {p : Platform} {E : Radio → UInt8 → UInt32 → Prop}

/-! ## The packets of a run -/

/-- Whose frame it is. -/
inductive Source where
  | ieee
  | ble
  | board
  deriving DecidableEq, Repr

/-- Packets of the two radios, as a host should record them. -/
structure Packets where
  ieee : List Batch.Recorded := []
  ble : List Ble.Recorded := []

def Packets.append (a b : Packets) : Packets := ⟨a.ieee ++ b.ieee, a.ble ++ b.ble⟩

@[simp] theorem Packets.append_none (a : Packets) : a.append {} = a := by
  simp [Packets.append]

theorem Packets.append_assoc (a b c : Packets) :
    (a.append b).append c = a.append (b.append c) := by
  simp [Packets.append]

/-- The packet an input brings, if its radio's capture takes it. -/
def packetsOf (fw : Firmware) : Input → Packets
  | .received (some pkt) =>
      if pkt.psdu = [] then {}
      else if !fw.radio.takes then {}
      else { ieee := [(fw.radio.packetOf pkt).recorded] }
  | .hciPacket h4 data now =>
      if fw.ble.running && captures h4 data then { ble := [forwardedRecord h4 data now] } else {}
  | _ => {}

/-- The board, with the packets so far beside it. -/
def recorder (p : Platform) : Machine (Firmware × Packets) Input :=
  (machine p).withGhost fun fw i packets => packets.append (packetsOf fw i)

/-! ## The chronicle -/

/-- The frames handed over are each someone's, and what either radio was given
is in its frames and its open batch. -/
structure Chronicle (fw : Firmware) (sent : List (Source × Frame)) (packets : Packets) : Prop where
  frames : fw.outbox.frames = sent.map Prod.snd
  ieee : ∃ ks, Batch.Rep fw.batcher ks ∧ ks.length < Batch.maxEntries ∧
    Forwards (readOwn .ieee Batch.decodeFrame) (fun _ => True) [] sent []
      (ks.map Batch.Kept.recorded) packets.ieee
  ble : ∃ ks, Ble.Rep fw.ble.batch ks ∧ ks.length < bleMaxEntries ∧
    Forwards (readOwn .ble Ble.decodeFrame) (fun _ => True) [] sent []
      (ks.map Ble.Kept.recorded) packets.ble
  board : ∀ c ∈ sent, c.1 = .board → c.2.type.carriesPackets = false

theorem chronicle_boot (w : World) : Chronicle (boot w) [] {} where
  frames := rfl
  ieee := ⟨[], Batch.rep_initial, by decide, .refl _ _⟩
  ble := ⟨[], Ble.rep_initial, by decide, .refl _ _⟩
  board := by simp

theorem Chronicle.board_append {fw : Firmware} {sent : List (Source × Frame)} {packets : Packets}
    (hc : Chronicle fw sent packets) {me : Source} {fs : List Frame}
    (hnew : me = .board → ∀ f ∈ fs, f.type.carriesPackets = false) :
    ∀ c ∈ sent ++ sentBy me fs, c.1 = .board → c.2.type.carriesPackets = false :=
  forall_append_sentBy (P := fun f : Frame => f.type.carriesPackets = false) hc.board hnew

/-- Some work that takes these packets in. -/
def Records (fw fw' : Firmware) (new : Packets) : Prop :=
  ∀ sent packets, Chronicle fw sent packets →
    ∃ more, Chronicle fw' (sent ++ more) (packets.append new)

theorem Records.trans {fw fw' fw'' : Firmware} {new new' : Packets} (h : Records fw fw' new)
    (h' : Records fw' fw'' new') : Records fw fw'' (new.append new') := by
  intro sent packets hc
  obtain ⟨more, hc⟩ := h sent packets hc
  obtain ⟨more', hc⟩ := h' _ _ hc
  exact ⟨more ++ more', by rw [← List.append_assoc, ← Packets.append_assoc]; exact hc⟩

/-- The board's own frames, and no batch touched. -/
theorem Records.aside {fw fw' : Firmware} (hsame : SameBatches fw fw')
    (hadds : ∃ new, fw'.outbox.frames = fw.outbox.frames ++ new ∧
      ∀ f ∈ new, f.type.carriesPackets = false) : Records fw fw' {} := by
  intro sent packets hc
  obtain ⟨new, hframes, hplain⟩ := hadds
  obtain ⟨ks, hrep, hlt, hieee⟩ := hc.ieee
  obtain ⟨ls, hrep', hlt', hble⟩ := hc.ble
  refine ⟨sentBy .board new, ?_, ?_, ?_, ?_⟩
  · rw [hframes, hc.frames, List.map_append, sentBy_frames]
  · refine ⟨ks, by rw [hsame.batch]; exact hrep, hlt, ?_⟩
    exact hieee.trans (.other (by decide) sent new)
  · refine ⟨ls, by rw [hsame.ble]; exact hrep', hlt', ?_⟩
    exact hble.trans (.other (by decide) sent new)
  · exact hc.board_append fun _ => hplain

/-- Nothing of the captures touched. -/
theorem Records.silent {fw fw' : Firmware} (hsame : SameBatches fw fw')
    (hframes : fw'.outbox.frames = fw.outbox.frames) : Records fw fw' {} :=
  .aside hsame ⟨[], by simp [hframes], by simp⟩

/-- Work of `batch.c`. -/
theorem Records.ieee {fw fw' : Firmware} {new : List Batch.Recorded}
    (hble : fw'.ble.batch = fw.ble.batch)
    (h : ∀ ks, Batch.Rep fw.batcher ks → ks.length < Batch.maxEntries →
      ∃ ks', Batch.Advances fw.outbox ks fw'.batcher fw'.outbox ks' new) :
    Records fw fw' { ieee := new } := by
  intro sent packets hc
  obtain ⟨ks, hrep, hlt, hieee⟩ := hc.ieee
  obtain ⟨ls, hrep', hlt', hother⟩ := hc.ble
  obtain ⟨ks', hadv⟩ := h ks hrep hlt
  obtain ⟨fs, hframes, hown⟩ := hadv.forwards.own Source.ieee
  refine ⟨sentBy .ieee fs, ?_, ⟨ks', hadv.rep, hadv.below, hieee.trans (hown sent)⟩, ?_, ?_⟩
  · rw [hframes, hc.frames, List.map_append, sentBy_frames]
  · exact ⟨ls, by rw [hble]; exact hrep', hlt', hother.trans (.other (by decide) sent fs)⟩
  · exact hc.board_append nofun

/-- Work of the BLE batch. -/
theorem Records.ble {fw fw' : Firmware} {new : List Ble.Recorded}
    (hbatch : fw'.batcher = fw.batcher)
    (h : ∀ ks, Ble.Rep fw.ble.batch ks → ks.length < bleMaxEntries →
      ∃ ks', Ble.Advances fw.outbox ks fw'.ble fw'.outbox ks' new) :
    Records fw fw' { ble := new } := by
  intro sent packets hc
  obtain ⟨ks, hrep, hlt, hother⟩ := hc.ieee
  obtain ⟨ls, hrep', hlt', hble⟩ := hc.ble
  obtain ⟨ls', hadv⟩ := h ls hrep' hlt'
  obtain ⟨fs, hframes, hown⟩ := hadv.forwards.own Source.ble
  refine ⟨sentBy .ble fs, ?_, ?_, ⟨ls', hadv.rep, hadv.below, hble.trans (hown sent)⟩, ?_⟩
  · rw [hframes, hc.frames, List.map_append, sentBy_frames]
  · exact ⟨ks, by rw [hbatch]; exact hrep, hlt, hother.trans (.other (by decide) sent fs)⟩
  · exact hc.board_append nofun

/-! ## The stops and the host's frames -/

theorem flushBatch_records {fw fw' : Firmware} (h : flushBatch fw = some fw') :
    Records fw fw' {} := by
  obtain ⟨⟨b, o⟩, hflush, heq⟩ := Option.map_eq_some_iff.mp h
  cases heq
  refine .ieee rfl fun ks hrep hlt => ?_
  obtain ⟨b', o', ks', hflush', hadv⟩ := Batch.step_advances hrep hlt fw.outbox .flush
  cases Option.some.inj (hflush.symm.trans hflush')
  exact ⟨ks', hadv⟩

theorem Move.records {fw fw' : Firmware} (h : Move E fw fw') : Records fw fw' {} := by
  cases h with
  | flush h => exact flushBatch_records h
  | @stopBle r h =>
      refine .ble rfl fun ks hrep hlt => ?_
      obtain ⟨s', o', ks', hflush, hadv⟩ :=
        Ble.step_advances (s := stopCapture fw.ble) hrep hlt fw.outbox .stopFlush trivial
      cases Option.some.inj (h.symm.trans hflush)
      exact ⟨ks', hadv.rep, hadv.below, hadv.forwards⟩
  | counters =>
      intro sent packets hc
      obtain ⟨ks, hrep, hlt, hieee⟩ := hc.ieee
      have hcleared : Batch.Rep (resetCounters fw).batcher ks :=
        ⟨hrep.holds, hrep.channel, hrep.first, hrep.length_le⟩
      refine ⟨[], ?_⟩
      rw [List.append_nil, Packets.append_none]
      exact ⟨hc.frames, ⟨ks, hcleared, hlt, hieee⟩, hc.ble, hc.board⟩
  | hci h =>
      obtain ⟨_, _, _, _, rfl⟩ := h
      exact .silent ⟨rfl, rfl⟩ rfl
  | _ => exact .silent ⟨rfl, rfl⟩ rfl

theorem moves_records {fw fw' : Firmware} (h : Moves E fw fw') : Records fw fw' {} := by
  refine row_keeps (R := fun fw fw' => Records fw fw' {}) (fun fw => ?_)
    (fun h h' => h.trans h') Move.records h
  exact .silent (.refl fw) rfl

theorem snControlHandle_records {fw fw' : Firmware} {type : FrameType} {payload : List UInt8}
    (h : snControlHandle p fw type payload = some fw') : Records fw fw' {} := by
  cases snControlHandle_handled h with
  | filter _ => exact .silent ⟨rfl, rfl⟩ rfl
  | keys h =>
      have haside := snRadioBleSetKeys_aside h
      exact .aside haside.toSameBatches haside.adds
  | @command command _ _ _ _ _ _ h =>
      obtain ⟨fw₁, status, value, hmoves, rfl⟩ :=
        onCommand_replied (E := fun _ _ _ => True) (fun _ _ => trivial) h
      have hreply := reply_aside p fw₁ command status value
      exact (moves_records hmoves).trans (.aside hreply.toSameBatches hreply.adds)
  | ignored _ _ _ => exact .silent (.refl fw) rfl

/-! ## The radios and the timers -/

theorem receive_records {fw fw' : Firmware} {pkt : Option NetPkt} (h : receive fw pkt = some fw') :
    Records fw fw' (packetsOf fw (.received pkt)) := by
  obtain ⟨⟨radio, b, o, err⟩, hrecv, heq⟩ := Option.map_eq_some_iff.mp h
  cases heq
  unfold netRecvData at hrecv
  cases pkt with
  | none =>
      cases hrecv
      exact .silent ⟨rfl, rfl⟩ rfl
  | some pkt =>
      simp only [packetsOf]
      dsimp only at hrecv
      split at hrecv
      · rename_i hempty
        cases hrecv
        rw [if_pos hempty]
        exact .silent ⟨rfl, rfl⟩ rfl
      · rename_i hsome
        rw [if_neg hsome]
        split at hrecv
        · rename_i hrefused
          cases hrecv
          rw [if_pos hrefused]
          exact .silent ⟨rfl, rfl⟩ rfl
        · rename_i htakes
          rw [if_neg htakes]
          obtain ⟨⟨b', o'⟩, hadd, heq⟩ := Option.map_eq_some_iff.mp hrecv
          cases heq
          refine .ieee rfl fun ks hrep hlt => ?_
          obtain ⟨b', o', ks', hadd', hadv⟩ :=
            Batch.snBatchAdd_advances hrep hlt fw.outbox (fw.radio.packetOf pkt)
          cases Option.some.inj (hadd.symm.trans hadd')
          exact ⟨ks', hadv⟩

theorem fwdLoop_records {fw fw' : Firmware} {h4 : UInt8} {data : List UInt8} {now : Readings}
    (hlen : data.length ≤ 65534) (h : fwdLoop fw h4 data now = some fw') :
    Records fw fw' (packetsOf fw (.hciPacket h4 data now)) := by
  obtain ⟨slot, _, h⟩ := Option.bind_eq_some_iff.mp h
  simp only [packetsOf]
  split at h
  · rename_i htakes
    rw [if_pos htakes]
    obtain ⟨⟨s, o⟩, hforward, heq⟩ := Option.map_eq_some_iff.mp h
    cases heq
    refine .ble rfl fun ks hrep hlt => ?_
    obtain ⟨s', o', ks', hforward', hadv⟩ := forward_advances hrep hlt fw.outbox h4 data now hlen
    cases Option.some.inj (hforward.symm.trans hforward')
    exact ⟨ks', hadv⟩
  · rename_i hpasses
    rw [if_neg hpasses]
    cases h
    exact .silent ⟨rfl, rfl⟩ rfl

/-- **Every input** keeps the chronicle, and takes in the packet it brings. -/
theorem step_records {fw fw' : Firmware} {i : Input} (h : step p fw i = some fw') :
    Records fw fw' (packetsOf fw i) := by
  cases i with
  | hostFrame type payload => exact snControlHandle_records h
  | received pkt => exact receive_records h
  | hciPacket h4 data now =>
      simp only [step] at h
      split at h
      · rename_i hlen
        exact fwdLoop_records hlen h
      · cases h
  | batchLinger =>
      obtain ⟨⟨b, o⟩, hflush, heq⟩ := Option.map_eq_some_iff.mp h
      cases heq
      refine .ieee rfl fun ks hrep hlt => ?_
      obtain ⟨b', o', ks', hflush', hadv⟩ := Batch.step_advances hrep hlt fw.outbox .linger
      cases Option.some.inj (hflush.symm.trans hflush')
      exact ⟨ks', hadv⟩
  | bleLinger =>
      obtain ⟨⟨s, o⟩, hflush, heq⟩ := Option.map_eq_some_iff.mp h
      cases heq
      refine .ble rfl fun ks hrep hlt => ?_
      obtain ⟨s', o', ks', hflush', hadv⟩ :=
        Ble.step_advances (s := fw.ble) hrep hlt fw.outbox .linger trivial
      cases Option.some.inj (hflush.symm.trans hflush')
      exact ⟨ks', hadv⟩
  | _ =>
      have haside := step_aside rfl h
      exact .aside haside.toSameBatches haside.adds

/-- So every run of the board has its chronicle. -/
theorem run_chronicle {w : World} {inputs : List Input} {fw : Firmware} {packets : Packets}
    (h : (recorder p).run (boot w, {}) inputs = some (fw, packets)) :
    ∃ sent, Chronicle fw sent packets := by
  refine (recorder p).run_invariant
    (I := fun s => ∃ sent, Chronicle s.1 sent s.2) ?_ ⟨[], chronicle_boot w⟩ h
  rintro ⟨fw, packets⟩ i ⟨fw', packets'⟩ ⟨sent, hc⟩ hstep
  obtain ⟨fw'', hone, heq⟩ := Option.map_eq_some_iff.mp hstep
  cases heq
  obtain ⟨more, hc'⟩ := step_records hone sent packets hc
  exact ⟨_, hc'⟩

/-! ## From the radios to the host -/

/-- The calls of `sn_link_send`, each with its sender and whether it was
accepted. -/
abbrev CallLog : Type := List ((Source × Frame) × Bool)

/-- A chronicle, with what the link answered. -/
theorem Chronicle.callLog {fw : Firmware} {sent : List (Source × Frame)} {packets : Packets}
    (h : Chronicle fw sent packets) :
    ∃ log : CallLog, log.map Prod.fst = sent ∧
      log.map (fun c => (c.1.2, c.2)) = callsOf fw.outbox.log := by
  have hframes : sent.map Prod.snd = fw.outbox.log.map Prod.fst := h.frames.symm
  obtain ⟨zs, hsent, hlog, hsame⟩ := paired hframes
  refine ⟨zs.map fun z => (z.1, z.2.2.ok), ?_, ?_⟩
  · rw [List.map_map, ← hsent]
    rfl
  · rw [← hlog, callsOf, List.map_map, List.map_map]
    refine List.map_congr_left fun z hz => ?_
    simp [hsame z hz]

/-- The packets of one radio: those the host has read, those on their way,
those in refused frames and those of the open batch. -/
def Delivered {β : Type} (me : Source) (decode : Frame → Option (List β)) (log : CallLog) (n : Nat)
    (inside packets : List β) : Prop :=
  ∃ recs waiting lost,
    decodeAll (readOwn me decode) ((keptFrames true log).take n) = some recs ∧
    decodeAll (readOwn me decode) ((keptFrames true log).drop n) = some waiting ∧
    decodeAll (readOwn me decode) (keptFrames false log) = some lost ∧
    (recs ++ waiting ++ inside).Sublist packets ∧
    (recs ++ waiting ++ lost ++ inside).Perm packets

/-- **What a host records of the board.** For any inputs of the board, any
interleaving of the link's threads that has served the beginning of its calls,
and the bytes on the wire at any moment: the host has read the first `n` of the
frames accepted. Each frame is one radio's, or carries no packets; and for
either radio, the packets in the frames read, in those on their way and in the
open batch are packets its capture took, in order and each once, and the ones
missing are those of the refused frames. -/
theorem board_records (W : Link.WireFormat) (C : Link.FrameCoding) (encode : Link.Encode)
    (hencode : Link.Encodes W C encode) {w : World} {inputs : List Input} {fw : Firmware}
    {packets : Packets} {ls : List Link.Label} {t : Link.State} {calls : List (Frame × Bool)}
    (hboard : (recorder p).run (boot w, {}) inputs = some (fw, packets))
    (hlink : (Link.served encode).run ({}, []) ls = some (t, calls))
    (hserved : calls <+: callsOf fw.outbox.log) :
    ∃ (log : CallLog) (n : Nat) (ieee : List Batch.Recorded) (ble : List Ble.Recorded),
      log.map (fun c => (c.1.2, c.2)) = callsOf fw.outbox.log ∧
      (∀ c ∈ log, c.1.1 = .board → c.1.2.type.carriesPackets = false) ∧
      Link.hostReads W C t.wire = ((keptFrames true log).take n).map Prod.snd ∧
      Batch.openEntries fw.batcher = some ieee ∧
      Delivered .ieee Batch.decodeFrame log n ieee packets.ieee ∧
      Ble.openEntries fw.ble.batch = some ble ∧
      Delivered .ble Ble.decodeFrame log n ble packets.ble := by
  obtain ⟨sent, hc⟩ := run_chronicle hboard
  obtain ⟨log, hsent, hcalls⟩ := hc.callLog
  have hrun : (machine p).run (boot w) inputs = some fw := by
    have hghost := (machine p).run_withGhost
      (fun fw i packets => Packets.append packets (packetsOf fw i)) (boot w) {} inputs
    rw [← hghost]
    exact congrArg (Option.map Prod.fst) hboard
  have hledger : Ledger p fw.outbox := (machine p).run_invariant
    (fun _ _ _ hl hs => step_ledger hl hs) (ledger_boot p w) hrun
  -- what the link accepted is the beginning of what the board's log says was accepted
  obtain ⟨n, hle, hreads, _⟩ :=
    hencode.hostReads_take (Link.served_run hlink) (accepted_types hlink hserved hledger.types)
  have haccepted : (keptFrames true log).map Prod.snd
      = keptFrames true (callsOf fw.outbox.log) := by
    rw [← hcalls]
    simp [keptFrames, List.filter_map, Function.comp_def]
  have hprefix : ((keptFrames true log).take n).map Prod.snd = t.accepted.take n := by
    obtain ⟨later, hlater⟩ := hserved
    rw [Link.served_accepted hlink] at hle ⊢
    rw [List.map_take, haccepted, ← hlater, keptFrames_append, List.take_append_of_le_length hle]
  obtain ⟨ks, hrep, _, hieee⟩ := hc.ieee
  obtain ⟨ls', hrep', _, hble⟩ := hc.ble
  rw [← hsent] at hieee hble
  refine ⟨log, n, ks.map Batch.Kept.recorded, ls'.map Ble.Kept.recorded, hcalls, ?_,
    hreads.trans hprefix.symm, Batch.openEntries_rep hrep, hieee.delivers n,
    Ble.openEntries_rep hrep', hble.delivers n⟩
  intro c hmem hboard
  exact hc.board c.1 (hsent ▸ List.mem_map_of_mem hmem) hboard

/-- A packet on its way and one in the open batch, with the reply read. -/
theorem board_records_two_packets :
    let inputs : List Input := [.hostFrame .controlCmd [5, 11, 0, 0, 0], .received (some oneByte),
      .batchLinger, .received (some oneByte)]
    ∃ (fw : Firmware) (packets : Packets) (t : Link.State) (calls : List (Frame × Bool)),
      (recorder fullPlatform).run (boot calmWorld, {}) inputs = some (fw, packets) ∧
      (Link.hostReads Link.ccittFormat Link.plainCoding t.wire).length = 1 ∧
      packets.ieee.length = 2 ∧
      ∃ (log : CallLog) (n : Nat) (ieee : List Batch.Recorded),
        log.map (fun c => (c.1.2, c.2)) = calls ∧
        Link.hostReads Link.ccittFormat Link.plainCoding t.wire
          = ((keptFrames true log).take n).map Prod.snd ∧
        Delivered .ieee Batch.decodeFrame log n ieee packets.ieee := by
  intro inputs
  let reply : Frame := ⟨.controlReply, Control.replyPayload fullPlatform 5 .ok 11⟩
  let packet : Frame := ⟨.packet, Batch.sn154Meta 11 200 (-60) 0 1000000 ++ [0x42]⟩
  let ls : List Link.Label :=
    [.send reply, .put, .measure] ++ sendOut 16 ++ [.send packet, .put, .measure]
  have hboard : ((recorder fullPlatform).run (boot calmWorld, {}) inputs).any (fun r =>
      callsOf r.1.outbox.log == [(reply, true), (packet, true)] &&
        r.2.ieee.length == 2) = true := by decide +kernel
  have hlink : ((Link.served (Link.plainEncode Link.ccittFormat Link.plainCoding)).run
      ({}, []) ls).any (fun s => s.2 == [(reply, true), (packet, true)] &&
        (Link.hostReads Link.ccittFormat Link.plainCoding s.1.wire).length == 1) = true := by
    decide +kernel
  obtain ⟨⟨fw, packets⟩, hfw, hlog⟩ := (Option.any_eq_true _ _).mp hboard
  obtain ⟨⟨t, calls⟩, ht, hcalls⟩ := (Option.any_eq_true _ _).mp hlink
  simp only [Bool.and_eq_true, beq_iff_eq] at hlog hcalls
  obtain ⟨log, n, ieee, _, hcallLog, _, hreads, _, hieee, _⟩ :=
    board_records Link.ccittFormat Link.plainCoding _ (Link.plainEncode_encodes _ _) hfw ht
      ⟨[], by rw [List.append_nil, hlog.1, hcalls.1]⟩
  exact ⟨fw, packets, t, calls, hfw, hcalls.2, hlog.2, log, n, ieee,
    hcallLog.trans (hlog.1.trans hcalls.1.symm), hreads, hieee⟩

end Nrf54Sniffer.Board
