/-
Nrf54Sniffer.Board.CaptureDelivery — what was heard, and what the host records
of it.

A radio's batches share the link with replies, statistics and log lines. Here
the batcher, the link and the host's reader are put end to end: any history of
packets, flushes and timeouts, any interleaving of the link's threads that
served its calls among any others, and the bytes on the wire at any moment.
What the host records is what was heard, in order, less the packets of refused
frames, of frames on their way and of the open batch; and those are all that is
missing. The drop counters are those of the code before they wrap at 2^32.

One radio captures at a time, so the frame types that carry its packets come
from its batcher alone.
-/
import Nrf54Sniffer.Batch.Accounting
import Nrf54Sniffer.Ble.Refusals
import Nrf54Sniffer.Link.Delivery

namespace Nrf54Sniffer.Board

open Nrf54Sniffer.Lib
open Nrf54Sniffer.Wire
open Nrf54Sniffer.Link

variable {W : WireFormat} {C : FrameCoding} {encode : Encode}

/-- The calls of an outbox, each with whether it was accepted. -/
def outcomes (o : Outbox) : List (Frame × Bool) := o.log.map fun c => (c.1, c.2.ok)

@[simp] theorem outcomes_frames (o : Outbox) : (outcomes o).map Prod.fst = o.frames := by
  simp [outcomes, Outbox.frames, Function.comp_def]

/-- The link served these calls of one sender, among those of others. -/
structure Serves (encode : Encode) (mine : Frame → Bool) (o : Outbox) (ls : List Label)
    (t : Link.State) (calls : List (Frame × Bool)) : Prop where
  run : (served encode).run ({}, []) ls = some (t, calls)
  types : ∀ c ∈ calls, c.1.type ∈ sentTypes
  mine : (calls.filter fun c => mine c.1) = outcomes o

/-- A packer's items, end to end. -/
theorem Serves.delivers {β : Type} {decode : Frame → Option (List β)} {good : Frame → Prop}
    {mine : Frame → Bool} {o : Outbox} {ls : List Label} {t : Link.State}
    {calls : List (Frame × Bool)} {inside new : List β} (hencode : Encodes W C encode)
    (h : Serves encode mine o ls t calls)
    (hpacked : Forwards decode good [] o.frames [] inside new) :
    ∃ n recs waiting lost,
      hostReads W C t.wire = t.accepted.take n ∧
      decodeAll decode ((hostReads W C t.wire).filter mine) = some recs ∧
      decodeAll decode ((t.accepted.drop n).filter mine) = some waiting ∧
      decodeAll decode (keptFrames false (outcomes o)) = some lost ∧
      (recs ++ waiting ++ inside).Sublist new ∧ (recs ++ waiting ++ lost ++ inside).Perm new ∧
      (t.unsent = [] → waiting = []) := by
  obtain ⟨items, hdec, rfl, _⟩ := hpacked.total
  have hmine := h.mine
  obtain ⟨n, recs, waiting, lost, hreads, hrecs, hwaiting, hlost, hsub, hperm, hall⟩ :=
    served_delivers hencode h.run h.types (by rw [hmine, outcomes_frames]; exact hdec)
  rw [hmine] at hlost
  exact ⟨n, recs, waiting, lost, hreads, hrecs, hwaiting, hlost, hsub.append (.refl _),
    hperm.append_right _, hall⟩

/-! ## 802.15.4 -/

/-- The frames that carry 802.15.4 packets. -/
def carries154 (f : Frame) : Bool := f.type == .packet || f.type == .packetBatch

/-- The packets in the frames accepted are the ones the host will read there. -/
theorem packetsAccepted_kept {log : List (Frame × SendResult)} {recs : List Batch.Recorded}
    (h : decodeAll Batch.decodeFrame
      (keptFrames true (log.map fun c => (c.1, c.2.ok))) = some recs) :
    Batch.packetsAccepted log = recs.length := by
  induction log generalizing recs with
  | nil =>
      cases h
      rfl
  | cons c log ih =>
      obtain ⟨f, r⟩ := c
      cases hok : r.ok with
      | true =>
          have hframes : keptFrames true (((f, r) :: log).map fun c => (c.1, c.2.ok))
              = f :: keptFrames true (log.map fun c => (c.1, c.2.ok)) := by
            simp [keptFrames, hok]
          rw [hframes] at h
          simp only [decodeAll, Option.bind_eq_bind, Option.bind_eq_some_iff] at h
          obtain ⟨first, hfirst, more, hmore, heq⟩ := h
          cases heq
          simp [Batch.packetsAccepted, Batch.delivered, Batch.packetsIn, hok, hfirst, ih hmore]
      | false =>
          have hframes : keptFrames true (((f, r) :: log).map fun c => (c.1, c.2.ok))
              = keptFrames true (log.map fun c => (c.1, c.2.ok)) := by
            simp [keptFrames, hok]
          rw [hframes] at h
          simp [Batch.packetsAccepted, Batch.delivered, hok, ih h]

/-- The books of a history of the batcher. -/
theorem batchRun_accounts {b b' : Batch.Batcher} {o o' : Outbox} {ks : List Batch.Kept}
    {es : List Batch.Event} (h : Batch.Rep b ks) (hbelow : ks.length < Batch.maxEntries)
    (hrun : Batch.run b o es = some (b', o')) :
    Batch.Accounts b o b' o' (Batch.added es).length := by
  induction es generalizing b o ks with
  | nil =>
      cases hrun
      exact .silent _ rfl rfl
  | cons e es ih =>
      obtain ⟨b₁, o₁, ks₁, hstep, hadv⟩ := Batch.step_advances h hbelow o e
      have hrest : Batch.run b₁ o₁ es = some (b', o') := by
        simpa only [Batch.run, hstep, Option.bind_some] using hrun
      have hone := Batch.step_accounts h hbelow hstep
      have hmore := ih hadv.rep hadv.below hrest
      rw [Batch.added_cons, List.length_append]
      exact hone.trans hmore

/-- `dropped_packets` is the number of packets in the refused frames. -/
theorem refused_counted {answers : Nat → SendResult} {es : List Batch.Event} {b : Batch.Batcher}
    {o : Outbox} {lost : List Batch.Recorded} (hrun : Batch.run {} { answers } es = some (b, o))
    (hlost : decodeAll Batch.decodeFrame (keptFrames false (outcomes o)) = some lost) :
    lost.length = Batch.snBatchDropped b := by
  obtain ⟨b', o', ks, hrun', hadv⟩ :=
    Batch.run_advances Batch.rep_initial (by decide) { answers } es
  rw [hrun] at hrun'
  cases hrun'
  obtain ⟨items, hdec, hitems, _⟩ := hadv.forwards.total
  have hall : decodeAll Batch.decodeFrame ((outcomes o).map Prod.fst) = some items := by
    rw [outcomes_frames]
    exact hdec
  obtain ⟨kept, lost', hkept, hlost', _, hperm⟩ := decodeAll_kept hall
  have hsame : lost' = lost := Option.some.inj (hlost'.symm.trans hlost)
  -- the books have what was accepted, what was refused and what is open
  obtain ⟨sent, hlog, _, hbooks⟩ := batchRun_accounts Batch.rep_initial (by decide) hrun
  have haccepted : Batch.packetsAccepted sent = kept.length := by
    have hsent : o.log = sent := hlog
    rw [← hsent]
    exact packetsAccepted_kept hkept
  have hcount : b.count = ks.length := hadv.rep.holds.count_eq
  have htotal := congrArg List.length hitems
  have hlen := hperm.length_eq
  rw [List.length_append, List.length_map] at htotal
  rw [List.length_append, hsame] at hlen
  have hnone : ({} : Batch.Batcher).droppedPackets = 0 := rfl
  have hzero : ({} : Batch.Batcher).count = 0 := rfl
  unfold Batch.snBatchDropped
  omega

/-- **What the host records of an 802.15.4 capture.** At any moment the records
it has read, those of frames on their way and those of the open batch are, in
order, packets that were heard; the others are the packets of the refused
frames, and `dropped_packets` is their number. -/
theorem capture154_delivered (W : WireFormat) (C : FrameCoding) (encode : Encode)
    (hencode : Encodes W C encode) {answers : Nat → SendResult}
    {es : List Batch.Event} {b : Batch.Batcher} {o : Outbox} {ls : List Label} {t : Link.State}
    {calls : List (Frame × Bool)} (hrun : Batch.run {} { answers } es = some (b, o))
    (hlink : Serves encode carries154 o ls t calls) :
    ∃ n recs waiting inside lost,
      hostReads W C t.wire = t.accepted.take n ∧
      decodeAll Batch.decodeFrame ((hostReads W C t.wire).filter carries154) = some recs ∧
      decodeAll Batch.decodeFrame ((t.accepted.drop n).filter carries154) = some waiting ∧
      Batch.openEntries b = some inside ∧
      decodeAll Batch.decodeFrame (keptFrames false (outcomes o)) = some lost ∧
      (recs ++ waiting ++ inside).Sublist (Batch.added es) ∧
      (recs ++ waiting ++ lost ++ inside).Perm (Batch.added es) ∧
      lost.length = Batch.snBatchDropped b ∧ (t.unsent = [] → waiting = []) := by
  obtain ⟨b', o', ks, hrun', hadv⟩ :=
    Batch.run_advances Batch.rep_initial (by decide) { answers } es
  rw [hrun] at hrun'
  cases hrun'
  obtain ⟨n, recs, waiting, lost, hreads, hrecs, hwaiting, hlost, hsub, hperm, hall⟩ :=
    hlink.delivers hencode hadv.forwards
  refine ⟨n, recs, waiting, ks.map Batch.Kept.recorded, lost, hreads, hrecs, hwaiting,
    Batch.openEntries_rep hadv.rep, hlost, hsub, hperm, ?_, hall⟩
  exact refused_counted hrun hlost

/-- Every byte of what is in the ring goes out. -/
def sendOut (n : Nat) : List Label :=
  [.claim n, .takeDone, .uartOk] ++ List.replicate n .dmaByte ++ [.dmaDone, .finish]

/-- A packet that is on the wire, and one refused behind two long log lines. -/
theorem capture154_delivered_one_refused :
    let p : Batch.Packet := ⟨15, 70, 1, -60, [9]⟩
    let es : List Batch.Event := [.add p, .flush, .add p, .flush]
    let answers : Nat → SendResult := fun n => if n = 0 then .sent 23 else .noMem
    ∃ b o ls t calls, Batch.run {} { answers } es = some (b, o) ∧
      Serves (plainEncode ccittFormat plainCoding) carries154 o ls t calls ∧
      ∃ n recs waiting inside lost,
        hostReads ccittFormat plainCoding t.wire = t.accepted.take n ∧
        decodeAll Batch.decodeFrame ((hostReads ccittFormat plainCoding t.wire).filter carries154)
          = some recs ∧
        (recs ++ waiting ++ lost ++ inside).Perm (Batch.added es) ∧
        lost.length = Batch.snBatchDropped b := by
  intro p es answers
  let f : Frame := ⟨.packet, Batch.sn154Meta 15 1 (-60) 0 70 ++ [9]⟩
  let long : Frame := ⟨.log, List.replicate 3820 0⟩
  let ls : List Label := [.send f, .put, .measure] ++ sendOut 23 ++
    [.send long, .put, .measure, .send long, .put, .measure, .send f]
  have hbatch : (Batch.run {} { answers } es).any
      (fun r => outcomes r.2 == [(f, true), (f, false)]) = true := by decide +kernel
  have hlink : ((served (plainEncode ccittFormat plainCoding)).run ({}, []) ls).any (fun r =>
      (r.2.filter fun c => carries154 c.1) == [(f, true), (f, false)] &&
        r.2.all fun c => decide (c.1.type ∈ sentTypes)) = true := by decide +kernel
  obtain ⟨⟨b, o⟩, hb, ho⟩ := (Option.any_eq_true _ _).mp hbatch
  obtain ⟨⟨t, calls⟩, ht, hcalls⟩ := (Option.any_eq_true _ _).mp hlink
  simp only [Bool.and_eq_true, beq_iff_eq, List.all_eq_true, decide_eq_true_eq] at ho hcalls
  have hserves : Serves (plainEncode ccittFormat plainCoding) carries154 o ls t calls :=
    ⟨ht, hcalls.2, hcalls.1.trans ho.symm⟩
  obtain ⟨n, recs, waiting, inside, lost, hreads, hrecs, _, _, _, _, hperm, hlost, _⟩ :=
    capture154_delivered ccittFormat plainCoding _ (plainEncode_encodes _ _) hb hserves
  exact ⟨b, o, ls, t, calls, hb, hserves, n, recs, waiting, inside, lost, hreads, hrecs, hperm,
    hlost⟩

/-! ## Bluetooth LE -/

/-- The frames that carry HCI packets. -/
def carriesHci (f : Frame) : Bool := f.type == .packet || f.type == .bleBatch

/-- `dropped` is the number of packets in the refused frames, and what the other
threads wrote to it. -/
theorem refusedBle_counted {answers : Nat → SendResult} {es : List Ble.Event} {s : Ble.BleRadio}
    {o : Outbox} {lost : List Ble.Recorded} (hfits : ∀ e ∈ es, e.Fits)
    (hrun : Ble.run {} { answers } es = some (s, o))
    (hlost : decodeAll Ble.decodeFrame (keptFrames false (outcomes o)) = some lost) :
    (s.stats.dropped : Int) = lost.length + Ble.writtenElsewhere {} { answers } es := by
  obtain ⟨charged, ⟨sent, refused, hlog, hrefused, hcharged⟩, hdropped⟩ :=
    Ble.run_charges Ble.rep_initial (by decide) hfits hrun
  have hsent : o.log = sent := hlog
  have hsame : refused = lost := by
    rw [← hsent] at hrefused
    exact Option.some.inj (hrefused.symm.trans hlost)
  have hnone : ({} : Ble.BleRadio).stats.dropped = 0 := rfl
  rw [hdropped, hcharged, hnone, hsame, Nat.zero_add]

/-- **What the host records of a BLE capture.** The same of every packet the
controller handed over, whatever the control thread and the work items did in
between. Those others may zero `dropped` as well: apart from what they write,
it is the number of packets in the refused frames. -/
theorem captureBle_delivered (W : WireFormat) (C : FrameCoding) (encode : Encode)
    (hencode : Encodes W C encode) {answers : Nat → SendResult}
    {es : List Ble.Event} {s : Ble.BleRadio} {o : Outbox} {ls : List Label} {t : Link.State}
    {calls : List (Frame × Bool)} (hfits : ∀ e ∈ es, e.Fits)
    (hrun : Ble.run {} { answers } es = some (s, o))
    (hlink : Serves encode carriesHci o ls t calls) :
    ∃ n recs waiting inside lost,
      hostReads W C t.wire = t.accepted.take n ∧
      decodeAll Ble.decodeFrame ((hostReads W C t.wire).filter carriesHci) = some recs ∧
      decodeAll Ble.decodeFrame ((t.accepted.drop n).filter carriesHci) = some waiting ∧
      Ble.openEntries s.batch = some inside ∧
      decodeAll Ble.decodeFrame (keptFrames false (outcomes o)) = some lost ∧
      (recs ++ waiting ++ inside).Sublist (Ble.forwardedRecords es) ∧
      (recs ++ waiting ++ lost ++ inside).Perm (Ble.forwardedRecords es) ∧
      (s.stats.dropped : Int) = lost.length + Ble.writtenElsewhere {} { answers } es ∧
      (t.unsent = [] → waiting = []) := by
  obtain ⟨s', o', ks, hrun', hadv⟩ :=
    Ble.run_advances (s := {}) Ble.rep_initial (by decide) { answers } es hfits
  rw [hrun] at hrun'
  cases hrun'
  obtain ⟨n, recs, waiting, lost, hreads, hrecs, hwaiting, hlost, hsub, hperm, hall⟩ :=
    hlink.delivers hencode hadv.forwards
  exact ⟨n, recs, waiting, ks.map Ble.Kept.recorded, lost, hreads, hrecs, hwaiting,
    Ble.openEntries_rep hadv.rep, hlost, hsub, hperm, refusedBle_counted hfits hrun hlost, hall⟩

/-- An isochronous packet still in the ring, and another in the open batch. -/
theorem captureBle_delivered_one_waiting :
    let es : List Ble.Event :=
      [.forward Ble.h4Iso [1, 2] ⟨5, 0, 0⟩, .linger, .forward Ble.h4Iso [3] ⟨9, 0, 0⟩]
    ∃ s o ls t calls, Ble.run {} { answers := fun _ => .sent 25 } es = some (s, o) ∧
      Serves (plainEncode ccittFormat plainCoding) carriesHci o ls t calls ∧
      ∃ n recs waiting inside lost,
        hostReads ccittFormat plainCoding t.wire = t.accepted.take n ∧
        decodeAll Ble.decodeFrame ((hostReads ccittFormat plainCoding t.wire).filter carriesHci)
          = some recs ∧
        Ble.openEntries s.batch = some inside ∧
        (recs ++ waiting ++ lost ++ inside).Perm (Ble.forwardedRecords es) := by
  intro es
  let f : Frame := ⟨.packet, Ble.snBleMeta 5 3 0 ++ [Ble.h4Iso, 1, 2]⟩
  let ls : List Label := [.send ⟨.stats, []⟩, .put, .measure, .send f, .put]
  have hbatch : (Ble.run {} { answers := fun _ => .sent 25 } es).any
      (fun r => outcomes r.2 == [(f, true)]) = true := by decide +kernel
  have hlink : ((served (plainEncode ccittFormat plainCoding)).run ({}, []) ls).any (fun r =>
      (r.2.filter fun c => carriesHci c.1) == [(f, true)] &&
        r.2.all fun c => decide (c.1.type ∈ sentTypes)) = true := by decide +kernel
  obtain ⟨⟨s, o⟩, hs, ho⟩ := (Option.any_eq_true _ _).mp hbatch
  obtain ⟨⟨t, calls⟩, ht, hcalls⟩ := (Option.any_eq_true _ _).mp hlink
  simp only [Bool.and_eq_true, beq_iff_eq, List.all_eq_true, decide_eq_true_eq] at ho hcalls
  have hserves : Serves (plainEncode ccittFormat plainCoding) carriesHci o ls t calls :=
    ⟨ht, hcalls.2, hcalls.1.trans ho.symm⟩
  have hfits : ∀ e ∈ es, e.Fits := by
    intro e he
    simp only [es, List.mem_cons, List.not_mem_nil, or_false] at he
    rcases he with rfl | rfl | rfl
    · exact (by decide : ([1, 2] : List UInt8).length ≤ 65534)
    · trivial
    · exact (by decide : ([3] : List UInt8).length ≤ 65534)
  obtain ⟨n, recs, waiting, inside, lost, hreads, hrecs, _, hinside, _, _, hperm, _, _⟩ :=
    captureBle_delivered ccittFormat plainCoding _ (plainEncode_encodes _ _) hfits hs hserves
  exact ⟨s, o, ls, t, calls, hs, hserves, n, recs, waiting, inside, lost, hreads, hrecs, hinside,
    hperm⟩

end Nrf54Sniffer.Board
