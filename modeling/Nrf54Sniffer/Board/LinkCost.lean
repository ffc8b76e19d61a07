/-
Nrf54Sniffer.Board.LinkCost — what batching saves on the link.

A packet sent alone takes ten bytes of frame header and twelve of metadata. In
a batch the header is shared and an entry has five bytes of its own on the
802.15.4 side, seven on the BLE side. The host's strict readers account for
every byte of a frame, so what each frame takes can be read off its packets:
batches never take more than their packets would alone, and how much less is
exact.
-/
import Nrf54Sniffer.Batch.BatcherTheorems
import Nrf54Sniffer.Ble.ForwardTheorems
import Nrf54Sniffer.Lib.PackingCost

namespace Nrf54Sniffer.Board

open Nrf54Sniffer.Lib
open Nrf54Sniffer.Wire

/-- What a frame takes on the wire. -/
def frameBytes (f : Frame) : Nat := snHeaderLen + f.payload.length

/-! ## 802.15.4 -/

/-- What the packet takes in a frame of its own. -/
def aloneBytes154 (r : Batch.Recorded) : Nat := 22 + r.psdu.length

/-- What a batch of so many saves. -/
def saving154 (f : Frame) : Nat :=
  if f.type = .packetBatch then 17 * ((Batch.decodeFrame f).elim 0 List.length) - 20 else 0

theorem parseEntryBody_length154 {xs rest : List UInt8} {b : Batch.EntryBody}
    (h : Batch.parseEntryBody xs = some (b, rest)) :
    xs.length = 3 + b.psdu.length + rest.length := by
  unfold Batch.parseEntryBody at h
  split at h
  · obtain ⟨⟨psdu, after⟩, htake, heq⟩ := Option.map_eq_some_iff.mp h
    cases heq
    obtain ⟨hlen, hall⟩ := takeExact_length htake
    simp only [List.length_cons]
    omega
  · cases h

/-- A frame takes what its packets would, less what it saves. -/
theorem frameBytes_saving154 {f : Frame} {recs : List Batch.Recorded} (hgood : Batch.WellShaped f)
    (h : Batch.decodeFrame f = some recs) :
    frameBytes f + saving154 f = weigh aloneBytes154 recs := by
  have hdec := h
  unfold Batch.decodeFrame at h
  split at h
  · rename_i htype
    have hnone : saving154 f = 0 := if_neg (by rw [htype]; exact nofun)
    unfold Batch.decodePacket at h
    split at h
    · rename_i channel lqi rssi flags xs heq
      simp only [Option.bind_eq_bind, Option.bind_eq_some_iff] at h
      obtain ⟨⟨ts, psdu⟩, hts, heq'⟩ := h
      cases heq'
      have hlen := readLE_length hts
      rw [hnone, frameBytes, heq]
      simp only [List.length_cons, weigh_cons, weigh_nil, aloneBytes154, snHeaderLen]
      omega
    · cases h
  · rename_i htype
    obtain ⟨_, recs', hrecs', htwo, _⟩ := hgood htype
    have hsame : recs' = recs := Option.some.inj (hrecs'.symm.trans hdec)
    have hsaves : saving154 f = 17 * recs.length - 20 := by
      rw [saving154, if_pos htype, hdec]
      rfl
    rw [hsame] at htwo
    simp only [Batch.decodeBatch, Option.bind_eq_bind, Option.bind_eq_some_iff] at h
    obtain ⟨⟨base, xs⟩, hbase, h⟩ := h
    have hlen := readLE_length hbase
    split at h
    · rename_i channel count ys heq
      simp only [Option.bind_eq_some_iff] at h
      obtain ⟨⟨items, rest⟩, hitems, h⟩ := h
      dsimp only at h hitems
      obtain ⟨hrest, heq'⟩ := Option.ite_none_right_eq_some.mp h
      cases heq'
      have heq : xs = channel :: count :: ys := heq
      obtain ⟨hcount, hbytes⟩ := EntryFormat.decodeFrom_length parseEntryBody_length154 hitems
      have halone : weigh aloneBytes154 (items.map (Batch.recordedOn channel))
          = 22 * items.length + weigh (fun item => item.2.psdu.length) items := by
        rw [weigh_map]
        exact weigh_add 22 _ items
      rw [hrest] at hbytes
      rw [heq] at hlen
      rw [List.length_map] at htwo hsaves
      simp only [List.length_cons, List.length_nil] at hlen hbytes
      rw [halone, hsaves, frameBytes, snHeaderLen]
      omega
    · cases h
  · cases h

/-! ## Bluetooth LE -/

/-- What the packet takes in a frame of its own. -/
def aloneBytesBle (r : Ble.Recorded) : Nat := 22 + r.data.length

/-- What a batch of so many saves. -/
def savingBle (f : Frame) : Nat :=
  if f.type = .bleBatch then 15 * ((Ble.decodeFrame f).elim 0 List.length) - 19 else 0

theorem parseEntryBody_lengthBle {xs rest : List UInt8} {b : Ble.EntryBody}
    (h : Ble.parseEntryBody xs = some (b, rest)) :
    xs.length = 5 + b.data.length + rest.length := by
  simp only [Ble.parseEntryBody, Option.bind_eq_bind, Option.bind_eq_some_iff] at h
  obtain ⟨⟨origLen, xs₁⟩, horig, h⟩ := h
  have h₁ := readLE_length horig
  split at h
  · rename_i flags xs₂ heq
    simp only [Option.bind_eq_some_iff] at h
    obtain ⟨⟨len, xs₃⟩, hlen, ⟨data, after⟩, hdata, heq'⟩ := h
    dsimp only at heq hdata heq'
    cases heq'
    have h₂ := readLE_length hlen
    obtain ⟨h₃, h₄⟩ := takeExact_length hdata
    rw [heq, List.length_cons] at h₁
    show xs.length = 5 + data.length + rest.length
    omega
  · cases h

/-- A frame takes what its packets would, less what it saves. -/
theorem frameBytes_savingBle {f : Frame} {recs : List Ble.Recorded} (hgood : Ble.WellShaped f)
    (h : Ble.decodeFrame f = some recs) :
    frameBytes f + savingBle f = weigh aloneBytesBle recs := by
  have hdec := h
  unfold Ble.decodeFrame at h
  split at h
  · rename_i htype
    have hnone : savingBle f = 0 := if_neg (by rw [htype]; exact nofun)
    simp only [Ble.decodePacket, Option.bind_eq_bind, Option.bind_eq_some_iff] at h
    obtain ⟨⟨ts, xs⟩, hts, ⟨origLen, ys⟩, horig, h⟩ := h
    have h₁ := readLE_length hts
    have h₂ := readLE_length horig
    split at h
    · rename_i flags reserved data heq
      cases h
      dsimp only at heq h₁ h₂
      rw [heq, List.length_cons, List.length_cons] at h₂
      rw [hnone, frameBytes]
      simp only [weigh_cons, weigh_nil, aloneBytesBle, snHeaderLen]
      omega
    · cases h
  · rename_i htype
    obtain ⟨_, recs', hrecs', htwo, _⟩ := hgood htype
    have hsame : recs' = recs := Option.some.inj (hrecs'.symm.trans hdec)
    have hsaves : savingBle f = 15 * recs.length - 19 := by
      rw [savingBle, if_pos htype, hdec]
      rfl
    rw [hsame] at htwo
    simp only [Ble.decodeBatch, Option.bind_eq_bind, Option.bind_eq_some_iff] at h
    obtain ⟨⟨base, xs⟩, hbase, h⟩ := h
    have hlen := readLE_length hbase
    split at h
    · rename_i count ys heq
      simp only [Option.bind_eq_some_iff] at h
      obtain ⟨⟨items, rest⟩, hitems, h⟩ := h
      dsimp only at h hitems
      obtain ⟨hrest, heq'⟩ := Option.ite_none_right_eq_some.mp h
      cases heq'
      obtain ⟨hcount, hbytes⟩ := EntryFormat.decodeFrom_length parseEntryBody_lengthBle hitems
      have halone : weigh aloneBytesBle (items.map Ble.recordedOf)
          = 22 * items.length + weigh (fun item => item.2.data.length) items := by
        rw [weigh_map]
        exact weigh_add 22 _ items
      dsimp only at heq hlen
      rw [hrest] at hbytes
      rw [heq] at hlen
      rw [List.length_map] at htwo hsaves
      simp only [List.length_cons, List.length_nil] at hlen hbytes
      rw [halone, hsaves, frameBytes, snHeaderLen]
      omega
    · cases h
  · cases h

/-! ## Every history -/

/-- **Batches never take more than their packets would alone.** In every
history of either batcher, whatever the link answers, the frames handed over
take on the wire exactly what their packets would, each in a frame of its own,
less 17 bytes for each packet of an 802.15.4 batch, but for the 20 of its
headers, and less 15 for each of a BLE batch, but for the 19 of its. -/
theorem batching_saves (answers : Nat → SendResult) :
    (∀ es, ∃ b o recs rest, Batch.run {} { answers } es = some (b, o) ∧
      decodeAll Batch.decodeFrame o.frames = some recs ∧ Batch.openEntries b = some rest ∧
      recs ++ rest = Batch.added es ∧
      weigh frameBytes o.frames + weigh saving154 o.frames = weigh aloneBytes154 recs) ∧
    ∀ es : List Ble.Event, (∀ e ∈ es, e.Fits) →
      ∃ s o recs rest, Ble.run {} { answers } es = some (s, o) ∧
        decodeAll Ble.decodeFrame o.frames = some recs ∧ Ble.openEntries s.batch = some rest ∧
        recs ++ rest = Ble.forwardedRecords es ∧
        weigh frameBytes o.frames + weigh savingBle o.frames = weigh aloneBytesBle recs := by
  refine ⟨fun es => ?_, fun es hfits => ?_⟩
  · obtain ⟨b, o, ks, hrun, hadv⟩ :=
      Batch.run_advances Batch.rep_initial (by decide) { answers } es
    obtain ⟨recs, hdec, hall, hgood⟩ := hadv.forwards.total
    exact ⟨b, o, recs, _, hrun, hdec, Batch.openEntries_rep hadv.rep, hall,
      decodeAll_weigh frameBytes_saving154 hgood hdec⟩
  · obtain ⟨s, o, ks, hrun, hadv⟩ :=
      Ble.run_advances (s := {}) Ble.rep_initial (by decide) { answers } es hfits
    obtain ⟨recs, hdec, hall, hgood⟩ := hadv.forwards.total
    exact ⟨s, o, recs, _, hrun, hdec, Ble.openEntries_rep hadv.rep, hall,
      decodeAll_weigh frameBytes_savingBle hgood hdec⟩

/-- Two BLE packets in one frame of 37 bytes, eleven less than in two. -/
theorem batching_saves_eleven :
    let es : List Ble.Event :=
      [.forward Ble.h4Iso [1, 2] ⟨5, 0, 0⟩, .forward Ble.h4Iso [] ⟨9, 0, 0⟩, .stopFlush]
    ∃ s o recs rest, Ble.run {} { answers := fun _ => .noMem } es = some (s, o) ∧
      decodeAll Ble.decodeFrame o.frames = some recs ∧ recs ++ rest = Ble.forwardedRecords es ∧
      weigh frameBytes o.frames + weigh savingBle o.frames = weigh aloneBytesBle recs ∧
      weigh frameBytes o.frames = 37 ∧ weigh savingBle o.frames = 11 := by
  intro es
  have hfits : ∀ e ∈ es, e.Fits := by
    intro e he
    simp only [es, List.mem_cons, List.not_mem_nil, or_false] at he
    rcases he with rfl | rfl | rfl <;> simp [Ble.Event.Fits]
  obtain ⟨s, o, recs, rest, hrun, hdec, _, hall, hbytes⟩ :=
    (batching_saves fun _ => .noMem).2 es hfits
  have hcount : (Ble.run {} { answers := fun _ => .noMem } es).any (fun r =>
      weigh frameBytes r.2.frames == 37 && weigh savingBle r.2.frames == 11) = true := by
    decide +kernel
  obtain ⟨r, hr, hfacts⟩ := (Option.any_eq_true _ _).mp hcount
  have hsame : r = (s, o) := Option.some.inj (hr.symm.trans hrun)
  rw [hsame] at hfacts
  simp only [Bool.and_eq_true, beq_iff_eq] at hfacts
  exact ⟨s, o, recs, rest, hrun, hdec, hall, hbytes, hfacts.1, hfacts.2⟩

end Nrf54Sniffer.Board
