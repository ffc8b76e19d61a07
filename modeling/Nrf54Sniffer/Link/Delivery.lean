/-
Nrf54Sniffer.Link.Delivery — what comes of the frames one sender hands to the
link, as far as the host.

The calls that returned 0 are the frames of the link's own record
(`served_accepted`), and the host reads those in order, so the items a sender
packed into its frames arrive in their order, and the ones that do not arrive
are in the refused frames and in the frames the ring still holds
(`served_delivers`). The frames of the other senders in between do not matter.
-/
import Nrf54Sniffer.Link.HostView

namespace Nrf54Sniffer.Link

open Nrf54Sniffer.Lib
open Nrf54Sniffer.Wire

variable {W : WireFormat} {C : FrameCoding} {encode : Encode}

/-! ## What arrives -/

/-- **The host reads the frames accepted**, as far as they have come. -/
theorem Encodes.hostReads_take (hencode : Encodes W C encode) {t : State} {ls : List Label}
    (hrun : (machine encode).run {} ls = some t)
    (htypes : ∀ f ∈ t.accepted, f.type ∈ sentTypes) :
    ∃ n, n ≤ t.accepted.length ∧ hostReads W C t.wire = t.accepted.take n ∧
      (t.unsent = [] → n = t.accepted.length) := by
  obtain ⟨n, rest, hle, hparses, hrest, hnext⟩ :=
    hencode.parses (hencode.run_fits hrun).accepted (run_inv hrun).wire
  refine ⟨n, hle, ?_, fun hempty => ?_⟩
  · rw [hostReads, hparses.run, List.map_map]
    refine (List.map_congr_left fun f hf => ?_).trans (List.map_id _)
    exact C.read_call (htypes f (List.mem_of_mem_take hf))
  · rw [hempty, List.append_nil, Nat.zero_add] at hrest
    exact hencode.parsed_all (hencode.run_fits hrun).accepted hle hrest hnext

/-- One sender's frames among the calls. -/
theorem keptFrames_filter (mine : Frame → Bool) (kept : Bool) (calls : List (Frame × Bool)) :
    keptFrames kept (calls.filter fun c => mine c.1) = (keptFrames kept calls).filter mine := by
  simp only [keptFrames, List.filter_map, List.filter_filter]
  congr 1
  apply List.filter_congr
  intro c _
  simp only [Function.comp, Bool.and_comm]

/-- **A sender's items arrive in order, or are accounted for.** Of what it
packed into its frames the host has some, the frames in the ring hold some, and
the refused frames the rest. -/
theorem served_delivers {β : Type} {decode : Frame → Option (List β)} {mine : Frame → Bool}
    {t : State} {calls : List (Frame × Bool)} {ls : List Label} {items : List β}
    (hencode : Encodes W C encode) (hrun : (served encode).run ({}, []) ls = some (t, calls))
    (htypes : ∀ c ∈ calls, c.1.type ∈ sentTypes)
    (hdec : decodeAll decode ((calls.filter fun c => mine c.1).map Prod.fst) = some items) :
    ∃ n recs waiting lost,
      hostReads W C t.wire = t.accepted.take n ∧
      decodeAll decode ((hostReads W C t.wire).filter mine) = some recs ∧
      decodeAll decode ((t.accepted.drop n).filter mine) = some waiting ∧
      decodeAll decode (keptFrames false (calls.filter fun c => mine c.1)) = some lost ∧
      (recs ++ waiting).Sublist items ∧ (recs ++ waiting ++ lost).Perm items ∧
      (t.unsent = [] → waiting = []) := by
  have haccepted := served_accepted hrun
  have hsent : ∀ f ∈ t.accepted, f.type ∈ sentTypes := by
    intro f hf
    rw [haccepted] at hf
    obtain ⟨c, hc, rfl⟩ := List.mem_map.mp hf
    exact htypes c (List.mem_filter.mp hc).1
  obtain ⟨n, _, hreads, hall⟩ := hencode.hostReads_take (served_run hrun) hsent
  obtain ⟨kept, lost, hkept, hlost, hsub, hperm⟩ := decodeAll_kept hdec
  rw [keptFrames_filter, ← haccepted, ← List.take_append_drop n t.accepted, List.filter_append]
    at hkept
  obtain ⟨recs, waiting, hrecs, hwaiting, rfl⟩ := decodeAll_append_eq_some hkept
  refine ⟨n, recs, waiting, lost, hreads, by rw [hreads]; exact hrecs, hwaiting, hlost, hsub, hperm,
    fun hempty => ?_⟩
  rw [hall hempty, List.drop_length] at hwaiting
  exact (Option.some.inj hwaiting).symm

end Nrf54Sniffer.Link
