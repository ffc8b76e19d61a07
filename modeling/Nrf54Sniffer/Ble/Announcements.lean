/-
Nrf54Sniffer.Ble.Announcements — what an event of the controller tells there is
to follow.

A train, a broadcast and the streams of a broadcast that was joined, each read
off the whole event by its layout. `note_periodic`, `note_biginfo` and
`note_counts` read two of them off a copy cut to 32 bytes, in order of the
fields, and write down just these (`Followed`).
-/
import Nrf54Sniffer.Ble.Forward

namespace Nrf54Sniffer.Ble

open Nrf54Sniffer.Lib
open Nrf54Sniffer.Wire

/-! ## The events -/

/-- LE Extended Advertising Report: the train of an advertiser that has an
address and a periodic interval. -/
def trainOf (data : List UInt8) : Option SyncReq := do
  let code ← data[0]?
  let sub ← data[2]?
  let addrType ← data[6]?
  let sid ← data[15]?
  let interval := getLe16 (← data[18]?) (← data[19]?)
  if code = evtLeMeta ∧ sub = leExtAdvertisingReport ∧ interval ≠ 0 ∧ addrType ≠ 0xFF then
    some ⟨sid, addrType &&& 0x01, (data.drop 7).take 6⟩
  else none

/-- LE BIGInfo Advertising Report: the parameters of a BIG Create Sync for a
broadcast that is not encrypted and has a stream. -/
def broadcastOf (data : List UInt8) : Option (List UInt8) := do
  let code ← data[0]?
  let sub ← data[2]?
  let syncHandle := getLe16 (← data[3]?) (← data[4]?)
  let numBis ← data[5]?
  let encrypted ← data[21]?
  if code = evtLeMeta ∧ sub = leBigInfoAdvReport ∧ numBis ≠ 0 ∧ encrypted = 0 then
    some (bigCreateSyncParams syncHandle (min numBis.toNat maxBis))
  else none

/-- Sixteen-bit fields, as far as they go. -/
def handlesIn : List UInt8 → List UInt16
  | lo :: hi :: rest => getLe16 lo hi :: handlesIn rest
  | _ => []

/-- LE BIG Sync Established: the streams joined, as many as there is room
for. -/
def streamsOf : List UInt8 → List UInt16
  | code :: _ :: sub :: status :: rest =>
      if code = evtLeMeta ∧ sub = leBigSyncEstablished ∧ status = hciSuccess then
        match rest.drop 12 with
        | numBis :: handles => (handlesIn handles).take (min numBis.toNat maxBis)
        | [] => []
      else []
  | _ => []

/-! ## What is written down -/

/-- The requests that wait before and after an event. -/
structure Followed (f f' : Following) (data : List UInt8) : Prop where
  trains : f'.syncQ = f.syncQ ∨ ∃ req, trainOf data = some req ∧ f'.syncQ = f.syncQ ++ [req]
  broadcast : (f'.bigWork = f.bigWork ∧ f'.bigParams = f.bigParams) ∨
    ∃ params, broadcastOf data = some params ∧ f'.bigParams = params
  streams : (f'.isoPathWork = f.isoPathWork ∧ f'.bisHandles = f.bisHandles) ∨
    f'.bisHandles = streamsOf data

/-! ## `note_counts` -/

theorem handlesIn_short {xs : List UInt8} (h : xs.length < 2) : handlesIn xs = [] := by
  match xs with
  | [] => rfl
  | [_] => rfl
  | _ :: _ :: rest => exact absurd h (by simp)

/-- The loop keeps the handles there are, as many as the event names and there
is room for. -/
theorem keepHandles_eq {evt : List UInt8} {n room i : Nat} {kept : List UInt16}
    (h : keepHandles evt n room i = some kept) :
    kept = (handlesIn (evt.drop (1 + 2 * i))).take (min (n - i) room) := by
  induction room generalizing i kept with
  | zero =>
      cases h
      simp
  | succ room ih =>
      unfold keepHandles at h
      split at h
      · rename_i hgoes
        simp only [Option.bind_eq_bind, Option.bind_eq_some_iff] at h
        obtain ⟨lo, hlo, hi, hhi, more, hmore, heq⟩ := h
        cases heq
        obtain ⟨hloIn, rfl⟩ := List.getElem?_eq_some_iff.mp hlo
        obtain ⟨hhiIn, rfl⟩ := List.getElem?_eq_some_iff.mp hhi
        have hdrop : evt.drop (1 + 2 * i)
            = evt[1 + 2 * i] :: evt[1 + 2 * i + 1] :: evt.drop (1 + 2 * (i + 1)) := by
          have hnext : 1 + 2 * (i + 1) = 1 + 2 * i + 1 + 1 := by omega
          rw [List.drop_eq_getElem_cons hloIn, List.drop_eq_getElem_cons hhiIn, hnext]
        have hcount : min (n - i) (room + 1) = min (n - (i + 1)) room + 1 := by omega
        rw [hdrop, handlesIn, hcount, List.take_succ_cons, ih hmore]
      · rename_i hends
        cases h
        by_cases hn : i < n
        · have hshort : (evt.drop (1 + 2 * i)).length < 2 := by
            rw [List.length_drop]
            omega
          rw [handlesIn_short hshort, List.take_nil]
        · have hnone : min (n - i) (room + 1) = 0 := by omega
          rw [hnone, List.take_zero]

/-- Nothing of what waits has changed but the streams. -/
structure StreamsNoted (f f' : Following) (evt : List UInt8) : Prop where
  syncQ : f'.syncQ = f.syncQ
  bigWork : f'.bigWork = f.bigWork
  bigParams : f'.bigParams = f.bigParams
  streams : (f'.isoPathWork = f.isoPathWork ∧ f'.bisHandles = f.bisHandles) ∨
    f'.bisHandles = streamsOf evt

/-- A BIG that was joined. -/
theorem noteBigSync_followed {s s' : BleRadio} {evt : List UInt8} {uptime : Int}
    (hcode : evt[0]? = some evtLeMeta) (hsub : evt[2]? = some leBigSyncEstablished)
    (h : noteBigSync s evt uptime = some s') : StreamsNoted s.follow s'.follow evt := by
  unfold noteBigSync at h
  obtain ⟨ok, hok, h⟩ := Option.bind_eq_some_iff.mp h
  cases ok with
  | false =>
      cases h
      exact ⟨rfl, rfl, rfl, .inl ⟨rfl, rfl⟩⟩
  | true =>
      obtain ⟨numBis, hnum, h⟩ := Option.bind_eq_some_iff.mp h
      obtain ⟨kept, hkept, h⟩ := Option.bind_eq_some_iff.mp h
      cases h
      refine ⟨rfl, rfl, rfl, .inr ?_⟩
      show kept = streamsOf evt
      rw [keepHandles_eq hkept]
      unfold eventSucceeded at hok
      split at hok
      · match evt, hcode, hsub, hok, hnum with
        | code :: len :: sub :: status :: rest, hcode, hsub, hok, hnum =>
            simp only [List.getElem?_cons_zero, List.getElem?_cons_succ, Option.some.injEq,
              Option.map_some, beq_iff_eq, List.drop_succ_cons] at hcode hsub hok hnum ⊢
            obtain ⟨handles, hrest⟩ : ∃ handles, rest.drop 12 = numBis :: handles := by
              cases htail : rest.drop 12 with
              | nil => simp [htail] at hnum
              | cons n handles =>
                  simp only [htail, List.getElem?_cons_zero, Option.some.injEq] at hnum
                  exact ⟨handles, by rw [hnum]⟩
            simp [streamsOf, hcode, hsub, hok, hrest]
      · cases hok

/-- Only an event that reports a BIG joined has streams. -/
theorem noteCounts_followed {s s' : BleRadio} {evt : List UInt8} {uptime : Int}
    (h : noteCounts s evt uptime = some s') : StreamsNoted s.follow s'.follow evt := by
  unfold noteCounts at h
  split at h
  · cases h
    exact ⟨rfl, rfl, rfl, .inl ⟨rfl, rfl⟩⟩
  · obtain ⟨code, hcode, h⟩ := Option.bind_eq_some_iff.mp h
    split at h
    · cases h
      exact ⟨rfl, rfl, rfl, .inl ⟨rfl, rfl⟩⟩
    · rename_i hmeta
      obtain ⟨sub, hsub, h⟩ := Option.bind_eq_some_iff.mp h
      split at h
      · cases h
        exact ⟨rfl, rfl, rfl, .inl ⟨rfl, rfl⟩⟩
      · split at h
        · cases h
          exact ⟨rfl, rfl, rfl, .inl ⟨rfl, rfl⟩⟩
        · split at h
          · unfold notePeriodicSync at h
            obtain ⟨ok, _, h⟩ := Option.bind_eq_some_iff.mp h
            cases ok with
            | true => cases h; exact ⟨rfl, rfl, rfl, .inl ⟨rfl, rfl⟩⟩
            | false => cases h; exact ⟨rfl, rfl, rfl, .inl ⟨rfl, rfl⟩⟩
          · split at h
            · cases h
              exact ⟨rfl, rfl, rfl, .inl ⟨rfl, rfl⟩⟩
            · split at h
              · rename_i hjoined
                rw [Decidable.not_not.mp hmeta] at hcode
                rw [hjoined] at hsub
                exact noteBigSync_followed hcode hsub h
              · split at h
                · cases h
                  exact ⟨rfl, rfl, rfl, .inl ⟨rfl, rfl⟩⟩
                · cases h
                  exact ⟨rfl, rfl, rfl, .inl ⟨rfl, rfl⟩⟩

/-! ## `note_periodic` and `note_biginfo` -/

/-- What the copy keeps of the event. -/
theorem peekCopy_getElem? {data : List UInt8} {k : Nat} (hk : k < 31) :
    (peekCopy data)[k + 1]? = data[k]? := by
  unfold peekCopy
  rw [List.getElem?_cons_succ, List.getElem?_take]
  split
  · rfl
  · rename_i hcut
    rw [List.getElem?_eq_none (by omega)]

theorem peekCopy_length (data : List UInt8) :
    (peekCopy data).length = min 32 (data.length + 1) := by
  simp only [peekCopy, List.length_cons, List.length_take]
  omega

theorem peekCopy_addr {data : List UInt8} (h : 20 ≤ data.length) :
    ((peekCopy data).drop 8).take 6 = (data.drop 7).take 6 := by
  have hroom : min 6 (min 32 (data.length + 1) - 1 - 7) = 6 := by omega
  rw [peekCopy, List.drop_succ_cons, List.drop_take, List.take_take, hroom]

/-- A train is asked for when the event announces one. -/
theorem notePeriodic_followed {s s' : BleRadio} {data : List UInt8}
    (h : notePeriodic s (peekCopy data) = some s') :
    s' = s ∨ ∃ req, trainOf data = some req ∧ s' = { s with
      stats := { s.stats with periodicSeen := s.stats.periodicSeen + 1 }
      follow := putSyncReq s.follow req } := by
  unfold notePeriodic at h
  split at h
  · cases h
    exact .inl rfl
  · rename_i hlen
    rw [peekCopy_length] at hlen
    obtain ⟨code, hcode, h⟩ := Option.bind_eq_some_iff.mp h
    obtain ⟨sub, hsub, h⟩ := Option.bind_eq_some_iff.mp h
    split at h
    · cases h
      exact .inl rfl
    · rename_i hkind
      obtain ⟨⟨interval, addrType, req⟩, hread, h⟩ := Option.bind_eq_some_iff.mp h
      simp only [periodicReport, Option.bind_eq_bind, Option.bind_eq_some_iff] at hread
      obtain ⟨lo, hlo, hi, hhi, type, htype, sid, hsid, ⟨addr, rest⟩, haddr, heq⟩ := hread
      cases heq
      rw [peekCopy_getElem? (by omega)] at hcode hsub hlo hhi htype hsid
      have haddr : addr = (data.drop 7).take 6 := by
        unfold takeExact at haddr
        split at haddr
        · cases haddr
          exact peekCopy_addr (by omega)
        · cases haddr
      have hkind : code = evtLeMeta ∧ sub = leExtAdvertisingReport := by
        simpa only [not_or, ne_eq, Decidable.not_not] using hkind
      dsimp only at h
      split at h
      · cases h
        exact .inl rfl
      · rename_i hinterval
        split at h
        · cases h
          exact .inl rfl
        · rename_i haddrType
          cases h
          refine .inr ⟨_, ?_, rfl⟩
          simp only [trainOf, hcode, hsub, hlo, hhi, htype, hsid, haddr, Option.bind_eq_bind,
            Option.bind_some]
          exact if_pos ⟨hkind.1, hkind.2, hinterval, haddrType⟩

/-- A broadcast is asked for when the event announces one that can be joined. -/
theorem noteBigInfo_followed {s s' : BleRadio} {data : List UInt8} {uptime : Int}
    (h : noteBigInfo s (peekCopy data) uptime = some s') :
    s' = s ∨ ∃ params, broadcastOf data = some params ∧
      s' = { s with follow :=
        { s.follow with bigPending := true, bigParams := params, bigWork := true } } := by
  unfold noteBigInfo at h
  split at h
  · cases h
    exact .inl rfl
  · obtain ⟨code, hcode, h⟩ := Option.bind_eq_some_iff.mp h
    obtain ⟨sub, hsub, h⟩ := Option.bind_eq_some_iff.mp h
    split at h
    · cases h
      exact .inl rfl
    · rename_i hkind
      split at h
      · cases h
        exact .inl rfl
      · obtain ⟨lo, hlo, h⟩ := Option.bind_eq_some_iff.mp h
        obtain ⟨hi, hhi, h⟩ := Option.bind_eq_some_iff.mp h
        obtain ⟨numBis, hnum, h⟩ := Option.bind_eq_some_iff.mp h
        obtain ⟨encrypted, henc, h⟩ := Option.bind_eq_some_iff.mp h
        rw [peekCopy_getElem? (by omega)] at hcode hsub hlo hhi hnum henc
        have hkind : code = evtLeMeta ∧ sub = leBigInfoAdvReport := by
          simpa only [not_or, ne_eq, Decidable.not_not] using hkind
        split at h
        · cases h
          exact .inl rfl
        · rename_i hjoins
          have hjoins : numBis ≠ 0 ∧ encrypted = 0 := by
            simpa only [not_or, ne_eq, Decidable.not_not] using hjoins
          split at h
          · cases h
            exact .inl rfl
          · cases h
            refine .inr ⟨_, ?_, rfl⟩
            simp only [broadcastOf, hcode, hsub, hlo, hhi, hnum, henc, Option.bind_eq_bind,
              Option.bind_some]
            exact if_pos ⟨hkind.1, hkind.2, hjoins.1, hjoins.2⟩

/-! ## `forward` -/

/-- **What `forward` writes down of an event is what the event announces.** -/
theorem beforeLock_followed {s : BleRadio} {h4 : UInt8} {data : List UInt8} {now : Readings}
    {r : BleRadio × Sized} (h : beforeLock s h4 data now = some r) :
    r.1.follow = s.follow ∨ h4 = h4Event ∧ Followed s.follow r.1.follow data := by
  unfold beforeLock at h
  obtain ⟨s₁, hcount, h⟩ := Option.bind_eq_some_iff.mp h
  obtain ⟨s₂, hpeek, h⟩ := Option.bind_eq_some_iff.mp h
  cases h
  have hover : (countOversized s (sizePacket h4 data now.nowUs)).follow = s.follow := by
    unfold countOversized
    split
    · rfl
    · rfl
  by_cases hevent : h4 = h4Event
  · refine .inr ⟨hevent, ?_⟩
    rw [countEvent, if_pos hevent] at hcount
    obtain ⟨hq, hwork, hparams, hstreams⟩ := noteCounts_followed hcount
    rw [hover] at hq hwork hparams hstreams
    unfold peekEvent at hpeek
    split at hpeek
    · obtain ⟨s₃, hperiodic, hbig⟩ := Option.bind_eq_some_iff.mp hpeek
      have htrains : s₃.follow.bigWork = s₁.follow.bigWork ∧
          s₃.follow.bigParams = s₁.follow.bigParams ∧
          s₃.follow.isoPathWork = s₁.follow.isoPathWork ∧
          s₃.follow.bisHandles = s₁.follow.bisHandles ∧
          (s₃.follow.syncQ = s₁.follow.syncQ ∨ ∃ req, trainOf data = some req ∧
            s₃.follow.syncQ = s₁.follow.syncQ ++ [req]) := by
        rcases notePeriodic_followed hperiodic with rfl | ⟨req, hreq, rfl⟩
        · exact ⟨rfl, rfl, rfl, rfl, .inl rfl⟩
        · unfold putSyncReq
          dsimp only
          split
          · exact ⟨rfl, rfl, rfl, rfl, .inr ⟨req, hreq, rfl⟩⟩
          · exact ⟨rfl, rfl, rfl, rfl, .inl rfl⟩
      obtain ⟨hwork', hparams', hiso, hhandles, hq'⟩ := htrains
      rw [hq] at hq'
      rw [hwork] at hwork'
      rw [hparams] at hparams'
      rw [← hiso, ← hhandles] at hstreams
      rcases noteBigInfo_followed hbig with rfl | ⟨params, hbroadcast, rfl⟩
      · exact ⟨hq', .inl ⟨hwork', hparams'⟩, hstreams⟩
      · exact ⟨hq', .inr ⟨params, hbroadcast, rfl⟩, hstreams⟩
    · cases hpeek
      exact ⟨.inl hq, .inl ⟨hwork, hparams⟩, hstreams⟩
  · rw [countEvent, if_neg hevent] at hcount
    cases hcount
    unfold peekEvent at hpeek
    rw [if_neg fun h => hevent h.2] at hpeek
    cases hpeek
    exact .inl hover

end Nrf54Sniffer.Ble
