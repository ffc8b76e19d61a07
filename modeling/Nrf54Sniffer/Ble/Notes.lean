/-
Nrf54Sniffer.Ble.Notes — what the forwarding thread reads out of the events
that pass it.

Each function works on the bytes of one event, the list `evt` (`hci` where the
H4 byte has been put back on the front), and reads it with `evt[i]?`: the
result is `none` exactly when the code would read past the event.

`k_uptime_get()` is an argument, because the clock goes on between two events
and between two readings during one.
-/
import Nrf54Sniffer.Ble.State

namespace Nrf54Sniffer.Ble

open Nrf54Sniffer.Lib
open Nrf54Sniffer.Wire

/-! ## Answers to commands -/

/-- The opcode and status `note_command_result` picks out of an event:
`none` outside, `some none` for an event that is no answer. -/
def commandResult (evt : List UInt8) : Option (Option (UInt16 × UInt8)) := do
  let code ← evt[0]?
  if code = evtCmdComplete ∧ 6 ≤ evt.length then do
    let opcode := getLe16 (← evt[3]?) (← evt[4]?)
    some (some (opcode, ← evt[5]?))
  else if code = evtCmdStatus ∧ 6 ≤ evt.length then do
    let status ← evt[2]?
    some (some (getLe16 (← evt[4]?) (← evt[5]?), status))
  else some none

/-! ## Counting events -/

/-- The loop of `note_big_established`: the handles from stream `i` on, while
the event names them, there is room for them and the bytes are there. The
first argument is the room left of `MAX_BIS`. -/
def keepHandles (evt : List UInt8) (n : Nat) : Nat → Nat → Option (List UInt16)
  | 0, _ => some []
  | room + 1, i =>
      if i < n ∧ 1 + 2 * (i + 1) ≤ evt.length then do
        let handle := getLe16 (← evt[1 + 2 * i]?) (← evt[1 + 2 * i + 1]?)
        let more ← keepHandles evt n room (i + 1)
        some (handle :: more)
      else some []

/-- `note_big_established`, on the event's bytes from Num_BIS on. -/
def noteBigEstablished (s : BleRadio) (evt : List UInt8) : Option BleRadio := do
  let n ← evt[0]?
  let kept ← keepHandles evt n.toNat maxBis 0
  some { s with follow := { s.follow with bisHandles := kept, isoPathWork := true } }

/-- `if (sync_count > 0u) sync_count--`. -/
def freeSyncSlot (f : Following) : Following := { f with syncCount := f.syncCount - 1 }

/-- `len >= need && evt[3] == BT_HCI_ERR_SUCCESS`. -/
def eventSucceeded (need : Nat) (evt : List UInt8) : Option Bool :=
  if need ≤ evt.length then (evt[3]?).map (· == hciSuccess) else some false

/-- The two cases of the BIG Sync Established event. -/
def noteBigSync (s : BleRadio) (evt : List UInt8) (uptime : Int) : Option BleRadio := do
  let ok ← eventSucceeded 17 evt
  if ok then
    noteBigEstablished { s with follow := { s.follow with bigSynced := true } } (evt.drop 16)
  else
    some { s with follow :=
             { s.follow with bigSynced := false, bigRetryAt := uptime + bigRetryMs } }

/-- The two cases of the Periodic Advertising Sync Established event. -/
def notePeriodicSync (s : BleRadio) (evt : List UInt8) : Option BleRadio := do
  let ok ← eventSucceeded 4 evt
  if ok then
    some { s with stats := { s.stats with periodicSynced := s.stats.periodicSynced + 1 } }
  else
    some { s with
           stats := { s.stats with periodicRefused := s.stats.periodicRefused + 1 }
           follow := freeSyncSlot s.follow }

/-- `note_counts`. -/
def noteCounts (s : BleRadio) (evt : List UInt8) (uptime : Int) : Option BleRadio :=
  if evt.length < 3 then some s
  else do
    let code ← evt[0]?
    if code ≠ evtLeMeta then some s
    else do
      let sub ← evt[2]?
      if sub = leAdvertisingReport ∨ sub = leExtAdvertisingReport then
        some { s with stats := { s.stats with advReports := s.stats.advReports + 1 } }
      else if sub = lePerAdvertisingReport ∨ sub = lePerAdvertisingReportV2 then
        some { s with stats := { s.stats with periodicReports := s.stats.periodicReports + 1 } }
      else if sub = lePerAdvSyncEstablished ∨ sub = lePerAdvSyncEstablishedV2 then
        notePeriodicSync s evt
      else if sub = lePerAdvSyncLost then
        some { s with follow := freeSyncSlot s.follow }
      else if sub = leBigSyncEstablished then
        noteBigSync s evt uptime
      else if sub = leBigSyncLost then
        some { s with follow := { s.follow with bigSynced := false } }
      else some s

/-! ## Trains and broadcasts -/

/-- What `note_periodic` reads out of a report before it decides: the periodic
interval, the address type, and the request it would queue. -/
def periodicReport (hci : List UInt8) : Option (UInt16 × UInt8 × SyncReq) := do
  let interval := getLe16 (← hci[19]?) (← hci[20]?)
  let addrType ← hci[7]?
  let sid ← hci[16]?
  let (addr, _) ← takeExact 6 (hci.drop 8)
  some (interval, addrType, ⟨sid, addrType &&& 0x01, addr⟩)

/-- `k_msgq_put(&sync_q, ...)`, and the work item submitted when it went in. -/
def putSyncReq (f : Following) (req : SyncReq) : Following :=
  if f.syncQ.length < syncQueueDepth then
    { f with syncQ := f.syncQ ++ [req], syncWork := true }
  else f

/-- `note_periodic`. -/
def notePeriodic (s : BleRadio) (hci : List UInt8) : Option BleRadio :=
  if hci.length < 21 then some s
  else do
    let code ← hci[1]?
    let sub ← hci[3]?
    if code ≠ evtLeMeta ∨ sub ≠ leExtAdvertisingReport then some s
    else do
      let (interval, addrType, req) ← periodicReport hci
      if interval = 0 then some s
      else if addrType = 0xFF then some s
      else
        some { s with
               stats := { s.stats with periodicSeen := s.stats.periodicSeen + 1 }
               follow := putSyncReq s.follow req }

/-- The parameters of BIG Create Sync: handle, sync handle, no encryption, an
empty broadcast code, MSE, a 2 s timeout, then one index for each stream. -/
def bigCreateSyncParams (syncHandle : UInt16) (numBis : Nat) : List UInt8 :=
  [0] ++ putLe16 syncHandle ++ [0] ++ List.replicate 16 0 ++ [0, 0xC8, 0x00, UInt8.ofNat numBis]
    ++ (List.range numBis).map fun i => UInt8.ofNat (i + 1)

/-- `note_biginfo`. -/
def noteBigInfo (s : BleRadio) (hci : List UInt8) (uptime : Int) : Option BleRadio :=
  if hci.length < 23 then some s
  else do
    let code ← hci[1]?
    let sub ← hci[3]?
    if code ≠ evtLeMeta ∨ sub ≠ leBigInfoAdvReport then some s
    else if s.follow.bigSynced ∨ uptime < s.follow.bigRetryAt then some s
    else do
      let syncHandle := getLe16 (← hci[4]?) (← hci[5]?)
      let numBis ← hci[6]?
      let encrypted ← hci[22]?
      if numBis = 0 ∨ encrypted ≠ 0 then some s
      else if s.follow.bigPending then some s
      else
        some { s with follow :=
                 { s.follow with
                   bigPending := true
                   bigParams := bigCreateSyncParams syncHandle (min numBis.toNat maxBis)
                   bigWork := true } }

/-! ## What they do -/

/-- `note_periodic` counts a train and asks for it, or does nothing. -/
theorem notePeriodic_cases {s s' : BleRadio} {hci : List UInt8} (h : notePeriodic s hci = some s') :
    s' = s ∨ ∃ req, s' = { s with
      stats := { s.stats with periodicSeen := s.stats.periodicSeen + 1 }
      follow := putSyncReq s.follow req } := by
  unfold notePeriodic at h
  split at h
  · cases h; exact .inl rfl
  · obtain ⟨code, -, h⟩ := Option.bind_eq_some_iff.mp h
    obtain ⟨sub, -, h⟩ := Option.bind_eq_some_iff.mp h
    split at h
    · cases h; exact .inl rfl
    · obtain ⟨r, -, h⟩ := Option.bind_eq_some_iff.mp h
      dsimp only at h
      split at h
      · cases h; exact .inl rfl
      · split at h
        · cases h; exact .inl rfl
        · cases h; exact .inr ⟨r.2.2, rfl⟩

/-- `note_biginfo` fills the mailbox if nothing is in it, or does nothing. -/
theorem noteBigInfo_cases {s s' : BleRadio} {hci : List UInt8} {uptime : Int}
    (h : noteBigInfo s hci uptime = some s') :
    s' = s ∨ s.follow.bigPending = false ∧ ∃ bigParams, s' = { s with follow :=
      { s.follow with bigPending := true, bigParams, bigWork := true } } := by
  unfold noteBigInfo at h
  split at h
  · cases h; exact .inl rfl
  · obtain ⟨code, -, h⟩ := Option.bind_eq_some_iff.mp h
    obtain ⟨sub, -, h⟩ := Option.bind_eq_some_iff.mp h
    split at h
    · cases h; exact .inl rfl
    · split at h
      · cases h; exact .inl rfl
      · obtain ⟨lo, -, h⟩ := Option.bind_eq_some_iff.mp h
        obtain ⟨hi, -, h⟩ := Option.bind_eq_some_iff.mp h
        obtain ⟨numBis, -, h⟩ := Option.bind_eq_some_iff.mp h
        obtain ⟨encrypted, -, h⟩ := Option.bind_eq_some_iff.mp h
        split at h
        · cases h; exact .inl rfl
        · split at h
          · cases h; exact .inl rfl
          · next hfree => cases h; exact .inr ⟨by simpa using hfree, _, rfl⟩

/-! ## What they leave alone -/

/-- The open batch, the configuration and the running flag of two states agree:
nothing an event is looked at for has touched them. -/
structure SameBut (s s' : BleRadio) : Prop where
  batch : s'.batch = s.batch
  running : s'.running = s.running
  ready : s'.ready = s.ready
  periodicEnabled : s'.periodicEnabled = s.periodicEnabled
  filter : s'.filter = s.filter
  keys : s'.keys = s.keys
  keyCount : s'.keyCount = s.keyCount

theorem SameBut.noted (s : BleRadio) (stats : BleStats) (follow : Following) :
    SameBut s { s with stats, follow } :=
  ⟨rfl, rfl, rfl, rfl, rfl, rfl, rfl⟩

theorem SameBut.refl (s : BleRadio) : SameBut s s := .noted s s.stats s.follow

theorem SameBut.trans {s s' s'' : BleRadio} (h : SameBut s s') (h' : SameBut s' s'') :
    SameBut s s'' where
  batch := h'.batch.trans h.batch
  running := h'.running.trans h.running
  ready := h'.ready.trans h.ready
  periodicEnabled := h'.periodicEnabled.trans h.periodicEnabled
  filter := h'.filter.trans h.filter
  keys := h'.keys.trans h.keys
  keyCount := h'.keyCount.trans h.keyCount

/-- An index below the length is read. -/
theorem getElem?_of_lt {xs : List UInt8} {i n : Nat} (h : n ≤ xs.length) (hi : i < n) :
    ∃ x, xs[i]? = some x :=
  ⟨xs[i], List.getElem?_eq_getElem (by omega)⟩

/-- Every handle kept is inside the event. -/
theorem keepHandles_total (evt : List UInt8) (n room i : Nat) :
    ∃ kept, keepHandles evt n room i = some kept := by
  induction room generalizing i with
  | zero => exact ⟨[], rfl⟩
  | succ room ih =>
      unfold keepHandles
      by_cases h : i < n ∧ 1 + 2 * (i + 1) ≤ evt.length
      · obtain ⟨lo, hlo⟩ := getElem?_of_lt h.2 (by omega : 1 + 2 * i < 1 + 2 * (i + 1))
        obtain ⟨hi, hhi⟩ := getElem?_of_lt h.2 (by omega : 1 + 2 * i + 1 < 1 + 2 * (i + 1))
        obtain ⟨more, hmore⟩ := ih (i + 1)
        refine ⟨getLe16 lo hi :: more, ?_⟩
        rw [if_pos h, hlo, hhi, hmore]
        rfl
      · exact ⟨[], if_neg h⟩

theorem noteBigEstablished_spec (s : BleRadio) (evt : List UInt8) (h : 0 < evt.length) :
    ∃ s', noteBigEstablished s evt = some s' ∧ SameBut s s' := by
  obtain ⟨n, hn⟩ := getElem?_of_lt (Nat.le_refl _) h
  obtain ⟨kept, hkept⟩ := keepHandles_total evt n.toNat maxBis 0
  unfold noteBigEstablished
  rw [hn, Option.bind_eq_bind, Option.bind_some, hkept]
  exact ⟨_, rfl, .noted s _ _⟩

/-- The status is read only where the event reaches it. -/
theorem eventSucceeded_total {need : Nat} (hneed : 4 ≤ need) (evt : List UInt8) :
    ∃ ok, eventSucceeded need evt = some ok ∧ (ok = true → need ≤ evt.length) := by
  unfold eventSucceeded
  by_cases h : need ≤ evt.length
  · obtain ⟨status, hstatus⟩ := getElem?_of_lt h (by omega : 3 < need)
    exact ⟨_, by rw [if_pos h, hstatus]; rfl, fun _ => h⟩
  · exact ⟨_, if_neg h, by intro hok; cases hok⟩

theorem notePeriodicSync_spec (s : BleRadio) (evt : List UInt8) :
    ∃ s', notePeriodicSync s evt = some s' ∧ SameBut s s' := by
  obtain ⟨ok, hok, _⟩ := eventSucceeded_total (Nat.le_refl 4) evt
  unfold notePeriodicSync
  rw [hok]
  cases ok with
  | true => exact ⟨_, rfl, .noted s _ _⟩
  | false => exact ⟨_, rfl, .noted s _ _⟩

theorem noteBigSync_spec (s : BleRadio) (evt : List UInt8) (uptime : Int) :
    ∃ s', noteBigSync s evt uptime = some s' ∧ SameBut s s' := by
  obtain ⟨ok, hok, hlen⟩ := eventSucceeded_total (by omega : 4 ≤ 17) evt
  unfold noteBigSync
  rw [hok]
  cases ok with
  | true =>
      have h17 := hlen rfl
      obtain ⟨s', hs', hsame⟩ := noteBigEstablished_spec
        { s with follow := { s.follow with bigSynced := true } } (evt.drop 16)
        (by rw [List.length_drop]; omega)
      exact ⟨s', hs', (SameBut.noted s _ _).trans hsame⟩
  | false => exact ⟨_, rfl, .noted s _ _⟩

/-- `note_counts` reads inside the event and leaves the batch and the
configuration alone. -/
theorem noteCounts_spec (s : BleRadio) (evt : List UInt8) (uptime : Int) :
    ∃ s', noteCounts s evt uptime = some s' ∧ SameBut s s' := by
  unfold noteCounts
  by_cases hlen : evt.length < 3
  · exact ⟨s, if_pos hlen, .refl s⟩
  · obtain ⟨code, hcode⟩ := getElem?_of_lt (by omega : 3 ≤ evt.length) (by omega : 0 < 3)
    obtain ⟨sub, hsub⟩ := getElem?_of_lt (by omega : 3 ≤ evt.length) (by omega : 2 < 3)
    simp only [if_neg hlen, hcode, hsub, Option.bind_eq_bind, Option.bind_some]
    split
    · exact ⟨s, rfl, .refl s⟩
    · split
      · exact ⟨_, rfl, .noted s _ _⟩
      · split
        · exact ⟨_, rfl, .noted s _ _⟩
        · split
          · exact notePeriodicSync_spec s evt
          · split
            · exact ⟨_, rfl, .noted s _ _⟩
            · split
              · exact noteBigSync_spec s evt uptime
              · split
                · exact ⟨_, rfl, .noted s _ _⟩
                · exact ⟨s, rfl, .refl s⟩

/-- A report long enough for the test in front of it is read. -/
theorem periodicReport_total {hci : List UInt8} (h : 21 ≤ hci.length) :
    ∃ r, periodicReport hci = some r := by
  obtain ⟨lo, hlo⟩ := getElem?_of_lt h (by omega : 19 < 21)
  obtain ⟨hi, hhi⟩ := getElem?_of_lt h (by omega : 20 < 21)
  obtain ⟨addrType, htype⟩ := getElem?_of_lt h (by omega : 7 < 21)
  obtain ⟨sid, hsid⟩ := getElem?_of_lt h (by omega : 16 < 21)
  have haddr : takeExact 6 (hci.drop 8) = some ((hci.drop 8).take 6, (hci.drop 8).drop 6) :=
    if_pos (by rw [List.length_drop]; omega)
  unfold periodicReport
  simp only [hlo, hhi, htype, hsid, haddr, Option.bind_eq_bind, Option.bind_some]
  exact ⟨_, rfl⟩

theorem notePeriodic_spec (s : BleRadio) (hci : List UInt8) :
    ∃ s', notePeriodic s hci = some s' ∧ SameBut s s' := by
  unfold notePeriodic
  by_cases hlen : hci.length < 21
  · exact ⟨s, if_pos hlen, .refl s⟩
  · have h21 : 21 ≤ hci.length := by omega
    obtain ⟨code, hcode⟩ := getElem?_of_lt h21 (by omega : 1 < 21)
    obtain ⟨sub, hsub⟩ := getElem?_of_lt h21 (by omega : 3 < 21)
    obtain ⟨⟨interval, addrType, req⟩, hr⟩ := periodicReport_total h21
    simp only [if_neg hlen, hcode, hsub, hr, Option.bind_eq_bind, Option.bind_some]
    split
    · exact ⟨s, rfl, .refl s⟩
    · split
      · exact ⟨s, rfl, .refl s⟩
      · split
        · exact ⟨s, rfl, .refl s⟩
        · exact ⟨_, rfl, .noted s _ _⟩

theorem noteBigInfo_spec (s : BleRadio) (hci : List UInt8) (uptime : Int) :
    ∃ s', noteBigInfo s hci uptime = some s' ∧ SameBut s s' := by
  unfold noteBigInfo
  by_cases hlen : hci.length < 23
  · exact ⟨s, if_pos hlen, .refl s⟩
  · have h23 : 23 ≤ hci.length := by omega
    obtain ⟨code, hcode⟩ := getElem?_of_lt h23 (by omega : 1 < 23)
    obtain ⟨sub, hsub⟩ := getElem?_of_lt h23 (by omega : 3 < 23)
    obtain ⟨lo, hlo⟩ := getElem?_of_lt h23 (by omega : 4 < 23)
    obtain ⟨hi, hhi⟩ := getElem?_of_lt h23 (by omega : 5 < 23)
    obtain ⟨numBis, hnum⟩ := getElem?_of_lt h23 (by omega : 6 < 23)
    obtain ⟨enc, henc⟩ := getElem?_of_lt h23 (by omega : 22 < 23)
    simp only [if_neg hlen, hcode, hsub, hlo, hhi, hnum, henc, Option.bind_eq_bind,
      Option.bind_some]
    split
    · exact ⟨s, rfl, .refl s⟩
    · split
      · exact ⟨s, rfl, .refl s⟩
      · split
        · exact ⟨s, rfl, .refl s⟩
        · split
          · exact ⟨s, rfl, .refl s⟩
          · exact ⟨_, rfl, .noted s _ _⟩

end Nrf54Sniffer.Ble
