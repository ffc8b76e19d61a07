/-
Nrf54Sniffer.Ble.Reports — what a packet says of a periodic sync or of a BIG,
and what `note_counts` makes of it.

`reports` reads the kind and the outcome off the bytes, and `Noted` is all that
`note_counts` writes down of it (`noteCounts_noted`). `beforeLock_slots` says that
the two slots change by what it reads and by nothing else.
-/
import Nrf54Sniffer.Ble.Commands

namespace Nrf54Sniffer.Ble.Slots

open Nrf54Sniffer.Lib
open Nrf54Sniffer.Wire

/-! ## The two slots -/

/-- A periodic train, or a broadcast (a BIG). -/
inductive Kind where
  | train
  | broadcast
  deriving DecidableEq, Repr

namespace Kind

/-- The command that asks for it. -/
def opcode : Kind → UInt16
  | .train => opLePerAdvCreateSync
  | .broadcast => opLeBigCreateSync

/-- What a command asks for. -/
def ofOpcode (opcode : UInt16) : Option Kind :=
  if opcode = opLePerAdvCreateSync then some .train
  else if opcode = opLeBigCreateSync then some .broadcast
  else none

/-- The subevent that reports it made or failed, in either version. -/
def establishedCode : Kind → Bool → UInt8
  | .train, false => lePerAdvSyncEstablished
  | .train, true => lePerAdvSyncEstablishedV2
  | .broadcast, _ => leBigSyncEstablished

/-- The subevent that reports it lost. -/
def lostCode : Kind → UInt8
  | .train => lePerAdvSyncLost
  | .broadcast => leBigSyncLost

instance decidableForall (p : Kind → Prop) [DecidablePred p] : Decidable (∀ k, p k) :=
  decidable_of_iff (p .train ∧ p .broadcast)
    ⟨fun h k => by cases k with | train => exact h.1 | broadcast => exact h.2,
      fun h => ⟨h .train, h .broadcast⟩⟩

end Kind

/-- Whether the slot is taken. -/
def taken (s : BleRadio) : Kind → Bool
  | .train => s.follow.syncCount != 0
  | .broadcast => s.follow.bigSynced

/-! ## Reports -/

/-- An LE Meta event. -/
def leMetaEvent (sub : UInt8) (params : List UInt8) : List UInt8 :=
  [evtLeMeta, UInt8.ofNat (1 + params.length), sub] ++ params

/-- What an LE Meta event reports: a sync of a kind made, or else failed or
lost. A BIG made says so in 17 bytes at least. -/
def reportOf (sub : UInt8) (params : List UInt8) : Option (Kind × Bool) :=
  if sub = lePerAdvSyncEstablished ∨ sub = lePerAdvSyncEstablishedV2 then
    some (.train, params.head? == some hciSuccess)
  else if sub = lePerAdvSyncLost then some (.train, false)
  else if sub = leBigSyncEstablished then
    some (.broadcast, decide (17 ≤ params.length + 3) && params.head? == some hciSuccess)
  else if sub = leBigSyncLost then some (.broadcast, false)
  else none

/-- What a packet reports. -/
def reports (h4 : UInt8) : List UInt8 → Option (Kind × Bool)
  | code :: _ :: sub :: params =>
      if h4 = h4Event ∧ code = evtLeMeta then reportOf sub params else none
  | _ => none

/-! ## What the forwarding thread makes of it -/

/-- The two slots. -/
def slots (s : BleRadio) : Nat × Bool := (s.follow.syncCount, s.follow.bigSynced)

/-- The slots after a report. -/
def afterReport (p : Nat × Bool) : Option (Kind × Bool) → Nat × Bool
  | some (.train, false) => (p.1 - 1, p.2)
  | some (.broadcast, joined) => (p.1, joined)
  | _ => p

/-- What `note_counts` writes down of a report. -/
inductive Noted (f : Following) : Option (Kind × Bool) → Following → Prop where
  | other : Noted f none f
  | synced : Noted f (some (.train, true)) f
  | unsynced : Noted f (some (.train, false)) (freeSyncSlot f)
  | joined (handles : List UInt16) : Noted f (some (.broadcast, true))
      { f with bigSynced := true, bisHandles := handles, isoPathWork := true }
  | parted (retryAt : Int) : Noted f (some (.broadcast, false))
      { f with bigSynced := false, bigRetryAt := retryAt }

theorem Noted.slots {f f' : Following} {report : Option (Kind × Bool)} (h : Noted f report f') :
    (f'.syncCount, f'.bigSynced) = afterReport (f.syncCount, f.bigSynced) report := by
  cases h with
  | other => rfl
  | synced => rfl
  | unsynced => rfl
  | joined handles => rfl
  | parted retryAt => rfl

theorem noteBigSync_noted {s s' : BleRadio} {evt : List UInt8} {uptime : Int}
    (h : noteBigSync s evt uptime = some s') :
    ∃ ok, eventSucceeded 17 evt = some ok ∧ Noted s.follow (some (.broadcast, ok)) s'.follow := by
  unfold noteBigSync at h
  obtain ⟨ok, hok, h⟩ := Option.bind_eq_some_iff.mp h
  refine ⟨ok, hok, ?_⟩
  cases ok with
  | false => cases h; exact .parted _
  | true =>
      obtain ⟨n, -, h⟩ := Option.bind_eq_some_iff.mp h
      obtain ⟨kept, -, h⟩ := Option.bind_eq_some_iff.mp h
      cases h
      exact .joined kept

theorem notePeriodicSync_noted {s s' : BleRadio} {evt : List UInt8}
    (h : notePeriodicSync s evt = some s') :
    ∃ ok, eventSucceeded 4 evt = some ok ∧ Noted s.follow (some (.train, ok)) s'.follow := by
  unfold notePeriodicSync at h
  obtain ⟨ok, hok, h⟩ := Option.bind_eq_some_iff.mp h
  refine ⟨ok, hok, ?_⟩
  cases ok with
  | true => cases h; exact .synced
  | false => cases h; exact .unsynced

/-- The status is the byte after the subevent. -/
theorem eventSucceeded_cons (need : Nat) (code len sub : UInt8) (params : List UInt8)
    (hneed : 4 ≤ need) :
    eventSucceeded need (code :: len :: sub :: params) =
      some (decide (need ≤ params.length + 3) && params.head? == some hciSuccess) := by
  unfold eventSucceeded
  by_cases hlen : need ≤ params.length + 3
  · rw [decide_eq_true hlen]
    cases params with
    | nil => exact absurd (Nat.le_trans hneed hlen) (by simp)
    | cons status params => exact if_pos hlen
  · rw [decide_eq_false hlen]
    exact if_neg hlen

/-- The branches of `note_counts` past the event code. -/
theorem noteMeta_noted {s s' : BleRadio} {evt : List UInt8} {len sub : UInt8} {params : List UInt8}
    {uptime : Int} (hevt : evt = evtLeMeta :: len :: sub :: params)
    (h : noteCounts s evt uptime = some s') :
    Noted s.follow (reportOf sub params) s'.follow := by
  have hlen : ¬ evt.length < 3 := by simp [hevt]
  unfold noteCounts at h
  rw [if_neg hlen] at h
  have h0 : evt[0]? = some evtLeMeta := by rw [hevt]; rfl
  have h2 : evt[2]? = some sub := by rw [hevt]; rfl
  rw [h0, h2] at h
  simp only [Option.bind_eq_bind, Option.bind_some, ne_eq, not_true_eq_false, if_false] at h
  unfold reportOf
  split at h
  · next hsub =>
      cases h
      rcases hsub with rfl | rfl
      · exact .other
      · exact .other
  · split at h
    · next hsub =>
        cases h
        rcases hsub with rfl | rfl
        · exact .other
        · exact .other
    · split at h
      · next hmade =>
          obtain ⟨ok, hok, hnoted⟩ := notePeriodicSync_noted h
          rw [hevt, eventSucceeded_cons 4 _ len sub params (Nat.le_refl 4)] at hok
          rw [if_pos hmade]
          cases params with
          | nil => cases hok; exact hnoted
          | cons status params =>
              have hlong : decide (4 ≤ (status :: params).length + 3) = true :=
                decide_eq_true (Nat.le_add_left 4 params.length)
              rw [hlong, Bool.true_and] at hok
              cases hok
              exact hnoted
      · next hmade =>
          rw [if_neg hmade]
          split at h
          · next hlost => cases h; rw [if_pos hlost]; exact .unsynced
          · next hlost =>
              rw [if_neg hlost]
              split at h
              · next hbig =>
                  obtain ⟨ok, hok, hnoted⟩ := noteBigSync_noted h
                  rw [hevt, eventSucceeded_cons 17 _ len sub params (by omega)] at hok
                  cases hok
                  rw [if_pos hbig]
                  exact hnoted
              · next hbig =>
                  rw [if_neg hbig]
                  split at h
                  · next hgone => cases h; rw [if_pos hgone]; exact .parted _
                  · next hgone => cases h; rw [if_neg hgone]; exact .other

/-- A report is never dropped while a capture runs. -/
theorem captures_of_reports {h4 : UInt8} {data : List UInt8} {r : Kind × Bool}
    (h : reports h4 data = some r) : captures h4 data = true := by
  unfold reports at h
  split at h
  · split at h
    · next hmeta =>
        rw [hmeta.1, hmeta.2]
        rfl
    · cases h
  · cases h

@[simp] theorem reports_leMetaEvent (sub : UInt8) (params : List UInt8) :
    reports h4Event (leMetaEvent sub params) = reportOf sub params := by
  simp [reports, leMetaEvent]

/-- Only an LE Meta event reports. -/
theorem reports_of_code {h4 code len sub : UInt8} {params : List UInt8} (h : code ≠ evtLeMeta) :
    reports h4 (code :: len :: sub :: params) = none :=
  if_neg fun hmeta => h hmeta.2

/-- What `note_counts` writes down is what the event reports. -/
theorem noteCounts_noted {s s' : BleRadio} {evt : List UInt8} {uptime : Int}
    (h : noteCounts s evt uptime = some s') :
    Noted s.follow (reports h4Event evt) s'.follow := by
  match evt with
  | [] => cases h; exact .other
  | [_] => cases h; exact .other
  | [_, _] => cases h; exact .other
  | code :: len :: sub :: params =>
      by_cases hcode : code = evtLeMeta
      · rw [hcode] at h ⊢
        exact noteMeta_noted rfl h
      · have hsame : noteCounts s (code :: len :: sub :: params) uptime = some s := by
          unfold noteCounts
          rw [if_neg (by simp)]
          exact if_pos hcode
        rw [hsame] at h
        cases h
        rw [reports_of_code hcode]
        exact .other

theorem notePeriodic_slots {s s' : BleRadio} {hci : List UInt8} (h : notePeriodic s hci = some s') :
    slots s' = slots s := by
  rcases notePeriodic_cases h with rfl | ⟨req, rfl⟩
  · rfl
  · unfold slots putSyncReq
    dsimp only
    split
    · rfl
    · rfl

theorem noteBigInfo_slots {s s' : BleRadio} {hci : List UInt8} {uptime : Int}
    (h : noteBigInfo s hci uptime = some s') : slots s' = slots s := by
  rcases noteBigInfo_cases h with rfl | ⟨-, params, rfl⟩
  · rfl
  · rfl

/-- The part of `forward` before the lock. -/
theorem beforeLock_slots {s : BleRadio} {h4 : UInt8} {data : List UInt8} {now : Readings}
    {r : BleRadio × Sized} (h : beforeLock s h4 data now = some r) :
    slots r.1 = afterReport (slots s) (reports h4 data) := by
  unfold beforeLock at h
  obtain ⟨s₁, h₁, h⟩ := Option.bind_eq_some_iff.mp h
  obtain ⟨s₂, h₂, h⟩ := Option.bind_eq_some_iff.mp h
  cases h
  have hover : slots (countOversized s (sizePacket h4 data now.nowUs)) = slots s := by
    unfold countOversized
    split
    · rfl
    · rfl
  have hcount : slots s₁ = afterReport (slots s) (reports h4 data) := by
    unfold countEvent at h₁
    split at h₁
    · next hevent =>
        rw [hevent, ← hover]
        exact (noteCounts_noted h₁).slots
    · next hevent =>
        cases h₁
        have hnone : reports h4 data = none := by
          unfold reports
          split
          · exact if_neg fun hmeta => hevent hmeta.1
          · rfl
        rw [hnone]
        exact hover
  rw [← hcount]
  unfold peekEvent at h₂
  split at h₂
  · obtain ⟨sa, ha, hb⟩ := Option.bind_eq_some_iff.mp h₂
    exact (noteBigInfo_slots hb).trans (notePeriodic_slots ha)
  · cases h₂; rfl

end Nrf54Sniffer.Ble.Slots
