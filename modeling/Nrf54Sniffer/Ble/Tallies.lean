/-
Nrf54Sniffer.Ble.Tallies — the forwarding path never looks at what the link
refused.

`forwarded` and `dropped` are where `radio_ble.c` counts what became of its
frames. `withTallies` puts other counts under the same state: what the
forwarding thread works out commutes with it, and a flush hands over the same
frame whatever the counts are and whatever the link answers.
-/
import Nrf54Sniffer.Ble.Forward
import Nrf54Sniffer.Lib.TwoRuns
import Nrf54Sniffer.Wire.TwoLinks

namespace Nrf54Sniffer.Ble

open Nrf54Sniffer.Lib
open Nrf54Sniffer.Wire

/-- The state with other counts of packets sent and refused. -/
def withTallies (forwarded dropped : Nat) (s : BleRadio) : BleRadio :=
  { s with stats := { s.stats with forwarded, dropped } }

/-! ## Looking an event over -/

section Notes

variable (f d : Nat)

theorem noteBigEstablished_withTallies (s : BleRadio) (evt : List UInt8) :
    noteBigEstablished (withTallies f d s) evt =
      (noteBigEstablished s evt).map (withTallies f d) := by
  unfold noteBigEstablished
  cases evt[0]? with
  | none => rfl
  | some n =>
      simp only [Option.bind_eq_bind, Option.bind_some]
      cases keepHandles evt n.toNat maxBis 0 with
      | none => rfl
      | some kept => rfl

theorem notePeriodicSync_withTallies (s : BleRadio) (evt : List UInt8) :
    notePeriodicSync (withTallies f d s) evt =
      (notePeriodicSync s evt).map (withTallies f d) := by
  unfold notePeriodicSync
  cases eventSucceeded 4 evt with
  | none => rfl
  | some ok => cases ok <;> rfl

theorem noteBigSync_withTallies (s : BleRadio) (evt : List UInt8) (uptime : Int) :
    noteBigSync (withTallies f d s) evt uptime =
      (noteBigSync s evt uptime).map (withTallies f d) := by
  unfold noteBigSync
  cases eventSucceeded 17 evt with
  | none => rfl
  | some ok =>
      cases ok with
      | false => rfl
      | true =>
          exact noteBigEstablished_withTallies f d
            { s with follow := { s.follow with bigSynced := true } } (evt.drop 16)

theorem noteCounts_withTallies (s : BleRadio) (evt : List UInt8) (uptime : Int) :
    noteCounts (withTallies f d s) evt uptime =
      (noteCounts s evt uptime).map (withTallies f d) := by
  unfold noteCounts
  split
  · rfl
  · cases evt[0]? with
    | none => rfl
    | some code =>
        simp only [Option.bind_eq_bind, Option.bind_some]
        split
        · rfl
        · cases evt[2]? with
          | none => rfl
          | some sub =>
              simp only [Option.bind_some, notePeriodicSync_withTallies, noteBigSync_withTallies]
              repeat' split
              all_goals rfl

theorem notePeriodic_withTallies (s : BleRadio) (hci : List UInt8) :
    notePeriodic (withTallies f d s) hci = (notePeriodic s hci).map (withTallies f d) := by
  unfold notePeriodic
  split
  · rfl
  · cases hci[1]? with
    | none => rfl
    | some code =>
        cases hci[3]? with
        | none => rfl
        | some sub =>
            simp only [Option.bind_eq_bind, Option.bind_some]
            split
            · rfl
            · cases periodicReport hci with
              | none => rfl
              | some r =>
                  simp only [Option.bind_some]
                  repeat' split
                  all_goals rfl

theorem noteBigInfo_withTallies (s : BleRadio) (hci : List UInt8) (uptime : Int) :
    noteBigInfo (withTallies f d s) hci uptime =
      (noteBigInfo s hci uptime).map (withTallies f d) := by
  have hfollow : (withTallies f d s).follow = s.follow := rfl
  unfold noteBigInfo
  simp only [hfollow]
  split
  · rfl
  · simp only [Option.bind_eq_bind, Option.map_bind, Function.comp_def]
    refine congrArg _ (funext fun code => congrArg _ (funext fun sub => ?_))
    split
    · rfl
    · split
      · rfl
      · simp only [Option.map_bind, Function.comp_def]
        refine congrArg _ (funext fun lo => congrArg _ (funext fun hi => ?_))
        refine congrArg _ (funext fun numBis => congrArg _ (funext fun encrypted => ?_))
        repeat' split
        all_goals rfl

theorem peekEvent_withTallies (s : BleRadio) (h4Type : UInt8) (data : List UInt8) (now : Readings) :
    peekEvent (withTallies f d s) h4Type data now =
      (peekEvent s h4Type data now).map (withTallies f d) := by
  have hperiodic : (withTallies f d s).periodicEnabled = s.periodicEnabled := rfl
  unfold peekEvent
  rw [hperiodic]
  split
  · rw [notePeriodic_withTallies, Option.bind_map, Option.map_bind]
    exact congrArg _ (funext fun s' => noteBigInfo_withTallies f d s' _ _)
  · rfl

theorem countEvent_withTallies (s : BleRadio) (h4Type : UInt8) (data : List UInt8)
    (now : Readings) :
    countEvent (withTallies f d s) h4Type data now =
      (countEvent s h4Type data now).map (withTallies f d) := by
  unfold countEvent
  split
  · exact noteCounts_withTallies f d s data now.uptimeCounts
  · rfl

theorem countOversized_withTallies (s : BleRadio) (p : Sized) :
    countOversized (withTallies f d s) p = withTallies f d (countOversized s p) := by
  unfold countOversized
  split <;> rfl

end Notes

/-! ## The flushes and the append -/

/-- The same state but for the counts, and the same frames handed over. -/
def SameSent (r r' : BleRadio × Outbox) : Prop :=
  ∃ f d o, SameHanded r.2 o ∧ r' = (withTallies f d r.1, o)

/-- Two answers to one frame show in the counts only. -/
theorem countSent_withTallies (s : BleRadio) (f d n : Nat) (r r' : SendResult) :
    ∃ f' d', { withTallies f d s with stats := countSent (withTallies f d s).stats n r' }
      = withTallies f' d' { s with stats := countSent s.stats n r } := by
  refine ⟨(countSent (withTallies f d s).stats n r').forwarded,
    (countSent (withTallies f d s).stats n r').dropped, ?_⟩
  unfold countSent
  cases r.ok <;> cases r'.ok <;> rfl

section Flush

variable {o o' : Outbox} (h : SameHanded o o') (f d : Nat) (s : BleRadio)
include h

theorem sendAlone_same (timestampUs : UInt64) (origLen : UInt16) (flags : UInt8)
    (hci : List UInt8) :
    Option.Rel SameSent (sendAlone s o timestampUs origLen flags hci)
      (sendAlone (withTallies f d s) o' timestampUs origLen flags hci) := by
  unfold sendAlone
  refine rel_bind_self fun out => rel_bind_self fun out => rel_bind_self fun payload => ?_
  obtain ⟨f', d', hcount⟩ := countSent_withTallies s f d 1
    (o.send ⟨.packet, payload⟩).2 (o'.send ⟨.packet, payload⟩).2
  exact .some ⟨f', d', _, h.send (.refl _), Prod.ext hcount rfl⟩

theorem bleFlushLocked_same :
    Option.Rel SameSent (bleFlushLocked s o) (bleFlushLocked (withTallies f d s) o') := by
  have hbatch : (withTallies f d s).batch = s.batch := rfl
  unfold bleFlushLocked
  rw [hbatch]
  split
  · exact .some ⟨f, d, o', h, rfl⟩
  · split
    · unfold bleFlushOne
      rw [hbatch]
      refine rel_bind_self fun entry => rel_bind_self fun hci => ?_
      refine rel_bind (sendAlone_same h f d s _ _ _ _) ?_
      rintro ⟨s₁, o₁⟩ _ ⟨f', d', o₁', h₁, rfl⟩
      exact .some ⟨f', d', o₁', h₁, rfl⟩
    · unfold bleFlushMany
      rw [hbatch]
      refine rel_bind_self fun buf => rel_bind_self fun payload => ?_
      obtain ⟨f', d', hcount⟩ := countSent_withTallies s f d s.batch.count
        (o.send ⟨.bleBatch, payload⟩).2 (o'.send ⟨.bleBatch, payload⟩).2
      refine .some ⟨f', d', _, h.send (.refl _), Prod.ext ?_ rfl⟩
      exact congrArg (fun s : BleRadio => { s with batch := { s.batch with buf }.emptied }) hcount

theorem closeEarly_same (p : Sized) :
    Option.Rel SameSent (closeEarly s o p) (closeEarly (withTallies f d s) o' p) := by
  have hbatch : (withTallies f d s).batch = s.batch := rfl
  unfold closeEarly
  rw [hbatch]
  split
  · exact bleFlushLocked_same h f d s
  · exact .some ⟨f, d, o', h, rfl⟩

theorem appendLocked_same (p : Sized) :
    Option.Rel SameSent (appendLocked s o p) (appendLocked (withTallies f d s) o' p) := by
  unfold appendLocked
  refine rel_bind (closeEarly_same h f d s p) ?_
  rintro ⟨s₁, o₁⟩ _ ⟨f₁, d₁, o₁', h₁, rfl⟩
  refine rel_bind_self fun batch => ?_
  split
  · refine rel_bind (bleFlushLocked_same h₁ f₁ d₁
      { s₁ with batch, stats := { s₁.stats with captured := s₁.stats.captured + 1 } }) ?_
    rintro ⟨s₂, o₂⟩ _ ⟨f₂, d₂, o₂', h₂, rfl⟩
    exact .some ⟨f₂, d₂, o₂', h₂, rfl⟩
  · exact .some ⟨f₁, d₁, o₁', h₁, rfl⟩

theorem forward_same (h4Type : UInt8) (data : List UInt8) (now : Readings) :
    Option.Rel SameSent (forward s o h4Type data now)
      (forward (withTallies f d s) o' h4Type data now) := by
  have hbefore : beforeLock (withTallies f d s) h4Type data now =
      (beforeLock s h4Type data now).map fun r => (withTallies f d r.1, r.2) := by
    simp only [beforeLock, Option.bind_eq_bind, countOversized_withTallies, countEvent_withTallies,
      Option.bind_map, Option.map_bind, Function.comp_def, peekEvent_withTallies]
    rfl
  unfold forward
  rw [hbefore]
  cases beforeLock s h4Type data now with
  | none => exact .none
  | some r => exact appendLocked_same h f d r.1 r.2

end Flush

end Nrf54Sniffer.Ble
