/-
Nrf54Sniffer.Ble.Secrets — the forwarding path never looks at the keys.

`withKeys` puts another table under the same state. What the forwarding thread
and the flushes do with a state is the same with any table under it: they
commute with `withKeys`, the packet and the frames they hand over included.
-/
import Nrf54Sniffer.Ble.Forward

namespace Nrf54Sniffer.Ble

open Nrf54Sniffer.Lib
open Nrf54Sniffer.Wire

/-- The table of keys. -/
abbrev KeyTable := ByteBuffer (maxKeys * keyEntry)

/-- The state with another table. -/
def withKeys (keys : KeyTable) (s : BleRadio) : BleRadio := { s with keys }

/-- What a function answers next to the state is left as it is. -/
def withKeysFst {α : Type} (keys : KeyTable) (r : BleRadio × α) : BleRadio × α :=
  (withKeys keys r.1, r.2)

variable (keys : KeyTable)

/-! ## Looking an event over -/

theorem noteBigEstablished_withKeys (s : BleRadio) (evt : List UInt8) :
    noteBigEstablished (withKeys keys s) evt =
      (noteBigEstablished s evt).map (withKeys keys) := by
  unfold noteBigEstablished
  cases evt[0]? with
  | none => rfl
  | some n =>
      simp only [Option.bind_eq_bind, Option.bind_some]
      cases keepHandles evt n.toNat maxBis 0 with
      | none => rfl
      | some kept => rfl

theorem notePeriodicSync_withKeys (s : BleRadio) (evt : List UInt8) :
    notePeriodicSync (withKeys keys s) evt = (notePeriodicSync s evt).map (withKeys keys) := by
  unfold notePeriodicSync
  cases eventSucceeded 4 evt with
  | none => rfl
  | some ok => cases ok <;> rfl

theorem noteBigSync_withKeys (s : BleRadio) (evt : List UInt8) (uptime : Int) :
    noteBigSync (withKeys keys s) evt uptime =
      (noteBigSync s evt uptime).map (withKeys keys) := by
  unfold noteBigSync
  cases eventSucceeded 17 evt with
  | none => rfl
  | some ok =>
      cases ok with
      | false => rfl
      | true =>
          exact noteBigEstablished_withKeys keys
            { s with follow := { s.follow with bigSynced := true } } (evt.drop 16)

theorem noteCounts_withKeys (s : BleRadio) (evt : List UInt8) (uptime : Int) :
    noteCounts (withKeys keys s) evt uptime =
      (noteCounts s evt uptime).map (withKeys keys) := by
  unfold noteCounts
  split
  · rfl
  · cases evt[0]? with
    | none => rfl
    | some code =>
        simp only [Option.bind_eq_bind, Option.bind_some]
        split
        · rfl
        · cases evt[2]? with
          | none => rfl
          | some sub =>
              simp only [Option.bind_some, notePeriodicSync_withKeys, noteBigSync_withKeys]
              repeat' split
              all_goals rfl

theorem notePeriodic_withKeys (s : BleRadio) (hci : List UInt8) :
    notePeriodic (withKeys keys s) hci = (notePeriodic s hci).map (withKeys keys) := by
  unfold notePeriodic
  split
  · rfl
  · cases hci[1]? with
    | none => rfl
    | some code =>
        cases hci[3]? with
        | none => rfl
        | some sub =>
            simp only [Option.bind_eq_bind, Option.bind_some]
            split
            · rfl
            · cases periodicReport hci with
              | none => rfl
              | some r =>
                  simp only [Option.bind_some]
                  repeat' split
                  all_goals rfl

theorem noteBigInfo_withKeys (s : BleRadio) (hci : List UInt8) (uptime : Int) :
    noteBigInfo (withKeys keys s) hci uptime =
      (noteBigInfo s hci uptime).map (withKeys keys) := by
  unfold noteBigInfo
  have hfollow : (withKeys keys s).follow = s.follow := rfl
  simp only [hfollow]
  split
  · rfl
  · cases hci[1]? with
    | none => rfl
    | some code =>
        cases hci[3]? with
        | none => rfl
        | some sub =>
            simp only [Option.bind_eq_bind, Option.bind_some]
            split
            · rfl
            · split
              · rfl
              · cases hci[4]? with
                | none => rfl
                | some lo =>
                    cases hci[5]? with
                    | none => rfl
                    | some hi =>
                        cases hci[6]? with
                        | none => rfl
                        | some numBis =>
                            cases hci[22]? with
                            | none => rfl
                            | some encrypted =>
                                simp only [Option.bind_some]
                                repeat' split
                                all_goals rfl

/-! ## The part before the lock -/

theorem countOversized_withKeys (s : BleRadio) (p : Sized) :
    countOversized (withKeys keys s) p = withKeys keys (countOversized s p) := by
  unfold countOversized
  split <;> rfl

theorem countEvent_withKeys (s : BleRadio) (h4Type : UInt8) (data : List UInt8) (now : Readings) :
    countEvent (withKeys keys s) h4Type data now =
      (countEvent s h4Type data now).map (withKeys keys) := by
  unfold countEvent
  split
  · exact noteCounts_withKeys keys s data now.uptimeCounts
  · rfl

theorem peekEvent_withKeys (s : BleRadio) (h4Type : UInt8) (data : List UInt8) (now : Readings) :
    peekEvent (withKeys keys s) h4Type data now =
      (peekEvent s h4Type data now).map (withKeys keys) := by
  have hperiodic : (withKeys keys s).periodicEnabled = s.periodicEnabled := rfl
  unfold peekEvent
  rw [hperiodic]
  split
  · rw [notePeriodic_withKeys, Option.bind_map, Option.map_bind]
    exact congrArg _ (funext fun s' => noteBigInfo_withKeys keys s' _ _)
  · rfl

theorem beforeLock_withKeys (s : BleRadio) (h4Type : UInt8) (data : List UInt8) (now : Readings) :
    beforeLock (withKeys keys s) h4Type data now =
      (beforeLock s h4Type data now).map (withKeysFst keys) := by
  simp only [beforeLock, Option.bind_eq_bind, countOversized_withKeys, countEvent_withKeys,
    Option.bind_map, Option.map_bind, Function.comp_def, peekEvent_withKeys]
  rfl

/-! ## The flushes and the append -/

theorem bleFlushLocked_withKeys (s : BleRadio) (o : Outbox) :
    bleFlushLocked (withKeys keys s) o = (bleFlushLocked s o).map (withKeysFst keys) := by
  have hbatch : (withKeys keys s).batch = s.batch := rfl
  unfold bleFlushLocked
  rw [hbatch]
  split
  · rfl
  · split
    · simp only [bleFlushOne, sendAlone, hbatch, Option.bind_eq_bind, Option.map_bind,
        Function.comp_def, Option.bind_assoc, Option.bind_some]
      rfl
    · simp only [bleFlushMany, hbatch, Option.bind_eq_bind, Option.map_bind, Function.comp_def]
      rfl

theorem closeEarly_withKeys (s : BleRadio) (o : Outbox) (p : Sized) :
    closeEarly (withKeys keys s) o p = (closeEarly s o p).map (withKeysFst keys) := by
  have hbatch : (withKeys keys s).batch = s.batch := rfl
  unfold closeEarly
  rw [hbatch]
  split
  · exact bleFlushLocked_withKeys keys s o
  · rfl

theorem appendLocked_withKeys (s : BleRadio) (o : Outbox) (p : Sized) :
    appendLocked (withKeys keys s) o p = (appendLocked s o p).map (withKeysFst keys) := by
  simp only [appendLocked, Option.bind_eq_bind, closeEarly_withKeys, Option.bind_map,
    Option.map_bind, Function.comp_def]
  refine congrArg _ (funext fun r => congrArg _ (funext fun batch => ?_))
  split
  · have hflush := bleFlushLocked_withKeys keys
      { r.1 with batch, stats := { r.1.stats with captured := r.1.stats.captured + 1 } } r.2
    simp only [Option.map_bind, Function.comp_def]
    refine Eq.trans (congrArg (Option.bind · _) hflush) ?_
    rw [Option.bind_map]
    rfl
  · rfl

theorem forward_withKeys (s : BleRadio) (o : Outbox) (h4Type : UInt8) (data : List UInt8)
    (now : Readings) :
    forward (withKeys keys s) o h4Type data now =
      (forward s o h4Type data now).map (withKeysFst keys) := by
  simp only [forward, Option.bind_eq_bind, beforeLock_withKeys, Option.bind_map,
    Option.map_bind, Function.comp_def]
  exact congrArg _ (funext fun r => appendLocked_withKeys keys r.1 o r.2)

end Nrf54Sniffer.Ble
