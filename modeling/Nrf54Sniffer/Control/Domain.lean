/-
Nrf54Sniffer.Control.Domain — which values a command is accepted for.

`Judged` says, command by command, that it is answered OK exactly on its domain
and that an accepted setting is the one its value encodes, judged on all 32
bits of the value. It holds in every reachable state in which the calls
succeed, but for one command: SET_CHANNEL cuts the value to its low byte before
it is checked, so a value from 256 on whose low byte is a channel is accepted,
and tunes to that (`judged_iff`).
-/
import Nrf54Sniffer.Board.Effects

namespace Nrf54Sniffer.Control

open Nrf54Sniffer.Wire
open Nrf54Sniffer.Radio154
open Nrf54Sniffer.Ble
open Nrf54Sniffer.Board

/-! ## Answers -/

/-- The last frame handed over answers the command with this status. -/
def Answers (p : Platform) (t : Firmware) (command : UInt8) (status : Status) : Prop :=
  ∃ value r, t.outbox.log.getLast? = some (⟨.controlReply, replyPayload p command status value⟩, r)

/-- The statuses the header gives numbers are told apart by them. -/
def StatusesDiffer (p : Platform) : Prop :=
  ∀ status status', p.status status = p.status status' → status = status'

theorem answers_reply_iff {p : Platform} (hp : StatusesDiffer p) (fw : Firmware)
    (command : UInt8) (status status' : Status) (value : UInt32) :
    Answers p (reply p fw command status value) command status' ↔ status' = status := by
  constructor
  · rintro ⟨value', r, h⟩
    simp only [reply, Outbox.send_log, List.getLast?_append, List.getLast?_singleton,
      Option.some_or, Option.some.injEq, Prod.mk.injEq, Frame.mk.injEq, replyPayload] at h
    have hbytes := h.1.2
    simp only [List.cons_append, List.cons.injEq] at hbytes
    exact hp _ _ hbytes.2.1.symm
  · rintro rfl
    exact ⟨value, fw.outbox.answers fw.outbox.log.length, by simp [reply]⟩

/-! ## The domains -/

/-- A channel of the 2.4 GHz band. -/
def isChannel (n : Nat) : Prop := 11 ≤ n ∧ n ≤ 26

instance (n : Nat) : Decidable (isChannel n) := inferInstanceAs (Decidable (11 ≤ n ∧ n ≤ 26))

/-- SET_RADIO. -/
def judgedRadio (p : Platform) (t : Firmware) (command : UInt8) (value : UInt32) : Prop :=
  (Answers p t command .ok ↔ value.toNat = 0 ∨ value.toNat = 2) ∧
    (Answers p t command .ok → t.selectedRadio.toNat = value.toNat)

/-- SET_BLE_PHYS. -/
def judgedPhys (p : Platform) (t : Firmware) (command : UInt8) (value : UInt32) : Prop :=
  (Answers p t command .ok ↔ value.toNat ≤ 255) ∧
    (Answers p t command .ok → t.blePhys.toNat = value.toNat)

/-- SET_ANTENNA: 0 is the onboard antenna. -/
def judgedAntenna (p : Platform) (t : Firmware) (command : UInt8) (value : UInt32) : Prop :=
  (Answers p t command .ok ↔ value.toNat ≤ 1) ∧
    (Answers p t command .ok → (t.rfswCtl.enabled = true ↔ value.toNat = 0))

/-- SET_CHANNEL. -/
def judgedChannel (p : Platform) (fw t : Firmware) (command : UInt8) (value : UInt32) : Prop :=
  (fw.selectedRadio = radio154 →
    (Answers p t command .ok ↔ isChannel value.toNat) ∧
      (Answers p t command .ok →
        t.radio.currentChannel.toNat = value.toNat ∧ t.radio.driver.tuned.toNat = value.toNat)) ∧
  (fw.selectedRadio = radioBle → Answers p t command .badValue)

/-- ENERGY_DETECT: the channel in the low byte, the window above it. -/
def judgedEnergy (p : Platform) (fw t : Firmware) (command : UInt8) (value : UInt32) : Prop :=
  (fw.selectedRadio = radio154 →
    (Answers p t command .ok ↔ isChannel (value.toNat % 256) ∧ value.toNat / 256 ≠ 0)) ∧
  (fw.selectedRadio = radioBle → Answers p t command .badValue)

/-- What is promised of each command that takes a value. -/
def Judged (p : Platform) (fw t : Firmware) (command : UInt8) (value : UInt32) : Prop :=
  match p.command command with
  | .setRadio => judgedRadio p t command value
  | .setBlePhys => judgedPhys p t command value
  | .setBlePeriodic =>
      Answers p t command .ok ∧ (t.ble.periodicEnabled = true ↔ value.toNat ≠ 0)
  | .setBleScan =>
      Answers p t command .ok ∧ t.bleIntervalMs.toNat = value.toNat % 65536 ∧
        t.bleWindowMs.toNat = value.toNat / 65536
  | .setAntenna => judgedAntenna p t command value
  | .setChannel => judgedChannel p fw t command value
  | .energyDetect => judgedEnergy p fw t command value
  | _ => True

/-- The next five calls to the driver succeed; no command makes more. -/
def DriverTakes (r : Radio) : Prop :=
  ∀ k, r.driver.log.length ≤ k → k < r.driver.log.length + 5 → r.driver.answers k = 0

/-- The energy scan after the next three calls completes in time, with a
reading. -/
def ScanReads (r : Radio) (symbols : UInt32) : Prop :=
  ∃ c, r.driver.completions (r.driver.log.length + 3) = some c ∧
    c.afterMs ≤ (edWaitMs (edWindowMs symbols)).toNat ∧ c.maxEd ≠ shrtMax

/-- The calls the command makes succeed. -/
structure CallsSucceed (p : Platform) (fw : Firmware) (command : UInt8) (value : UInt32) :
    Prop where
  driver : DriverTakes fw.radio
  scan : p.command command = .energyDetect → isChannel (value.toNat % 256) →
    value.toNat / 256 ≠ 0 → ScanReads fw.radio (value >>> 8)
  antenna : p.command command = .setAntenna →
    fw.rfswCtl.ready = true ∧ fw.rfswCtl.answers fw.rfswCtl.calls = 0

/-! ## The settings of BLE -/

theorem toUInt8_toNat_of_le {value : UInt32} (h : value.toNat ≤ 255) :
    value.toUInt8.toNat = value.toNat := by
  rw [UInt32.toNat_toUInt8, Nat.mod_eq_of_lt (by omega)]

theorem toNat_eq_zero_iff {value : UInt32} : value.toNat = 0 ↔ value = 0 :=
  UInt32.toNat_inj (b := 0)

theorem onSetBlePhys_judged {p : Platform} (hp : StatusesDiffer p) (fw : Firmware)
    (command : UInt8) (value : UInt32) :
    judgedPhys p (onSetBlePhys p fw command value) command value := by
  have hff : (0xFF : UInt32).toNat = 255 := rfl
  unfold onSetBlePhys judgedPhys
  split
  · rename_i hbig
    have hbig : 255 < value.toNat := UInt32.lt_iff_toNat_lt.mp hbig
    simp only [answers_reply_iff hp, reduceCtorEq, false_iff, false_implies, and_true]
    omega
  · rename_i hsmall
    have hsmall : value.toNat ≤ 255 := UInt32.le_iff_toNat_le.mp (UInt32.not_lt.mp hsmall)
    simp only [answers_reply_iff hp, true_iff, true_implies]
    exact ⟨hsmall, toUInt8_toNat_of_le hsmall⟩

theorem onSetBlePeriodic_judged {p : Platform} (hp : StatusesDiffer p) (fw : Firmware)
    (command : UInt8) (value : UInt32) :
    Answers p (onSetBlePeriodic p fw command value) command .ok ∧
      ((onSetBlePeriodic p fw command value).ble.periodicEnabled = true ↔ value.toNat ≠ 0) := by
  refine ⟨(answers_reply_iff hp _ _ _ _ _).mpr rfl, ?_⟩
  show (value != 0) = true ↔ _
  rw [bne_iff_ne, Ne, Ne, toNat_eq_zero_iff]

theorem onSetBleScan_judged {p : Platform} (hp : StatusesDiffer p) (fw : Firmware)
    (command : UInt8) (value : UInt32) :
    Answers p (onSetBleScan p fw command value) command .ok ∧
      (onSetBleScan p fw command value).bleIntervalMs.toNat = value.toNat % 65536 ∧
      (onSetBleScan p fw command value).bleWindowMs.toNat = value.toNat / 65536 := by
  refine ⟨(answers_reply_iff hp _ _ _ _ _).mpr rfl, ?_, ?_⟩
  · show (value &&& 0xFFFF).toUInt16.toNat = _
    have hand : value.toNat &&& 65535 = value.toNat % 2 ^ 16 :=
      Nat.and_two_pow_sub_one_eq_mod value.toNat 16
    have hmask : (0xFFFF : UInt32).toNat = 65535 := rfl
    rw [UInt32.toNat_toUInt16, UInt32.toNat_and, hmask, hand, Nat.mod_mod]
    rfl
  · show (value >>> 16).toUInt16.toNat = _
    have hlt := UInt32.toNat_lt value
    have hsixteen : (16 : UInt32).toNat % 32 = 16 := rfl
    rw [UInt32.toNat_toUInt16, UInt32.toNat_shiftRight, hsixteen, Nat.shiftRight_eq_div_pow]
    omega

/-! ## The antenna -/

theorem onSetAntenna_judged {p : Platform} (hp : StatusesDiffer p) {fw : Firmware}
    {value : UInt32}
    (hcalls : fw.rfswCtl.ready = true ∧ fw.rfswCtl.answers fw.rfswCtl.calls = 0)
    (command : UInt8) : judgedAntenna p (onSetAntenna p fw command value) command value := by
  obtain ⟨hready, hset⟩ := hcalls
  have hone : (1 : UInt32).toNat = 1 := rfl
  unfold onSetAntenna judgedAntenna setAntenna
  by_cases hbig : value > 1
  · have hlt : 1 < value.toNat := UInt32.lt_iff_toNat_lt.mp hbig
    simp only [if_pos hbig, answers_reply_iff hp, okOrBadValue, eInval]
    simp
    omega
  · have hle : value.toNat ≤ 1 := UInt32.le_iff_toNat_le.mp (UInt32.not_lt.mp hbig)
    have hswitch : (switchAntenna fw (value == 0)).2 = 0 ∧
        (switchAntenna fw (value == 0)).1.rfswCtl.enabled = (value == 0) := by
      unfold switchAntenna
      rw [hready]
      simp only [Bool.not_true, Bool.false_eq_true, if_false]
      split
      · rename_i hsame
        exact ⟨rfl, hsame.symm⟩
      · exact ⟨hset, by simp [Regulator.set, hset]⟩
    simp only [if_neg hbig, answers_reply_iff hp, hswitch.1, okOrBadValue, if_true, true_iff,
      true_implies]
    refine ⟨hle, ?_⟩
    show (switchAntenna fw (value == 0)).1.rfswCtl.enabled = true ↔ _
    rw [hswitch.2, beq_iff_eq, toNat_eq_zero_iff]

/-! ## The radio -/

/-- The radio left behind is stopped whatever comes of it. -/
theorem onSetRadio_judged {p : Platform} (hp : StatusesDiffer p) {fw : Firmware}
    (hbatches : BatchesHold fw) (command : UInt8) (value : UInt32) :
    ∃ t, onSetRadio p fw command value = some t ∧ judgedRadio p t command value := by
  have hradio154 : value = radio154.toUInt32 ↔ value.toNat = 0 :=
    (UInt32.toNat_inj (b := radio154.toUInt32)).symm
  have hradioBle : value = radioBle.toUInt32 ↔ value.toNat = 2 :=
    (UInt32.toNat_inj (b := radioBle.toUInt32)).symm
  unfold onSetRadio judgedRadio
  by_cases hother : value ≠ radio154.toUInt32 ∧ value ≠ radioBle.toUInt32
  · refine ⟨_, if_pos hother, ?_⟩
    have hne : ¬(value.toNat = 0 ∨ value.toNat = 2) := by
      rw [← hradio154, ← hradioBle]
      exact not_or.mpr hother
    simp [answers_reply_iff hp, hne]
  · have hvalue : value.toNat = 0 ∨ value.toNat = 2 := by
      rw [← hradio154, ← hradioBle]
      exact Decidable.or_iff_not_not_and_not.mpr hother
    have hstopped : ∃ fw', (if value ≠ fw.selectedRadio.toUInt32
        then (stopRadio fw fw.selectedRadio).map Prod.fst else some fw) = some fw' := by
      split
      · obtain ⟨fw', err, h⟩ := stopRadio_total hbatches fw.selectedRadio
        exact ⟨fw', by rw [h]; rfl⟩
      · exact ⟨fw, rfl⟩
    obtain ⟨fw', hfw'⟩ := hstopped
    refine ⟨_, by rw [if_neg hother, hfw']; rfl, ?_⟩
    simp only [answers_reply_iff hp, true_iff, true_implies]
    exact ⟨hvalue, toUInt8_toNat_of_le (by omega)⟩

/-! ## The channel -/

theorem badChannel_eq_false_iff {channel : UInt8} :
    badChannel channel = false ↔ isChannel channel.toNat := by
  have heleven : (11 : UInt8).toNat = 11 := rfl
  have htwentysix : (26 : UInt8).toNat = 26 := rfl
  simp only [badChannel, Bool.or_eq_false_iff, decide_eq_false_iff_not, UInt8.not_lt,
    UInt8.le_iff_toNat_le, isChannel, heleven, htwentysix]

/-- With the driver taking its calls, the radio tunes to the low byte of the
value and receives, if that is a channel. -/
theorem tuneAndStart_taken {fw : Firmware} {value : UInt32} (hdriver : DriverTakes fw.radio) :
    if isChannel (value.toNat % 256) then
      (tuneAndStart fw value).2 = .ok ∧
        (tuneAndStart fw value).1.radio.currentChannel = value.toUInt8 ∧
        (tuneAndStart fw value).1.radio.driver.tuned = value.toUInt8
    else (tuneAndStart fw value).2 = .badValue := by
  have hlow : value.toUInt8.toNat = value.toNat % 256 := UInt32.toNat_toUInt8 value
  by_cases hbad : badChannel value.toUInt8 = true
  · have hnot : ¬isChannel (value.toNat % 256) := by
      rw [← hlow, ← badChannel_eq_false_iff, hbad]
      simp
    rw [if_neg hnot]
    simp [tuneAndStart, snRadio154SetChannel, hbad, eInval]
  · have hgood : badChannel value.toUInt8 = false := by simpa using hbad
    have hchannel : isChannel (value.toNat % 256) := by
      rw [← hlow]
      exact badChannel_eq_false_iff.mp hgood
    have hset := hdriver fw.radio.driver.log.length (Nat.le_refl _) (by omega)
    have hstart := hdriver (fw.radio.driver.log.length + 1) (Nat.le_succ _) (by omega)
    rw [if_pos hchannel]
    simp [tuneAndStart, snRadio154SetChannel, snRadio154Start, Radio.call, Driver.call,
      Driver.apply, Firmware.logLine, hgood, hset, hstart]

theorem onSetChannel_judged_iff {p : Platform} (hp : StatusesDiffer p) {fw : Firmware}
    (hbatches : BatchesHold fw) (command : UInt8) {value : UInt32}
    (hdriver : DriverTakes fw.radio) :
    ∃ t, onSetChannel p fw command value = some t ∧
      (judgedChannel p fw t command value ↔
        ¬(fw.selectedRadio = radio154 ∧ 256 ≤ value.toNat ∧ isChannel (value.toNat % 256))) := by
  have hdiffer : radio154 ≠ radioBle := by decide
  unfold onSetChannel judgedChannel
  by_cases hble : fw.selectedRadio = radioBle
  · refine ⟨_, if_pos hble, ?_⟩
    simp [answers_reply_iff hp, hble, hdiffer.symm]
  · obtain ⟨ks, hrep, _⟩ := hbatches.batch
    obtain ⟨b, o, hflush, _⟩ := Batch.snBatchFlush_spec hrep fw.outbox
    refine ⟨_, by rw [if_neg hble, flushBatch, hflush]; rfl, ?_⟩
    have htaken := @tuneAndStart_taken { fw with batcher := b, outbox := o } value hdriver
    by_cases hlow : isChannel (value.toNat % 256)
    · rw [if_pos hlow] at htaken
      obtain ⟨hok, hchannel, htuned⟩ := htaken
      simp only [answers_reply_iff hp, hok, hble, hlow, true_iff, true_implies, false_implies,
        and_true]
      have hbyte : value.toUInt8.toNat = value.toNat % 256 := UInt32.toNat_toUInt8 value
      simp only [reply, hchannel, htuned, hbyte, and_self]
      constructor
      · rintro hjudged ⟨h154, hbig⟩
        have hrange := (hjudged h154).1
        unfold isChannel at hrange
        omega
      · intro hsmall h154
        have hlt : value.toNat < 256 := Nat.lt_of_not_le fun hge => hsmall ⟨h154, hge⟩
        rw [Nat.mod_eq_of_lt hlt] at hlow ⊢
        exact ⟨hlow, rfl⟩
    · rw [if_neg hlow] at htaken
      have hnot : ¬isChannel value.toNat := by
        unfold isChannel at hlow ⊢
        omega
      simp [answers_reply_iff hp, htaken, hble, hlow, hnot]

/-! ## Energy detection -/

/-- With its calls taken, a measurement fails on its arguments only. -/
theorem snRadio154EnergyDetect_err {r : Radio} {channel : UInt8} {symbols : UInt32}
    (hdriver : DriverTakes r)
    (hscan : isChannel channel.toNat → symbols.toNat ≠ 0 → ScanReads r symbols) :
    (snRadio154EnergyDetect r channel symbols).2.1 =
      if isChannel channel.toNat ∧ symbols.toNat ≠ 0 then 0 else -eInval := by
  have hset := hdriver r.driver.log.length (Nat.le_refl _) (by omega)
  have hstart := hdriver (r.driver.log.length + 1) (Nat.le_succ _) (by omega)
  have hed := hdriver (r.driver.log.length + 2) (by omega) (by omega)
  cases hbad : badChannel channel with
  | true =>
      have hchannel : ¬isChannel channel.toNat := by
        simp [← badChannel_eq_false_iff, hbad]
      simp [snRadio154EnergyDetect, hbad, hchannel]
  | false =>
      have hchannel := badChannel_eq_false_iff.mp hbad
      by_cases hzero : symbols = 0
      · simp [snRadio154EnergyDetect, hzero]
      · have hsymbols : symbols.toNat ≠ 0 := mt toNat_eq_zero_iff.mp hzero
        obtain ⟨c, hcompletion, hintime, hreading⟩ := hscan hchannel hsymbols
        have hwait : ¬(edWaitMs (edWindowMs symbols)).toNat < c.afterMs := by omega
        simp [snRadio154EnergyDetect, hbad, hzero, hchannel, hsymbols, edStart, edFinish,
          edReading, Radio.call, Driver.call, Driver.apply, Driver.completion, hset, hstart, hed,
          hcompletion, hwait, hreading]

theorem onEnergyDetect_judged {p : Platform} (hp : StatusesDiffer p) {fw : Firmware}
    {command : UInt8} {value : UInt32} (hcommand : p.command command = .energyDetect)
    (hcalls : CallsSucceed p fw command value) :
    judgedEnergy p fw (onEnergyDetect p fw command value) command value := by
  have hdiffer : radio154 ≠ radioBle := by decide
  have hand : value.toNat &&& 255 = value.toNat % 2 ^ 8 :=
    Nat.and_two_pow_sub_one_eq_mod value.toNat 8
  have hmask : (0xFF : UInt32).toNat = 255 := rfl
  have height : (8 : UInt32).toNat % 32 = 8 := rfl
  have hchannel : (value &&& 0xFF).toUInt8.toNat = value.toNat % 256 := by
    rw [UInt32.toNat_toUInt8, UInt32.toNat_and, hmask, hand, Nat.mod_mod]
    rfl
  have hsymbols : (value >>> 8).toNat = value.toNat / 256 := by
    rw [UInt32.toNat_shiftRight, height, Nat.shiftRight_eq_div_pow]
  have herr := @snRadio154EnergyDetect_err fw.radio (value &&& 0xFF).toUInt8 (value >>> 8)
    hcalls.driver
  rw [hchannel, hsymbols] at herr
  have herr := herr (hcalls.scan hcommand)
  unfold onEnergyDetect judgedEnergy
  by_cases hble : fw.selectedRadio = radioBle
  · simp [hble, hdiffer.symm, answers_reply_iff hp]
  · simp only [hble, if_false, false_implies, and_true]
    intro h154
    by_cases hdomain : isChannel (value.toNat % 256) ∧ value.toNat / 256 ≠ 0
    · rw [if_pos hdomain] at herr
      have hok : ¬(0 : Int) = -eInval := by decide
      simp only [herr, if_neg hok, ne_eq, not_true_eq_false, if_false, answers_reply_iff hp,
        true_iff]
      exact hdomain
    · rw [if_neg hdomain] at herr
      simp only [herr, if_true, answers_reply_iff hp, reduceCtorEq, false_iff]
      exact hdomain

/-! ## Every command -/

/-- SET_CHANNEL with 802.15.4 selected, for a value wider than a byte whose low
byte is a channel. -/
def CutToChannel (p : Platform) (fw : Firmware) (command : UInt8) (value : UInt32) : Prop :=
  p.command command = .setChannel ∧ fw.selectedRadio = radio154 ∧ 256 ≤ value.toNat ∧
    isChannel (value.toNat % 256)

instance (p : Platform) (fw : Firmware) (command : UInt8) (value : UInt32) :
    Decidable (CutToChannel p fw command value) :=
  inferInstanceAs (Decidable (_ ∧ _ ∧ _ ∧ _))

theorem judged_of_ne_setChannel {p : Platform} (hp : StatusesDiffer p) {fw : Firmware}
    (hbatches : BatchesHold fw) {command : UInt8} {value : UInt32}
    (hcalls : CallsSucceed p fw command value) (hcommand : p.command command ≠ .setChannel) :
    ∃ t, onCommand p fw command value = some t ∧ Judged p fw t command value := by
  unfold onCommand Judged
  cases hc : p.command command with
  | setRadio => exact onSetRadio_judged hp hbatches command value
  | setBlePhys => exact ⟨_, rfl, onSetBlePhys_judged hp fw command value⟩
  | setBlePeriodic => exact ⟨_, rfl, onSetBlePeriodic_judged hp fw command value⟩
  | setBleScan => exact ⟨_, rfl, onSetBleScan_judged hp fw command value⟩
  | setChannel => exact absurd hc hcommand
  | setAntenna =>
      exact ⟨_, rfl, onSetAntenna_judged hp (hcalls.antenna hc) command⟩
  | energyDetect => exact ⟨_, rfl, onEnergyDetect_judged hp hc hcalls⟩
  | start => exact ⟨_, rfl, trivial⟩
  | unknown => exact ⟨_, rfl, trivial⟩
  | stop =>
      obtain ⟨fw', err, hstop⟩ := stopRadio_total hbatches fw.selectedRadio
      exact ⟨_, by rw [onStop, hstop]; rfl, trivial⟩
  | getInfo =>
      obtain ⟨fw₁, err₁, hfirst⟩ := stopRadio_total hbatches radio154
      obtain ⟨fw₂, err₂, hsecond⟩ :=
        stopRadio_total (stopRadio_holds hbatches hfirst) radioBle
      have hboth : stopBoth fw = some fw₂ := by
        simp only [stopBoth, hfirst, Option.bind_some, hsecond, Option.map_some]
      exact ⟨_, by rw [onGetInfo, hboth]; rfl, trivial⟩

/-- A command is judged on its whole value, unless SET_CHANNEL cuts it to a
channel. -/
theorem judged_iff {p : Platform} {fw : Firmware} {command b0 b1 b2 b3 : UInt8}
    {rest : List UInt8} (hp : StatusesDiffer p) (hreachable : Reachable p fw)
    (hcalls : CallsSucceed p fw command (getLe32 b0 b1 b2 b3)) :
    ∃ t, snControlHandle p fw .controlCmd (command :: b0 :: b1 :: b2 :: b3 :: rest) = some t ∧
      (Judged p fw t command (getLe32 b0 b1 b2 b3) ↔
        ¬CutToChannel p fw command (getLe32 b0 b1 b2 b3)) := by
  have hbatches := hreachable.batchesHold
  by_cases hcommand : p.command command = .setChannel
  · obtain ⟨t, ht, hjudged⟩ :=
      onSetChannel_judged_iff hp hbatches command hcalls.driver
    refine ⟨t, by simpa only [snControlHandle, onCommand, hcommand] using ht, ?_⟩
    simpa only [Judged, CutToChannel, hcommand, true_and] using hjudged
  · obtain ⟨t, ht, hjudged⟩ := judged_of_ne_setChannel hp hbatches hcalls hcommand
    exact ⟨t, ht, iff_of_true hjudged fun hcut => hcommand hcut.1⟩

/-- A calm board whose energy scans read -60 dBm at once. -/
def scannedWorld : World := { calmWorld with completions := fun _ => some ⟨0, -60⟩ }

theorem statusesDiffer_fullPlatform : StatusesDiffer fullPlatform := by
  intro status status'
  cases status <;> cases status' <;> decide

theorem callsSucceed_scanned (p : Platform) (command : UInt8) (value : UInt32) :
    CallsSucceed p (boot scannedWorld) command value where
  driver := fun _ _ _ => rfl
  scan := fun _ _ _ => ⟨⟨0, -60⟩, rfl, Nat.zero_le _, by decide⟩
  antenna := fun _ => ⟨rfl, rfl⟩

theorem judged_iff_seventeen :
    ∃ t, snControlHandle fullPlatform (boot scannedWorld) .controlCmd [5, 17, 0, 0, 0] = some t ∧
      Judged fullPlatform (boot scannedWorld) t 5 17 := by
  obtain ⟨t, ht, hjudged⟩ := @judged_iff fullPlatform (boot scannedWorld) 5 17 0 0 0 []
    statusesDiffer_fullPlatform ⟨scannedWorld, [], rfl⟩ (callsSucceed_scanned _ _ _)
  exact ⟨t, ht, hjudged.mpr (by decide)⟩

/-- SET_CHANNEL 267, answered OK by a board that tunes to channel 11. -/
theorem wide_channel_accepted :
    ∃ t, Reachable fullPlatform (boot scannedWorld) ∧
      CallsSucceed fullPlatform (boot scannedWorld) 5 267 ∧
      snControlHandle fullPlatform (boot scannedWorld) .controlCmd [5, 11, 1, 0, 0] = some t ∧
      Answers fullPlatform t 5 .ok ∧ t.radio.driver.tuned = 11 ∧
      ¬Judged fullPlatform (boot scannedWorld) t 5 267 := by
  have hrun : ((snControlHandle fullPlatform (boot scannedWorld) .controlCmd
      [5, 11, 1, 0, 0]).any fun t =>
        t.outbox.log.getLast? ==
            some (⟨.controlReply, replyPayload fullPlatform 5 .ok 267⟩, .sent 16) &&
          t.radio.driver.tuned == 11) = true := by decide +kernel
  obtain ⟨t, ht, hfacts⟩ := (Option.any_eq_true _ _).mp hrun
  simp only [Bool.and_eq_true, beq_iff_eq] at hfacts
  have hok : Answers fullPlatform t 5 .ok := ⟨267, _, hfacts.1⟩
  refine ⟨t, ⟨scannedWorld, [], rfl⟩, callsSucceed_scanned _ _ _, ht, hok, hfacts.2, ?_⟩
  intro hjudged
  have hchannel : isChannel 267 := ((hjudged.1 rfl).1).mp hok
  exact absurd hchannel (by decide)

end Nrf54Sniffer.Control
