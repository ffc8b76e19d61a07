/-
Nrf54Sniffer.Board.OneRadio — at most one radio runs, and it is the selected
one.

SET_RADIO stops the radio it leaves and selects the other whatever the stop
returned. `OneRadio` is kept by every step but a SET_RADIO to BLE whose stop
the 802.15.4 driver refuses (`StopTaken`): that radio then runs on with BLE
selected, as in `refused_stop_runs_on`. The BLE stop has no such case, because
its flag is cleared before the controller is asked.
-/
import Nrf54Sniffer.Board.Effects
import Nrf54Sniffer.Board.StopTheorems

namespace Nrf54Sniffer.Board

open Nrf54Sniffer.Lib
open Nrf54Sniffer.Wire
open Nrf54Sniffer.Radio154
open Nrf54Sniffer.Ble
open Nrf54Sniffer.Control
open Nrf54Sniffer.Board.Stop (Started)

/-! ## The invariant -/

/-- What runs is what is selected, and what does not run has nothing left to
send. -/
structure OneRadio (fw : Firmware) : Prop where
  selected : fw.selectedRadio = radio154 ∨ fw.selectedRadio = radioBle
  ready : fw.ble.running = true → fw.ble.ready = true
  selected154 : fw.radio.running = true → fw.selectedRadio = radio154
  selectedBle : fw.ble.running = true → fw.selectedRadio = radioBle
  idle154 : fw.radio.running = false → fw.batcher.count = 0
  idleBle : fw.ble.running = false → fw.ble.batch.count = 0

theorem oneRadio_boot (w : World) : OneRadio (boot w) where
  selected := .inl rfl
  ready h := by cases h
  selected154 h := by cases h
  selectedBle h := by cases h
  idle154 _ := rfl
  idleBle _ := rfl

theorem OneRadio.aside {fw fw' : Firmware} (h : OneRadio fw) (ha : Aside fw fw') :
    OneRadio fw' where
  selected := by rw [ha.selected]; exact h.selected
  ready := by rw [ha.runningBle, ha.ready]; exact h.ready
  selected154 := by rw [ha.running154, ha.selected]; exact h.selected154
  selectedBle := by rw [ha.runningBle, ha.selected]; exact h.selectedBle
  idle154 := by rw [ha.running154, ha.batch]; exact h.idle154
  idleBle := by rw [ha.runningBle, ha.ble]; exact h.idleBle

/-! ## Starts -/

theorem OneRadio.started {fw fw' : Firmware} (h : OneRadio fw) (hs : Started fw fw') :
    OneRadio fw' where
  selected := by rw [hs.selected]; exact h.selected
  ready hrun := by
    rw [hs.ready]
    rcases hs.startBle hrun with hrun | ⟨_, hready⟩
    · exact h.ready hrun
    · exact hready
  selected154 hrun := by
    rw [hs.selected]
    rcases hs.start154 hrun with hrun | hselected
    · exact h.selected154 hrun
    · exact h.selected.resolve_right hselected
  selectedBle hrun := by
    rw [hs.selected]
    rcases hs.startBle hrun with hrun | ⟨hselected, _⟩
    · exact h.selectedBle hrun
    · exact hselected
  idle154 hidle := by
    have hbefore : fw.radio.running = false := by
      cases hrun : fw.radio.running with
      | false => rfl
      | true => rw [hs.keep154 hrun] at hidle; cases hidle
    rcases hs.batch with hbatch | hbatch
    · rw [hbatch]
      exact h.idle154 hbefore
    · exact hbatch
  idleBle hidle := by
    have hbefore : fw.ble.running = false := by
      cases hrun : fw.ble.running with
      | false => rfl
      | true => rw [hs.keepBle hrun] at hidle; cases hidle
    rw [hs.bleBatch]
    exact h.idleBle hbefore

/-! ## Stops -/

/-- Stopping the 802.15.4 radio keeps the invariant, even where the driver
refuses, as long as the selection stays. -/
theorem OneRadio.stop154 {fw fw' : Firmware} {err : Int} (h : OneRadio fw)
    (hs : stop154 fw = some (fw', err)) : OneRadio fw' := by
  obtain ⟨batcher, outbox, rfl, _, hempty, _⟩ := stop154_effect hs
  exact ⟨h.selected, h.ready, fun hrun => h.selected154 (Stop.snRadio154Stop_running _ hrun),
    h.selectedBle, fun _ => hempty, h.idleBle⟩

/-- Stopping the BLE radio ends its capture, whatever the controller answers. -/
theorem OneRadio.stopBle {fw fw' : Firmware} {err : Int} (h : OneRadio fw)
    (hs : stopBle fw = some (fw', err)) :
    OneRadio fw' ∧ fw'.ble.running = false ∧ fw'.radio = fw.radio := by
  cases hready : fw.ble.ready with
  | false =>
      rw [stopBle_notReady hready] at hs
      cases hs
      refine ⟨h, ?_, rfl⟩
      cases hrun : fw.ble.running with
      | false => rfl
      | true => rw [h.ready hrun] at hready; cases hready
  | true =>
      obtain ⟨batch, stats, outbox, hsent, hempty, _⟩ := stopBle_effect hready hs
      obtain ⟨_, _, _, _, heq⟩ := sendCommand_onlyHci
        (flushedStop fw ({ stopCapture fw.ble with batch, stats }, outbox)) opReset []
      rw [← hsent] at heq
      have heq : fw' = _ := heq
      subst heq
      have hoff : ∀ {q : Prop}, false = true → q := nofun
      exact ⟨⟨h.selected, hoff, h.selected154, hoff, h.idle154, fun _ => hempty⟩, rfl, rfl⟩

/-- A selection, where the radio it does not name has stopped. -/
theorem OneRadio.select {fw : Firmware} {radio : UInt8} (h : OneRadio fw)
    (hradio : radio = radio154 ∨ radio = radioBle)
    (h154 : radio = radioBle → fw.radio.running = false)
    (hble : radio = radio154 → fw.ble.running = false) :
    OneRadio { fw with selectedRadio := radio } := by
  refine ⟨hradio, h.ready, fun hrun => ?_, fun hrun => ?_, h.idle154, h.idleBle⟩
  · rcases hradio with heq | heq
    · exact heq
    · have hrun : fw.radio.running = true := hrun
      rw [h154 heq] at hrun
      cases hrun
  · rcases hradio with heq | heq
    · have hrun : fw.ble.running = true := hrun
      rw [hble heq] at hrun
      cases hrun
    · exact heq

/-! ## The commands -/

/-- A SET_RADIO that leaves a running 802.15.4 radio has its stop taken. -/
def LeavesStopped (fw : Firmware) (value : UInt32) : Prop :=
  value = radioBle.toUInt32 → fw.selectedRadio = radio154 → fw.radio.running = true →
    fw.radio.driver.answers fw.radio.driver.log.length = 0

theorem onSetRadio_oneRadio {p : Platform} {fw fw' : Firmware} {command : UInt8} {value : UInt32}
    (h : OneRadio fw) (hstop : LeavesStopped fw value)
    (hs : onSetRadio p fw command value = some fw') : OneRadio fw' := by
  unfold onSetRadio at hs
  split at hs
  · cases hs
    exact h.aside (reply_aside _ _ _ _ _)
  · rename_i hvalid
    have hvalue : value.toUInt8 = radio154 ∧ value = radio154.toUInt32 ∨
        value.toUInt8 = radioBle ∧ value = radioBle.toUInt32 := by
      by_cases h154 : value = radio154.toUInt32
      · exact .inl ⟨by simp [h154], h154⟩
      · by_cases hble : value = radioBle.toUInt32
        · exact .inr ⟨by simp [hble], hble⟩
        · exact absurd ⟨h154, hble⟩ hvalid
    obtain ⟨fw₁, hleft, heq⟩ := Option.map_eq_some_iff.mp hs
    cases heq
    refine OneRadio.aside ?_ (reply_aside _ _ _ _ _)
    split at hleft
    · rename_i hleaves
      obtain ⟨⟨fw₁, err⟩, hstopped, heq⟩ := Option.map_eq_some_iff.mp hleft
      cases heq
      rcases h.selected with hselected | hselected
      · rw [hselected] at hleaves hstopped
        have hstopped : Control.stop154 fw = some (fw₁, err) := hstopped
        rcases hvalue with ⟨_, heq⟩ | ⟨hradio, heq⟩
        · exact absurd heq hleaves
        · have h₁ := h.stop154 hstopped
          obtain ⟨batcher, outbox, rfl, _⟩ := stop154_effect hstopped
          refine h₁.select (.inr hradio) (fun _ => ?_) (fun h154 => ?_)
          · cases hrun : fw.radio.running with
            | false => simp [snRadio154Stop, hrun]
            | true =>
                have hanswer := hstop heq hselected hrun
                simp [snRadio154Stop, hrun, Radio.call, Driver.call, hanswer]
          · rw [hradio] at h154
            cases h154
      · rw [hselected] at hleaves hstopped
        have hstopped : Control.stopBle fw = some (fw₁, err) := hstopped
        rcases hvalue with ⟨hradio, _⟩ | ⟨_, heq⟩
        · obtain ⟨h₁, hidle, _⟩ := h.stopBle hstopped
          refine h₁.select (.inl hradio) (fun hble => ?_) (fun _ => hidle)
          rw [hradio] at hble
          cases hble
        · exact absurd heq hleaves
    · rename_i hsame
      cases hleft
      have hselected : value.toUInt8 = fw.selectedRadio := by
        simp [Decidable.not_not.mp hsame]
      rw [hselected]
      exact h

theorem onStop_oneRadio {p : Platform} {fw fw' : Firmware} {command : UInt8} (h : OneRadio fw)
    (hs : onStop p fw command = some fw') : OneRadio fw' := by
  obtain ⟨⟨fw₁, err⟩, hstopped, heq⟩ := Option.map_eq_some_iff.mp hs
  cases heq
  refine OneRadio.aside ?_ (reply_aside _ _ _ _ _)
  unfold stopRadio at hstopped
  split at hstopped
  · exact (h.stopBle hstopped).1
  · exact h.stop154 hstopped

theorem onGetInfo_oneRadio {p : Platform} {fw fw' : Firmware} {command : UInt8} (h : OneRadio fw)
    (hs : onGetInfo p fw command = some fw') : OneRadio fw' := by
  obtain ⟨fw₂, hboth, heq⟩ := Option.map_eq_some_iff.mp hs
  cases heq
  obtain ⟨⟨fw₁, _⟩, hstopped, hboth⟩ := Option.bind_eq_some_iff.mp hboth
  obtain ⟨⟨fw₂, _⟩, hstopped', heq⟩ := Option.map_eq_some_iff.mp hboth
  cases heq
  have h₁ : OneRadio fw₁ := h.stop154 hstopped
  obtain ⟨h₂, hidle, _⟩ := h₁.stopBle hstopped'
  have hselected := h₂.select (.inl rfl) (fun hble => by cases hble) (fun _ => hidle)
  have hreset : OneRadio
      (defaultSettings (resetCounters { fw₂ with selectedRadio := radio154 })) :=
    ⟨hselected.selected, hselected.ready, hselected.selected154, hselected.selectedBle,
      hselected.idle154, hselected.idleBle⟩
  exact (hreset.aside (setAntenna_aside _ _)).aside (reply_aside _ _ _ _ _)

theorem onCommand_oneRadio {p : Platform} {fw fw' : Firmware} {command : UInt8} {value : UInt32}
    (h : OneRadio fw) (hstop : p.command command = .setRadio → LeavesStopped fw value)
    (hs : onCommand p fw command value = some fw') : OneRadio fw' := by
  have hothers : Stop.commandActs p fw command value = none → OneRadio fw' := by
    intro hacts
    rcases Stop.onCommand_cases hacts hs with haside | ⟨_, hstarted⟩
    · exact h.aside haside
    · exact h.started hstarted
  unfold onCommand at hs
  cases hcommand : p.command command with
  | setRadio =>
      simp only [hcommand] at hs
      exact onSetRadio_oneRadio h (hstop hcommand) hs
  | stop =>
      simp only [hcommand] at hs
      exact onStop_oneRadio h hs
  | getInfo =>
      simp only [hcommand] at hs
      exact onGetInfo_oneRadio h hs
  | setBlePhys | setBlePeriodic | setBleScan | setChannel | start | setAntenna | energyDetect
  | unknown => exact hothers (by simp [Stop.commandActs, hcommand])

/-! ## Every run -/

/-- The condition on a step: a SET_RADIO that leaves a running 802.15.4 radio
has its stop taken by the driver. -/
def StopTaken (p : Platform) (fw : Firmware) : Input → Prop
  | .hostFrame .controlCmd (command :: b0 :: b1 :: b2 :: b3 :: _) =>
      p.command command = .setRadio → LeavesStopped fw (getLe32 b0 b1 b2 b3)
  | _ => True

theorem snControlHandle_oneRadio {p : Platform} {fw fw' : Firmware} {type : FrameType}
    {payload : List UInt8} (h : OneRadio fw) (hstop : StopTaken p fw (.hostFrame type payload))
    (hs : snControlHandle p fw type payload = some fw') : OneRadio fw' := by
  unfold snControlHandle at hs
  split at hs
  · cases hs
    exact h.aside (.silent rfl)
  · obtain ⟨⟨fw₁, err⟩, hkeys, heq⟩ := Option.map_eq_some_iff.mp hs
    cases heq
    exact h.aside (snRadioBleSetKeys_aside hkeys)
  · exact onCommand_oneRadio h hstop hs
  · cases hs
    exact h

/-- Every step that meets the condition keeps the invariant. -/
theorem step_oneRadio {p : Platform} {fw fw' : Firmware} {i : Input} (h : OneRadio fw)
    (hstop : StopTaken p fw i) (hs : step p fw i = some fw') : OneRadio fw' := by
  cases i with
  | hostFrame type payload => exact snControlHandle_oneRadio h hstop hs
  | received pkt =>
      obtain ⟨captured, batcher, outbox, rfl, hidle⟩ := receive_effect hs
      refine ⟨h.selected, h.ready, h.selected154, h.selectedBle, fun hrun => ?_, h.idleBle⟩
      obtain ⟨_, hbatch, _⟩ := hidle hrun
      rw [hbatch]
      exact h.idle154 hrun
  | hciPacket h4 data now =>
      obtain ⟨_, hs⟩ := Option.ite_none_right_eq_some.mp hs
      obtain ⟨slot, batch, stats, follow, outbox, rfl, hidle⟩ := fwdLoop_effect hs
      refine ⟨h.selected, h.ready, h.selected154, h.selectedBle, h.idle154, fun hrun => ?_⟩
      obtain ⟨hbatch, _⟩ := hidle hrun
      rw [hbatch]
      exact h.idleBle hrun
  | batchLinger =>
      obtain ⟨batcher, outbox, rfl, hempty, _⟩ := batchLinger_effect hs
      exact ⟨h.selected, h.ready, h.selected154, h.selectedBle, fun _ => hempty, h.idleBle⟩
  | bleLinger =>
      obtain ⟨batch, stats, outbox, rfl, hempty, _⟩ := bleLinger_effect hs
      exact ⟨h.selected, h.ready, h.selected154, h.selectedBle, h.idle154, fun _ => hempty⟩
  | radioEvent | syncWork | bigWork | isoPathWork | statsRead | linkRead | tickSend | log =>
      exact h.aside (step_aside rfl hs)

/-- The radio whose packet or whose timer an input is. -/
def Input.radio : Input → Option UInt8
  | .received _ | .batchLinger => some radio154
  | .hciPacket .. | .bleLinger => some radioBle
  | _ => none

/-- Nothing of the other radio is sent. -/
theorem OneRadio.other_silent {p : Platform} {fw fw' : Firmware} {i : Input} {radio : UInt8}
    (h : OneRadio fw) (hradio : i.radio = some radio) (hother : radio ≠ fw.selectedRadio)
    (hs : step p fw i = some fw') : fw'.outbox = fw.outbox := by
  have hidle154 : radio = radio154 → fw.radio.running = false := by
    intro heq
    cases hrun : fw.radio.running with
    | false => rfl
    | true => exact absurd (heq.trans (h.selected154 hrun).symm) hother
  have hidleBle : radio = radioBle → fw.ble.running = false := by
    intro heq
    cases hrun : fw.ble.running with
    | false => rfl
    | true => exact absurd (heq.trans (h.selectedBle hrun).symm) hother
  cases i with
  | received pkt =>
      obtain ⟨captured, batcher, outbox, rfl, hidle⟩ := receive_effect hs
      exact (hidle (hidle154 (Option.some.inj hradio).symm)).2.2
  | batchLinger =>
      obtain ⟨batcher, outbox, rfl, _, hsilent⟩ := batchLinger_effect hs
      exact hsilent (h.idle154 (hidle154 (Option.some.inj hradio).symm))
  | hciPacket h4 data now =>
      obtain ⟨_, hs⟩ := Option.ite_none_right_eq_some.mp hs
      obtain ⟨slot, batch, stats, follow, outbox, rfl, hidle⟩ := fwdLoop_effect hs
      exact (hidle (hidleBle (Option.some.inj hradio).symm)).2
  | bleLinger =>
      obtain ⟨batch, stats, outbox, rfl, _, hsilent⟩ := bleLinger_effect hs
      exact hsilent (h.idleBle (hidleBle (Option.some.inj hradio).symm))
  | hostFrame | radioEvent | syncWork | bigWork | isoPathWork | statsRead | linkRead | tickSend
  | log => cases hradio

/-- **At most one radio runs, and it is the selected one**, in every run whose
SET_RADIOs have their stops taken; and no packet of the other radio is sent. -/
theorem one_radio_of_stopTaken {p : Platform} {w : World} {inputs : List Input} {t : Firmware}
    (hmeets : (machine p).RunMeets (StopTaken p) (boot w) inputs)
    (hrun : (machine p).run (boot w) inputs = some t) :
    (t.radio.running = true → t.selectedRadio = radio154) ∧
    (t.ble.running = true → t.selectedRadio = radioBle) ∧
    ∀ i t' radio, i.radio = some radio → radio ≠ t.selectedRadio → step p t i = some t' →
      t'.outbox = t.outbox := by
  have h := (machine p).run_invariant_of
    (fun _ _ _ h hcond hstep => step_oneRadio h hcond hstep) (oneRadio_boot w) hmeets hrun
  exact ⟨h.selected154, h.selectedBle, fun _ _ _ => h.other_silent⟩

/-! ## A stop that is refused -/

/-- START, and SET_RADIO to BLE. -/
def startThenLeave : List Input :=
  [.hostFrame .controlCmd [2, 0, 0, 0, 0], .hostFrame .controlCmd [4, 2, 0, 0, 0]]

theorem one_radio_of_stopTaken_calm :
    ∃ t, (machine fullPlatform).run (boot calmWorld) startThenLeave = some t ∧
      (t.radio.running = true → t.selectedRadio = radio154) ∧
      (t.ble.running = true → t.selectedRadio = radioBle) ∧
      ∀ i t' radio, i.radio = some radio → radio ≠ t.selectedRadio →
        step fullPlatform t i = some t' → t'.outbox = t.outbox := by
  have hmeets : (machine fullPlatform).RunMeets (StopTaken fullPlatform) (boot calmWorld)
      startThenLeave := by
    refine ⟨nofun, fun s hs => ⟨fun _ _ _ _ => ?_, fun _ _ => trivial⟩⟩
    have hstarted : onStart fullPlatform (boot calmWorld) 2 = s := Option.some.inj hs
    rw [← hstarted]
    rfl
  have hruns : ((machine fullPlatform).run (boot calmWorld) startThenLeave).isSome = true := by
    decide +kernel
  obtain ⟨t, ht⟩ := Option.isSome_iff_exists.mp hruns
  exact ⟨t, ht, one_radio_of_stopTaken hmeets ht⟩

/-- **A stop that is refused.** The driver refuses its second call, the stop of
SET_RADIO. The reply says OK, BLE is selected, and the 802.15.4 radio runs. -/
theorem refused_stop_runs_on :
    ¬ ∀ (p : Platform) (w : World) (inputs : List Input) (t : Firmware),
      (machine p).run (boot w) inputs = some t →
        (t.radio.running = true → t.selectedRadio = radio154) ∧
        (t.ble.running = true → t.selectedRadio = radioBle) := by
  intro hall
  let w : World := { calmWorld with driverAnswers := fun n => if n = 1 then -5 else 0 }
  have hruns : (((machine fullPlatform).run (boot w) startThenLeave).any fun t =>
      t.radio.running && t.selectedRadio == radioBle) = true := by decide +kernel
  obtain ⟨t, ht, hbad⟩ := (Option.any_eq_true _ _).mp hruns
  obtain ⟨hrunning, hble⟩ := Bool.and_eq_true_iff.mp hbad
  have h154 : t.selectedRadio = radio154 := (hall fullPlatform w startThenLeave t ht).1 hrunning
  rw [h154] at hble
  cases hble

end Nrf54Sniffer.Board
