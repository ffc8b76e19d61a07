/-
Nrf54Sniffer.Board.Restored — the 802.15.4 radio between two commands.

Commands reach the radio through the four calls of `radio154.c`, and everything
else only counts. So a fact about the radio that those calls keep holds in
every reachable state (`radio_run`): no measurement is going on, and, where the
driver takes the calls that put it back after each one, it is tuned to the
current channel and receives exactly while the capture runs.

`energy_detect_restores` is about one measurement in any of these states, with
its reports falling as they like.
-/
import Nrf54Sniffer.Board.Moves
import Nrf54Sniffer.Radio154.Measure

namespace Nrf54Sniffer.Board

open Nrf54Sniffer.Lib
open Nrf54Sniffer.Wire
open Nrf54Sniffer.Radio154
open Nrf54Sniffer.Ble
open Nrf54Sniffer.Control

variable {E : Radio → UInt8 → UInt32 → Prop}

/-! ## Facts about the radio -/

/-- A fact about the radio that its four calls keep, and that does not look at
the counters. -/
structure RadioFact (E : Radio → UInt8 → UInt32 → Prop) (P : Radio → Prop) : Prop where
  called : ∀ {r r' : Radio}, Called E r r' → P r → P r'
  counted : ∀ (r : Radio) (captured fcsFailed : Nat), P r → P { r with captured, fcsFailed }

/-- The measurements an input makes are ones that `E` allows. -/
def InputMeasures (E : Radio → UInt8 → UInt32 → Prop) (p : Platform) (fw : Firmware) :
    Input → Prop
  | .hostFrame .controlCmd (command :: b0 :: b1 :: b2 :: b3 :: _) =>
      Measures E p fw command (getLe32 b0 b1 b2 b3)
  | _ => True

theorem Move.radioFact {P : Radio → Prop} (hP : RadioFact E P) {fw fw' : Firmware}
    (h : Move E fw fw') : P fw.radio → P fw'.radio := by
  intro hr
  cases h with
  | radio hcalled => exact hP.called hcalled hr
  | counters => exact hP.counted _ 0 0 hr
  | hci h =>
      obtain ⟨_, _, _, _, rfl⟩ := h
      exact hr
  | flush h =>
      obtain ⟨_, _, rfl, _⟩ := flushBatch_effect h
      exact hr
  | selected _ => exact hr
  | phys _ => exact hr
  | timing _ _ => exact hr
  | periodic _ => exact hr
  | antenna _ => exact hr
  | scan => exact hr
  | stopBle _ => exact hr

theorem radioEvent_fact {P : Radio → Prop} (hP : RadioFact E P) (r : Radio) (event : RadioEvent)
    (h : P r) : P (radioEvent r event) := by
  unfold radioEvent
  split
  · split
    · exact h
    · split
      · exact hP.counted r _ _ h
      · exact h
  · exact h

theorem Turn.radioFact {P : Radio → Prop} (hP : RadioFact E P) {fw fw' : Firmware}
    (h : Turn fw fw') : P fw.radio → P fw'.radio := by
  intro hr
  cases h with
  | receive h =>
      obtain ⟨_, _, _, rfl, _⟩ := receive_effect h
      exact hP.counted _ _ _ hr
  | packet h =>
      obtain ⟨_, _, _, _, _, rfl, _⟩ := fwdLoop_effect h
      exact hr
  | batchLinger h =>
      obtain ⟨_, _, rfl, _⟩ := batchLinger_effect h
      exact hr
  | bleLinger h =>
      obtain ⟨_, _, _, rfl, _⟩ := bleLinger_effect h
      exact hr
  | radioEvent event => exact radioEvent_fact hP _ event hr
  | hci h =>
      obtain ⟨_, _, _, _, rfl⟩ := h
      exact hr
  | follow _ => exact hr
  | tick _ => exact hr
  | send _ _ => exact hr

theorem snRadioBleSetKeys_radio {fw fw' : Firmware} {payload : List UInt8} {err : Int}
    (h : snRadioBleSetKeys fw payload = some (fw', err)) : fw'.radio = fw.radio := by
  obtain ⟨line, rfl⟩ | ⟨keys, keyCount, _, rfl⟩ := snRadioBleSetKeys_cases h
  · rfl
  · rfl

/-- What every row keeps. -/
theorem moves_radio {P : Radio → Prop} (hP : RadioFact E P) {fw fw' : Firmware}
    (h : Moves E fw fw') : P fw.radio → P fw'.radio :=
  row_keeps (R := fun fw fw' => P fw.radio → P fw'.radio) (fun _ => id)
    (fun hfirst hsecond => hsecond ∘ hfirst) (Move.radioFact hP) h

theorem turns_radio {P : Radio → Prop} (hP : RadioFact E P) {fw fw' : Firmware}
    (h : Turns fw fw') : P fw.radio → P fw'.radio :=
  row_keeps (R := fun fw fw' => P fw.radio → P fw'.radio) (fun _ => id)
    (fun hfirst hsecond => hsecond ∘ hfirst) (Turn.radioFact hP) h

theorem radio_step {P : Radio → Prop} (hP : RadioFact E P) {p : Platform} {fw fw' : Firmware}
    {i : Input} (hE : InputMeasures E p fw i) (hr : P fw.radio) (h : step p fw i = some fw') :
    P fw'.radio := by
  cases i with
  | hostFrame type payload =>
      cases snControlHandle_handled h with
      | filter _ => exact hr
      | keys hset =>
          rw [snRadioBleSetKeys_radio hset]
          exact hr
      | command hcommand =>
          obtain ⟨fw₁, _, _, hmoves, rfl⟩ := onCommand_replied hE hcommand
          show P fw₁.radio
          exact moves_radio hP hmoves hr
      | ignored _ _ _ => exact hr
  | _ =>
      refine turns_radio hP (step_turns (fun _ _ heq => ?_) h) hr
      cases heq

/-- **What the calls keep, every run keeps.** -/
theorem radio_run {P : Radio → Prop} (hP : RadioFact E P) {p : Platform} {fw fw' : Firmware}
    {inputs : List Input} (hE : (machine p).RunMeets (InputMeasures E p) fw inputs)
    (hr : P fw.radio) (hrun : (machine p).run fw inputs = some fw') : P fw'.radio :=
  (machine p).run_invariant_of (I := fun fw => P fw.radio)
    (fun _ _ _ hr hE hstep => radio_step hP hE hr hstep) hr hE hrun

/-! ## Between commands -/

/-- Tuned to the current channel, and receiving exactly while running. -/
structure Tuned (r : Radio) : Prop where
  tuned : r.driver.tuned = r.currentChannel
  receiving : r.driver.receiving = r.running

/-- No call leaves a measurement going on. -/
theorem measuring_fact :
    RadioFact (fun _ _ _ => True) fun r => r.measuring = false where
  counted _ _ _ h := h
  called := by
    intro r r' h hr
    cases h with
    | setChannel channel =>
        unfold snRadio154SetChannel
        split
        · exact hr
        · dsimp only
          split
          · exact hr
          · exact hr
    | start =>
        unfold snRadio154Start
        dsimp only
        split
        · exact hr
        · exact hr
    | stop =>
        unfold snRadio154Stop
        split
        · exact hr
        · dsimp only
          split
          · exact hr
          · exact hr
    | energyDetect _ => exact energyDetect_measuring hr _ _

theorem tuned_setChannel {r : Radio} (h : Tuned r) (channel : UInt8) :
    Tuned (snRadio154SetChannel r channel).1 := by
  unfold snRadio154SetChannel
  split
  · exact h
  · dsimp only [Radio.call, Driver.call]
    split
    · exact ⟨rfl, h.receiving⟩
    · exact ⟨h.tuned, h.receiving⟩

theorem tuned_start {r : Radio} (h : Tuned r) : Tuned (snRadio154Start r).1 := by
  dsimp only [snRadio154Start, Radio.call, Driver.call]
  split
  · exact ⟨h.tuned, rfl⟩
  · exact ⟨h.tuned, h.receiving⟩

theorem tuned_stop {r : Radio} (h : Tuned r) : Tuned (snRadio154Stop r).1 := by
  unfold snRadio154Stop
  split
  · exact h
  · dsimp only [Radio.call, Driver.call]
    split
    · exact ⟨h.tuned, rfl⟩
    · exact ⟨h.tuned, h.receiving⟩

/-- Where every measurement is put back, the calls leave the radio where its
state says. -/
theorem tuned_fact : RadioFact RestoreAccepted Tuned where
  counted _ _ _ h := ⟨h.tuned, h.receiving⟩
  called := by
    intro r r' h hr
    cases h with
    | setChannel channel => exact tuned_setChannel hr channel
    | start => exact tuned_start hr
    | stop => exact tuned_stop hr
    | energyDetect hrestore =>
        obtain ⟨htuned, hreceiving, hchannel, hrunning⟩ :=
          energyDetect_restores hr.tuned hr.receiving hrestore
        exact ⟨by rw [htuned, hchannel, hr.tuned], by rw [hreceiving, hrunning, hr.receiving]⟩

/-- No measurement is going on in a reachable state. -/
theorem Reachable.measuring {p : Platform} {fw : Firmware} (h : Reachable p fw) :
    fw.radio.measuring = false := by
  obtain ⟨w, inputs, hrun⟩ := h
  refine radio_run (P := fun r => r.measuring = false) measuring_fact ?_ rfl hrun
  refine (machine p).runMeets_of_forall _ fun i _ fw => ?_
  unfold InputMeasures
  split
  · exact fun _ _ => trivial
  · trivial

/-! ## One measurement -/

end Nrf54Sniffer.Board
