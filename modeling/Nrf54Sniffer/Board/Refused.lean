/-
Nrf54Sniffer.Board.Refused — a refused command changes nothing.

Five commands can be refused, some after they have done something: SET_CHANNEL
flushes the open batch before the channel is looked at, SET_ANTENNA asks the
regulator, and ENERGY_DETECT may have tuned away and back. `RefusedBy` is what
all of them come to: at most that flush, a firmware that is the same but for
the count of the calls made below it (`Unmoved`), and the reply.

The driver is back where it was because it was where the radio's state says
before (`Tuned`), which holds along every run whose measurements were put back.
-/
import Nrf54Sniffer.Board.Restored
import Nrf54Sniffer.Control.Domain

namespace Nrf54Sniffer.Board

open Nrf54Sniffer.Lib
open Nrf54Sniffer.Wire
open Nrf54Sniffer.Radio154
open Nrf54Sniffer.Ble
open Nrf54Sniffer.Control

variable {p : Platform}

/-! ## Refusals -/

/-- The reply says that the value or the command is refused. -/
def Refused (p : Platform) (fw : Firmware) (command : UInt8) : Prop :=
  Answers p fw command .badValue ∨ Answers p fw command .unknownCommand

theorem refused_reply_iff (hp : StatusesDiffer p) (fw : Firmware) (command : UInt8)
    (status : Status) (value : UInt32) :
    Refused p (reply p fw command status value) command ↔
      status = .badValue ∨ status = .unknownCommand := by
  unfold Refused
  rw [answers_reply_iff hp, answers_reply_iff hp, eq_comm, eq_comm (a := Status.unknownCommand)]

theorem not_refused_ok (hp : StatusesDiffer p) {fw : Firmware} {command : UInt8}
    {value : UInt32} (h : Refused p (reply p fw command .ok value) command) : False := by
  rcases (refused_reply_iff hp _ _ _ _).mp h with h | h
  · cases h
  · cases h

theorem not_refused_failed (hp : StatusesDiffer p) {fw : Firmware} {command : UInt8}
    {value : UInt32} (h : Refused p (reply p fw command .failed value) command) : False := by
  rcases (refused_reply_iff hp _ _ _ _).mp h with h | h
  · cases h
  · cases h

theorem not_refused_okOrFailed (hp : StatusesDiffer p) {fw : Firmware} {command : UInt8}
    {err : Int} {value : UInt32}
    (h : Refused p (reply p fw command (okOrFailed err) value) command) : False := by
  unfold okOrFailed at h
  split at h
  · exact not_refused_ok hp h
  · exact not_refused_failed hp h

/-- The same firmware, but for the calls made to the driver and the antenna
switch. -/
def Unmoved (fw fw' : Firmware) : Prop :=
  ∃ driver rfswCtl, fw' = { fw with rfswCtl, radio := { fw.radio with driver } } ∧
    driver.tuned = fw.radio.driver.tuned ∧ driver.receiving = fw.radio.driver.receiving ∧
    rfswCtl.enabled = fw.rfswCtl.enabled

theorem Unmoved.refl (fw : Firmware) : Unmoved fw fw := ⟨_, _, rfl, rfl, rfl, rfl⟩

/-- At most a flush of the open batch, nothing else, and the reply. -/
def RefusedBy (p : Platform) (fw fw' : Firmware) (command : UInt8) : Prop :=
  ∃ fw₁ fw₂ status value, (fw₁ = fw ∨ flushBatch fw = some fw₁) ∧ Unmoved fw₁ fw₂ ∧
    fw' = reply p fw₂ command status value

/-- Refused out of hand. -/
theorem refusedBy_reply (fw : Firmware) (command : UInt8) (status : Status) (value : UInt32) :
    RefusedBy p fw (reply p fw command status value) command :=
  ⟨fw, fw, status, value, .inl rfl, .refl fw, rfl⟩

/-! ## Each command -/

theorem onSetRadio_refused (hp : StatusesDiffer p) {fw fw' : Firmware} {command : UInt8}
    {value : UInt32} (h : onSetRadio p fw command value = some fw')
    (hrefused : Refused p fw' command) : RefusedBy p fw fw' command := by
  unfold onSetRadio at h
  split at h
  · cases h
    exact refusedBy_reply fw command _ _
  · obtain ⟨fw₁, _, heq⟩ := Option.map_eq_some_iff.mp h
    subst heq
    exact (not_refused_ok hp hrefused).elim

theorem onSetBlePhys_refused (hp : StatusesDiffer p) {fw : Firmware} {command : UInt8}
    {value : UInt32} (hrefused : Refused p (onSetBlePhys p fw command value) command) :
    RefusedBy p fw (onSetBlePhys p fw command value) command := by
  unfold onSetBlePhys at hrefused ⊢
  split
  · exact refusedBy_reply fw command _ _
  · rename_i hfits
    rw [if_neg hfits] at hrefused
    exact (not_refused_ok hp hrefused).elim

/-- A channel that is refused moves nothing: the radio keeps its own. -/
theorem tuneAndStart_unmoved {fw : Firmware} {value : UInt32}
    (h : (tuneAndStart fw value).2 = .badValue) : Unmoved fw (tuneAndStart fw value).1 := by
  unfold tuneAndStart at h ⊢
  dsimp only at h ⊢
  by_cases herr : (snRadio154SetChannel fw.radio value.toUInt8).2 = 0
  · rw [if_neg (not_not_intro herr)] at h
    split at h
    · cases h
    · cases h
  · rw [if_pos herr]
    unfold snRadio154SetChannel at herr ⊢
    split at herr
    · rename_i hbad
      rw [if_pos hbad]
      exact .refl fw
    · rename_i hgood
      rw [if_neg hgood]
      dsimp only [Radio.call, Driver.call] at herr ⊢
      rw [if_neg herr, if_neg herr]
      exact ⟨_, _, rfl, rfl, rfl, rfl⟩

theorem tuneAndStart_status (fw : Firmware) (value : UInt32) :
    (tuneAndStart fw value).2 ≠ .unknownCommand := by
  unfold tuneAndStart
  dsimp only
  split
  · exact nofun
  · split
    · exact nofun
    · exact nofun

theorem onSetChannel_refused (hp : StatusesDiffer p) {fw fw' : Firmware} {command : UInt8}
    {value : UInt32} (h : onSetChannel p fw command value = some fw')
    (hrefused : Refused p fw' command) : RefusedBy p fw fw' command := by
  unfold onSetChannel at h
  split at h
  · cases h
    exact refusedBy_reply fw command _ _
  · obtain ⟨fw₁, hflush, heq⟩ := Option.map_eq_some_iff.mp h
    subst heq
    rcases (refused_reply_iff hp _ _ _ _).mp hrefused with hbad | hunknown
    · exact ⟨fw₁, _, _, _, .inr hflush, tuneAndStart_unmoved hbad, rfl⟩
    · exact absurd hunknown (tuneAndStart_status fw₁ value)

theorem onStart_not_refused (hp : StatusesDiffer p) {fw : Firmware} {command : UInt8}
    (h : Refused p (onStart p fw command) command) : False := by
  unfold onStart at h
  split at h
  · exact not_refused_okOrFailed hp h
  · exact not_refused_okOrFailed hp h

/-- The switch stays where it is unless the regulator takes the call. -/
theorem setAntenna_unmoved {fw : Firmware} {value : UInt32} (h : (setAntenna fw value).2 ≠ 0) :
    Unmoved fw (setAntenna fw value).1 := by
  unfold setAntenna switchAntenna at h ⊢
  split
  · exact .refl fw
  · rename_i hvalue
    rw [if_neg hvalue] at h
    split
    · exact .refl fw
    · rename_i hready
      rw [if_neg hready] at h
      split
      · exact .refl fw
      · rename_i hdiffers
        rw [if_neg hdiffers] at h
        refine ⟨_, _, rfl, rfl, rfl, ?_⟩
        exact if_neg h

theorem onSetAntenna_refused (hp : StatusesDiffer p) {fw : Firmware} {command : UInt8}
    {value : UInt32} (hrefused : Refused p (onSetAntenna p fw command value) command) :
    RefusedBy p fw (onSetAntenna p fw command value) command := by
  refine ⟨fw, (setAntenna fw value).1, _, _, .inl rfl, setAntenna_unmoved fun hzero => ?_, rfl⟩
  unfold onSetAntenna at hrefused
  dsimp only at hrefused
  rw [hzero] at hrefused
  exact not_refused_ok hp hrefused

theorem onEnergyDetect_refused (hp : StatusesDiffer p) {fw : Firmware} {command : UInt8}
    {value : UInt32} (hmeasuring : fw.radio.measuring = false) (htuned : Tuned fw.radio)
    (hrestore : fw.selectedRadio ≠ radioBle →
      RestoreAccepted fw.radio (value &&& 0xFF).toUInt8 (value >>> 8))
    (hrefused : Refused p (onEnergyDetect p fw command value) command) :
    RefusedBy p fw (onEnergyDetect p fw command value) command := by
  unfold onEnergyDetect at hrefused ⊢
  split
  · exact refusedBy_reply fw command _ _
  · rename_i h154
    rw [if_neg h154] at hrefused
    dsimp only at hrefused ⊢
    obtain ⟨htunes, hreceives, _, _⟩ :=
      energyDetect_restores htuned.tuned htuned.receiving (hrestore h154)
    have hunmoved : Unmoved fw { fw with
        radio := (snRadio154EnergyDetect fw.radio (value &&& 0xFF).toUInt8 (value >>> 8)).1 } := by
      refine ⟨_, _, ?_, htunes, hreceives, rfl⟩
      rw [← energyDetect_driver hmeasuring]
    split
    · exact ⟨fw, _, _, _, .inl rfl, hunmoved, rfl⟩
    · rename_i hinval
      rw [if_neg hinval] at hrefused
      split at hrefused
      · exact (not_refused_failed hp hrefused).elim
      · exact (not_refused_ok hp hrefused).elim

theorem onCommand_refused (hp : StatusesDiffer p) {fw fw' : Firmware} {command : UInt8}
    {value : UInt32} (hmeasuring : fw.radio.measuring = false) (htuned : Tuned fw.radio)
    (hrestore : Measures RestoreAccepted p fw command value)
    (h : onCommand p fw command value = some fw') (hrefused : Refused p fw' command) :
    RefusedBy p fw fw' command := by
  unfold onCommand at h
  cases hcommand : p.command command with
  | setRadio => simp only [hcommand] at h; exact onSetRadio_refused hp h hrefused
  | setBlePhys => simp only [hcommand] at h; cases h; exact onSetBlePhys_refused hp hrefused
  | setBlePeriodic => simp only [hcommand] at h; cases h; exact (not_refused_ok hp hrefused).elim
  | setBleScan => simp only [hcommand] at h; cases h; exact (not_refused_ok hp hrefused).elim
  | setChannel => simp only [hcommand] at h; exact onSetChannel_refused hp h hrefused
  | start => simp only [hcommand] at h; cases h; exact (onStart_not_refused hp hrefused).elim
  | stop =>
      simp only [hcommand] at h
      obtain ⟨⟨_, _⟩, _, heq⟩ := Option.map_eq_some_iff.mp h
      subst heq
      exact (not_refused_okOrFailed hp hrefused).elim
  | getInfo =>
      simp only [hcommand] at h
      obtain ⟨_, _, heq⟩ := Option.map_eq_some_iff.mp h
      subst heq
      exact (not_refused_ok hp hrefused).elim
  | setAntenna => simp only [hcommand] at h; cases h; exact onSetAntenna_refused hp hrefused
  | energyDetect =>
      simp only [hcommand] at h
      cases h
      exact onEnergyDetect_refused hp hmeasuring htuned (hrestore hcommand) hrefused
  | unknown => simp only [hcommand] at h; cases h; exact refusedBy_reply fw command _ _

/-! ## Every refusal -/

/-- Every setting, table and flag is as it was, and so is what lies below. -/
structure Untouched (fw fw' : Firmware) : Prop where
  selectedRadio : fw'.selectedRadio = fw.selectedRadio
  blePhys : fw'.blePhys = fw.blePhys
  bleIntervalMs : fw'.bleIntervalMs = fw.bleIntervalMs
  bleWindowMs : fw'.bleWindowMs = fw.bleWindowMs
  /-- The periodic setting, the filter, the keys, `running`, the batch and the
  counters of `radio_ble.c`. -/
  ble : fw'.ble = fw.ble
  antenna : fw'.rfswCtl.enabled = fw.rfswCtl.enabled
  running : fw'.radio.running = fw.radio.running
  currentChannel : fw'.radio.currentChannel = fw.radio.currentChannel
  measuring : fw'.radio.measuring = fw.radio.measuring
  tuned : fw'.radio.driver.tuned = fw.radio.driver.tuned
  receiving : fw'.radio.driver.receiving = fw.radio.driver.receiving
  hci : fw'.hci = fw.hci
  slot : fw'.slot = fw.slot
  logs : fw'.logs = fw.logs

/-- What was handed to the link: the frame of the batch that was open, if that,
and the reply. -/
def SendsAtMostOpen (p : Platform) (fw fw' : Firmware) (command : UInt8) : Prop :=
  ∃ data status value,
    fw'.outbox.frames
      = fw.outbox.frames ++ data ++ [⟨.controlReply, replyPayload p command status value⟩] ∧
    ((data = [] ∧ fw'.batcher = fw.batcher) ∨
      (data.length ≤ 1 ∧ (fw.batcher.count = 0 → data = []) ∧
        (∀ f ∈ data, f.type.carriesPackets = true) ∧
        ∃ fw₁, flushBatch fw = some fw₁ ∧ fw'.batcher = fw₁.batcher ∧
          fw₁.outbox.frames = fw.outbox.frames ++ data))

theorem RefusedBy.untouched {fw fw' : Firmware} {command : UInt8}
    (h : RefusedBy p fw fw' command) : Untouched fw fw' ∧ SendsAtMostOpen p fw fw' command := by
  obtain ⟨fw₁, _, status, value, hfirst, ⟨driver, rfswCtl, rfl, htuned, hreceiving, hantenna⟩,
    rfl⟩ := h
  rcases hfirst with rfl | hflush
  · refine ⟨⟨rfl, rfl, rfl, rfl, rfl, hantenna, rfl, rfl, rfl, htuned, hreceiving, rfl, rfl, rfl⟩,
      [], status, value, ?_, .inl ⟨rfl, rfl⟩⟩
    rw [List.append_nil]
    exact Outbox.send_frames _ _
  · obtain ⟨data, hframes, hlen, hempty, htypes⟩ := flushBatch_sends hflush
    have hflush' := hflush
    obtain ⟨batcher, outbox, rfl, _, _⟩ := flushBatch_effect hflush
    refine ⟨⟨rfl, rfl, rfl, rfl, rfl, hantenna, rfl, rfl, rfl, htuned, hreceiving, rfl, rfl, rfl⟩,
      data, status, value, ?_, .inr ⟨hlen, hempty, htypes, _, hflush', rfl, hframes⟩⟩
    rw [← hframes]
    exact Outbox.send_frames _ _

/-- **A refused command changes nothing**, after every run whose measurements
were put back, for every command byte and value: it sends the batch that was
open, at most, and the reply. -/
theorem refused_changes_nothing (hp : StatusesDiffer p) {w : World} {inputs : List Input}
    {fw fw' : Firmware}
    (hrestored : (machine p).RunMeets (InputMeasures RestoreAccepted p) (boot w) inputs)
    (hrun : (machine p).run (boot w) inputs = some fw)
    {command b0 b1 b2 b3 : UInt8} {rest : List UInt8}
    (hrestore : Measures RestoreAccepted p fw command (getLe32 b0 b1 b2 b3))
    (hstep : snControlHandle p fw .controlCmd (command :: b0 :: b1 :: b2 :: b3 :: rest) = some fw')
    (hrefused : Answers p fw' command .badValue ∨ Answers p fw' command .unknownCommand) :
    Untouched fw fw' ∧ SendsAtMostOpen p fw fw' command := by
  have htuned : Tuned fw.radio := radio_run tuned_fact hrestored ⟨rfl, rfl⟩ hrun
  have hreach : Reachable p fw := ⟨w, inputs, hrun⟩
  exact (onCommand_refused hp hreach.measuring htuned hrestore hstep hrefused).untouched

/-- A capture that is asked for channel 99. -/
theorem refused_changes_nothing_ninety_nine :
    ∃ fw fw', (machine fullPlatform).run (boot calmWorld)
        [.hostFrame .controlCmd [2, 0, 0, 0, 0], .received (some oneByte)] = some fw ∧
      snControlHandle fullPlatform fw .controlCmd [5, 99, 0, 0, 0] = some fw' ∧
      Untouched fw fw' ∧ SendsAtMostOpen fullPlatform fw fw' 5 := by
  have hruns : (((machine fullPlatform).run (boot calmWorld)
      [.hostFrame .controlCmd [2, 0, 0, 0, 0], .received (some oneByte)]).any fun fw =>
        (snControlHandle fullPlatform fw .controlCmd [5, 99, 0, 0, 0]).any fun fw' =>
          fw'.outbox.log.getLast? ==
            some (⟨.controlReply, replyPayload fullPlatform 5 .badValue 99⟩, .sent 16)) = true := by
    decide +kernel
  obtain ⟨fw, hrun, hanswer⟩ := (Option.any_eq_true _ _).mp hruns
  obtain ⟨fw', hstep, hreply⟩ := (Option.any_eq_true _ _).mp hanswer
  have hrestored : (machine fullPlatform).RunMeets (InputMeasures RestoreAccepted fullPlatform)
      (boot calmWorld) [.hostFrame .controlCmd [2, 0, 0, 0, 0], .received (some oneByte)] :=
    ⟨nofun, fun _ _ => ⟨trivial, fun _ _ => trivial⟩⟩
  have hbad : Answers fullPlatform fw' 5 .badValue := ⟨99, _, beq_iff_eq.mp hreply⟩
  exact ⟨fw, fw', hrun, hstep, refused_changes_nothing statusesDiffer_fullPlatform hrestored hrun
    nofun hstep (.inl hbad)⟩

end Nrf54Sniffer.Board
