/-
Nrf54Sniffer.Board.KeyLife — how long the stored keys live.

The keys are wiped by `sn_radio_ble_stop`. GET_INFO, STOP and SET_RADIO reach
it through `stop_radio`, which does not call it where the controller never came
up; BLE_KEYS stores keys all the same. So the end of a capture leaves the table
zero exactly where the controller is ready or there was nothing to wipe.
-/
import Nrf54Sniffer.Ble.ControllerTheorems
import Nrf54Sniffer.Board.Effects

namespace Nrf54Sniffer.Board

open Nrf54Sniffer.Lib
open Nrf54Sniffer.Wire
open Nrf54Sniffer.Ble
open Nrf54Sniffer.Control

/-- Every byte of the table is zero, and so is the count. -/
def KeysWiped (s : BleRadio) : Prop := (∀ byte ∈ s.keys.bytes, byte = 0) ∧ s.keyCount = 0

/-- GET_INFO, a STOP with BLE selected, or a SET_RADIO that leaves BLE. -/
def EndsBle (p : Platform) (fw : Firmware) : List UInt8 → Prop
  | command :: b0 :: b1 :: b2 :: b3 :: _ =>
      p.command command = .getInfo ∨
      (p.command command = .stop ∧ fw.selectedRadio = radioBle) ∨
      (p.command command = .setRadio ∧ fw.selectedRadio = radioBle ∧
        getLe32 b0 b1 b2 b3 = radio154.toUInt32)
  | _ => False

/-- The BLE half of `stop_radio` wipes the keys where the controller is ready,
and leaves them where it is not. -/
theorem stopBle_keys {fw : Firmware} (h : BatchesHold fw) :
    ∃ fw' err, stopBle fw = some (fw', err) ∧
      (KeysWiped fw'.ble ↔ fw.ble.ready = true ∨ KeysWiped fw.ble) := by
  obtain ⟨fw', err, hs⟩ := stopBle_total h
  refine ⟨fw', err, hs, ?_⟩
  cases hready : fw.ble.ready with
  | false =>
      rw [stopBle_notReady hready] at hs
      cases hs
      simp
  | true =>
      obtain ⟨batch, stats, outbox, hsent, _⟩ := stopBle_effect hready hs
      obtain ⟨_, _, _, _, heq⟩ := sendCommand_onlyHci
        (flushedStop fw ({ stopCapture fw.ble with batch, stats }, outbox)) opReset []
      rw [← hsent] at heq
      have heq : fw' = _ := heq
      have hwiped : KeysWiped fw'.ble := by
        rw [heq]
        exact ⟨fun byte hbyte => (List.mem_replicate.mp hbyte).2, rfl⟩
      simp [hwiped]

/-- `stop_radio` with BLE selected. -/
theorem stopSelected_keys {fw : Firmware} (h : BatchesHold fw)
    (hselected : fw.selectedRadio = radioBle) :
    ∃ fw' err, stopRadio fw fw.selectedRadio = some (fw', err) ∧
      (KeysWiped fw'.ble ↔ fw.ble.ready = true ∨ KeysWiped fw.ble) := by
  rw [hselected]
  exact stopBle_keys h

/-- A fresh session keeps whatever keys were left. -/
theorem freshSession_keys (fw : Firmware) :
    (freshSession fw).ble.keys = fw.ble.keys ∧
      (freshSession fw).ble.keyCount = fw.ble.keyCount := by
  unfold freshSession setAntenna switchAntenna
  split
  · exact ⟨rfl, rfl⟩
  · split
    · exact ⟨rfl, rfl⟩
    · split
      · exact ⟨rfl, rfl⟩
      · exact ⟨rfl, rfl⟩

/-- Both radios stopped, the 802.15.4 one first: it leaves the keys alone. -/
theorem stopBoth_keys {fw : Firmware} (h : BatchesHold fw) :
    ∃ fw', stopBoth fw = some fw' ∧
      (KeysWiped fw'.ble ↔ fw.ble.ready = true ∨ KeysWiped fw.ble) := by
  obtain ⟨fw₁, err₁, hs₁⟩ := stop154_total h
  have h154 : stopRadio fw radio154 = Control.stop154 fw := rfl
  obtain ⟨fw₂, err₂, hs₂, hkeys⟩ := stopBle_keys (stopRadio_holds h (h154.trans hs₁))
  obtain ⟨batcher, outbox, rfl, _⟩ := stop154_effect hs₁
  refine ⟨fw₂, ?_, hkeys⟩
  rw [stopBoth, h154, hs₁, Option.bind_some]
  exact congrArg (Option.map Prod.fst) hs₂

/-- GET_INFO. -/
theorem onGetInfo_keys (p : Platform) {fw : Firmware} (h : BatchesHold fw) (command : UInt8) :
    ∃ t, onGetInfo p fw command = some t ∧
      (KeysWiped t.ble ↔ fw.ble.ready = true ∨ KeysWiped fw.ble) := by
  obtain ⟨fw', hboth, hkeys⟩ := stopBoth_keys h
  obtain ⟨hbytes, hcount⟩ := freshSession_keys fw'
  refine ⟨reply p (freshSession fw') command .ok snFirmwareVersion, ?_, ?_⟩
  · simp only [onGetInfo, hboth, Option.map_some]
  · have hsame : KeysWiped (freshSession fw').ble ↔ KeysWiped fw'.ble := by
      simp only [KeysWiped, hbytes, hcount]
    exact hsame.trans hkeys

/-- A STOP of BLE. -/
theorem onStop_keys (p : Platform) {fw : Firmware} (h : BatchesHold fw)
    (hselected : fw.selectedRadio = radioBle) (command : UInt8) :
    ∃ t, onStop p fw command = some t ∧
      (KeysWiped t.ble ↔ fw.ble.ready = true ∨ KeysWiped fw.ble) := by
  obtain ⟨fw', err, hstopped, hkeys⟩ := stopSelected_keys h hselected
  refine ⟨reply p fw' command (okOrFailed err) 0, ?_, hkeys⟩
  simp only [onStop, hstopped, Option.map_some]

/-- A SET_RADIO from BLE to 802.15.4. -/
theorem onSetRadio_keys (p : Platform) {fw : Firmware} (h : BatchesHold fw)
    (hselected : fw.selectedRadio = radioBle) (command : UInt8) :
    ∃ t, onSetRadio p fw command radio154.toUInt32 = some t ∧
      (KeysWiped t.ble ↔ fw.ble.ready = true ∨ KeysWiped fw.ble) := by
  obtain ⟨fw', err, hstopped, hkeys⟩ := stopSelected_keys h hselected
  have hleaves : radio154.toUInt32 ≠ fw.selectedRadio.toUInt32 := by
    rw [hselected]
    decide
  refine ⟨reply p { fw' with selectedRadio := radio154.toUInt32.toUInt8 } command .ok
    radio154.toUInt32, ?_, hkeys⟩
  simp only [onSetRadio, hleaves, hstopped, Option.map_some, ne_eq, not_true_eq_false, false_and,
    if_false, not_false_eq_true, if_true]

/-- **Keys live for one capture**, exactly where the controller is ready or
there are none: after every GET_INFO, STOP of BLE or SET_RADIO that leaves BLE,
in every reachable state. -/
theorem keys_wiped_iff {p : Platform} {fw : Firmware} {payload : List UInt8}
    (hreach : Reachable p fw) (hends : EndsBle p fw payload) :
    ∃ t, snControlHandle p fw .controlCmd payload = some t ∧
      (KeysWiped t.ble ↔ fw.ble.ready = true ∨ KeysWiped fw.ble) := by
  have hhold := hreach.batchesHold
  match payload, hends with
  | command :: b0 :: b1 :: b2 :: b3 :: rest, hends =>
      show ∃ t, onCommand p fw command (getLe32 b0 b1 b2 b3) = some t ∧ _
      unfold onCommand
      rcases hends with hinfo | ⟨hstop, hselected⟩ | ⟨hset, hselected, hvalue⟩
      · rw [hinfo]
        exact onGetInfo_keys p hhold command
      · rw [hstop]
        exact onStop_keys p hhold hselected command
      · rw [hset, hvalue]
        exact onSetRadio_keys p hhold hselected command

/-! ## Keys that stay -/

/-- A board whose controller never came up. -/
def deadWorld : World := { calmWorld with controllerUp := false }

/-- GET_INFO. -/
def getInfoFrame : List UInt8 := [1, 0, 0, 0, 0]

/-- The keys arrive with the controller ready, and GET_INFO wipes them. -/
theorem keys_wiped_iff_ready :
    ∃ fw t, (machine plainPlatform).run (boot calmWorld) [.hostFrame .bleKeys oneKey] = some fw ∧
      fw.ble.keyCount = 1 ∧ fw.ble.ready = true ∧
      snControlHandle plainPlatform fw .controlCmd getInfoFrame = some t ∧ KeysWiped t.ble := by
  have hruns : (((machine plainPlatform).run (boot calmWorld) [.hostFrame .bleKeys oneKey]).any
      fun fw => fw.ble.keyCount == 1 && fw.ble.ready) = true := by decide +kernel
  obtain ⟨fw, hrun, hstored⟩ := (Option.any_eq_true _ _).mp hruns
  obtain ⟨hcount, hready⟩ := Bool.and_eq_true_iff.mp hstored
  have hreach : Reachable plainPlatform fw := ⟨calmWorld, _, hrun⟩
  have hends : EndsBle plainPlatform fw getInfoFrame := .inl rfl
  obtain ⟨t, ht, hiff⟩ := keys_wiped_iff hreach hends
  exact ⟨fw, t, hrun, beq_iff_eq.mp hcount, hready, ht, hiff.mpr (.inl hready)⟩

/-- **Keys that stay.** Where the controller never came up, BLE_KEYS stores the
keys and GET_INFO leaves them. -/
theorem keys_survive_getInfo :
    ¬ ∀ (p : Platform) (fw t : Firmware) (payload : List UInt8),
      Reachable p fw → EndsBle p fw payload →
        snControlHandle p fw .controlCmd payload = some t → KeysWiped t.ble := by
  intro hall
  have hruns : (((machine plainPlatform).run (boot deadWorld)
      [.hostFrame .bleKeys oneKey]).any fun fw =>
        (snControlHandle plainPlatform fw .controlCmd getInfoFrame).any fun t =>
          t.ble.keyCount == 1) = true := by decide +kernel
  obtain ⟨fw, hrun, hkept⟩ := (Option.any_eq_true _ _).mp hruns
  obtain ⟨t, ht, hcount⟩ := (Option.any_eq_true _ _).mp hkept
  have hends : EndsBle plainPlatform fw getInfoFrame := .inl rfl
  have hwiped := hall plainPlatform fw t getInfoFrame ⟨deadWorld, _, hrun⟩ hends ht
  rw [hwiped.2] at hcount
  cases hcount

end Nrf54Sniffer.Board
