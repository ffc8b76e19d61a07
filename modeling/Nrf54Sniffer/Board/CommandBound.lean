/-
Nrf54Sniffer.Board.CommandBound — how many commands one input can send to the
controller.

A command is waited for, up to two seconds, so this is how long a thread can be
kept. The stored keys and the stored filter stay within their bounds over every
run, so START sends thirty-four commands at most. It also stops at the first
that is not accepted: a host frame meets one time-out at most, and nothing is
sent after it. A work item sends one command at most before it looks again at
what waits. `iso_path_work_fn` looks up two streams at most before it ends; how
often `sync_work_fn` looks has no bound, since events go on filling what it
empties.
-/
import Nrf54Sniffer.Board.InBounds

namespace Nrf54Sniffer.Board

open Nrf54Sniffer.Lib
open Nrf54Sniffer.Wire
open Nrf54Sniffer.Ble
open Nrf54Sniffer.Control

variable {p : Platform}

/-! ## One input -/

/-- The most commands an input can send: START's with full tables, or the one of
a work item's turn. -/
def Input.commandBound : Input → Nat
  | .hostFrame _ _ => 34
  | .syncWork | .bigWork _ | .isoPathWork => 1
  | _ => 0

/-- Nothing was sent after a command that was not accepted. -/
def StopsAtRefusal (new : Traffic) : Prop :=
  ∀ before x after, new = before ++ x :: after → x.2.accepted = false → after = []

theorem startScript_length (s : BleRadio) (intervalMs windowMs : UInt16) (phys : UInt8) :
    (startScript s intervalMs windowMs phys).length
      = 9 + 2 * s.keyCount + (if s.keyCount > 0 then 1 else 0) + s.filter.length := by
  have hpairs : ((List.range s.keyCount).flatMap fun _ =>
      [opLeAddDevToRl, opLeSetPrivacyMode]).length = 2 * s.keyCount := by
    simp [List.length_flatMap, List.map_const', Nat.mul_comm]
  have hkeys : (keyOpcodes s).length
      = 2 + 2 * s.keyCount + (if s.keyCount > 0 then 1 else 0) := by
    unfold keyOpcodes
    rw [List.length_append, List.length_append, hpairs]
    split
    · rfl
    · rfl
  have hscan : (if phys = 0 then [opLeSetScanParam, opLeSetScanEnable]
      else [opLeSetExtScanParam, opLeSetExtScanEnable]).length = 2 := by
    split
    · rfl
    · rfl
  rw [← List.length_map (f := HciCommand.opcode), startScript_opcodes]
  unfold startOpcodes filterOpcodes
  simp only [List.length_append, List.length_cons, List.length_nil, List.length_map, hkeys, hscan]
  omega

/-- A turn of `iso_path_work_fn` that sends a command goes on with the next of
the streams there is room for. -/
theorem isoPathWorkFn_sends {fw fw' : Firmware} {new : Traffic} (hwaits : WaitsFit fw.ble.follow)
    (h : isoPathWorkFn fw = some fw') (hlog : fw'.hci.log = fw.hci.log ++ new) (hne : new ≠ []) :
    ∃ k < maxBis, fw.ble.follow.loop = .pathing k ∧ fw'.ble.follow.loop = .pathing (k + 1) := by
  have hnothing : fw'.hci = fw.hci → False := by
    intro hsame
    rw [hsame] at hlog
    exact hne (List.self_eq_append_right.mp hlog)
  obtain ⟨isoPathWork, loop, rfl⟩ | ⟨handle, k, hloop, hstream, rfl⟩ := isoPathWorkFn_cases h
  · exact absurd rfl hnothing
  · rcases isoPathOne_adds { fw with ble := setLoop fw.ble (afterPath fw.ble k) } handle with
      hquiet | ⟨hon, _, _⟩
    · exact absurd hquiet.hci hnothing
    · have hon : fw.ble.running = true := hon
      obtain ⟨hlt, _⟩ := List.getElem?_eq_some_iff.mp hstream
      refine ⟨k, Nat.lt_of_lt_of_le hlt hwaits.streams, hloop, ?_⟩
      rw [isoPathOne_follow]
      exact if_pos hon

/-- **What one input can send.** In every reachable state, whatever the
controller answers: a host frame sends thirty-four commands at most, a turn of a
work item one, and nothing else sends any. A host frame sends nothing after a
command that was not accepted, so it is kept by one time-out at most. The turns
of `iso_path_work_fn` that send one count up to the streams there is room for. -/
theorem commands_bounded {fw fw' : Firmware} {i : Input} (h : Reachable p fw)
    (hs : step p fw i = some fw') :
    ∃ new, fw'.hci.log = fw.hci.log ++ new ∧ new.length ≤ i.commandBound ∧
      ((∃ type payload, i = .hostFrame type payload) → StopsAtRefusal new) ∧
      (i = .isoPathWork → new ≠ [] → ∃ k < maxBis,
        fw.ble.follow.loop = .pathing k ∧ fw'.ble.follow.loop = .pathing (k + 1)) := by
  obtain ⟨w, inputs, hrun⟩ := h
  have htables := tablesHold_run (tablesHold_boot w) hrun
  have hwaits := (tablesInside_run hrun).waits
  obtain ⟨new, hadds, hissues⟩ := step_issues hs
  have hpaths : i = .isoPathWork → new ≠ [] →
      ∃ k < maxBis, fw.ble.follow.loop = .pathing k ∧ fw'.ble.follow.loop = .pathing (k + 1) := by
    rintro rfl hne
    exact isoPathWorkFn_sends hwaits hs hadds.log hne
  refine ⟨new, hadds.log, and_assoc.mp ⟨?_, hpaths⟩⟩
  generalize fw'.ble.running = running at hissues
  cases hissues with
  | quiet _ => exact ⟨Nat.zero_le _, fun _ before x after heq => by simp at heq⟩
  | start hstarts _ =>
      obtain ⟨command, b0, b1, b2, b3, rest, rfl⟩ := hstarts.command
      have hfilter : fw.ble.filter.length ≤ maxFilter := by
        rw [htables.filter, List.length_take]
        exact Nat.min_le_left _ _
      have hkeys := htables.keys
      have hscript := startScript_length fw.ble fw.bleIntervalMs fw.bleWindowMs fw.blePhys
      have hissued : (fw.hci.issues fw.script).length ≤ fw.script.length := issued_length_le _ _
      have hsame : fw.script.length = _ := hscript
      refine ⟨?_, fun _ before x after heq hx => issued_refused_last heq hx⟩
      have h8 : maxFilter = 8 := rfl
      have h8' : maxKeys = 8 := rfl
      show _ ≤ 34
      split at hsame <;> omega
  | stop hstops =>
      obtain ⟨command, b0, b1, b2, b3, rest, rfl⟩ := hstops.command
      refine ⟨(by decide : 1 ≤ 34), fun _ before x after heq _ => ?_⟩
      cases before with
      | nil => exact (List.cons.inj heq).2.symm
      | cons y before => simp at heq
  | train _ _ => exact ⟨Nat.le_refl _, nofun⟩
  | broadcast _ => exact ⟨Nat.le_refl _, nofun⟩
  | stream _ _ => exact ⟨Nat.le_refl _, nofun⟩

/-- Eight devices in the filter, eight keys, and BLE selected. -/
def fullTables : List Input :=
  [.hostFrame .bleFilter (List.replicate 8 (0 :: List.replicate 6 0xAA)).flatten,
   .hostFrame .bleKeys (List.replicate 8 (0 :: List.replicate 22 0xBB)).flatten,
   .hostFrame .controlCmd [4, 2, 0, 0, 0]]

/-- START with full tables, every command accepted. -/
theorem commands_bounded_full :
    ∃ fw fw' new, (machine fullPlatform).run (boot calmWorld) fullTables = some fw ∧
      step fullPlatform fw (.hostFrame .controlCmd [2, 0, 0, 0, 0]) = some fw' ∧
      fw'.hci.log = fw.hci.log ++ new ∧ new.length = 34 ∧ StopsAtRefusal new := by
  have hruns : ((machine fullPlatform).run (boot calmWorld) fullTables).any (fun fw =>
      (step fullPlatform fw (.hostFrame .controlCmd [2, 0, 0, 0, 0])).any fun fw' =>
        fw'.hci.log.length == fw.hci.log.length + 34) = true := by decide +kernel
  obtain ⟨fw, hfw, hstep⟩ := (Option.any_eq_true _ _).mp hruns
  obtain ⟨fw', hfw', hcount⟩ := (Option.any_eq_true _ _).mp hstep
  obtain ⟨new, hlog, _, hstops, _⟩ := commands_bounded ⟨calmWorld, fullTables, hfw⟩ hfw'
  refine ⟨fw, fw', new, hfw, hfw', hlog, ?_, hstops ⟨_, _, rfl⟩⟩
  rw [beq_iff_eq, hlog, List.length_append] at hcount
  omega

end Nrf54Sniffer.Board
