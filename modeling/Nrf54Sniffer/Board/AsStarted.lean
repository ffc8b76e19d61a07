/-
Nrf54Sniffer.Board.AsStarted — the controller is never anything but what START
made of it.

A command that was never answered, or whose `bt_send` failed, may or may not
have been carried out (`fate`). So the commands so far leave a choice of
controllers (`MayHave`), and each of them is one that a START of this run was
on its way to: the one its script leads to, cut somewhere (`AlongStart`). The
stops lead back to an empty script, and the work items move nothing START set.
A cut script does not scan: a controller that scans, scans passively, for the
filter, the keys and the settings some START found.
-/
import Nrf54Sniffer.Board.Bus
import Nrf54Sniffer.Board.FilterApplied

namespace Nrf54Sniffer.Board

open Nrf54Sniffer.Lib
open Nrf54Sniffer.Wire
open Nrf54Sniffer.Ble

/-! ## The controller -/

/-- What an answer says of the command. Without a buffer it was not sent. -/
def fate : HciAnswer → Fate
  | .noBuffer => .refused
  | .sendError _ => .unknown
  | .timedOut => .unknown
  | .answered status => if status = hciSuccess then .done else .refused

theorem accepted_iff_done (a : HciAnswer) : a.accepted = true ↔ fate a = .done := by
  cases a with
  | noBuffer => simp [HciAnswer.accepted, fate]
  | sendError code => simp [HciAnswer.accepted, fate]
  | timedOut => simp [HciAnswer.accepted, fate]
  | answered status => by_cases h : status = hciSuccess <;> simp [HciAnswer.accepted, fate, h]

/-- A controller that may have come of these commands since power-up. -/
abbrev MayHave (log : Traffic) (c : Controller) : Prop := MayBe exec fate {} log c

/-- A START was taken in `s`, along these inputs. -/
def StartedIn (p : Platform) (fw : Firmware) (inputs : List Input) (s : Firmware) : Prop :=
  ∃ pre i post, inputs = pre ++ i :: post ∧ (machine p).run fw pre = some s ∧ StartsBle p s i

/-- What a START found asks for. -/
def askedScan (s : Firmware) : Controller :=
  scanningFor s.ble.filter (keyEntries s.ble) s.blePhys
    (unitsPerMs (scanInterval s.bleIntervalMs)).toNat
    (unitsPerMs (scanWindow (scanInterval s.bleIntervalMs) s.bleWindowMs)).toNat

/-- The controllers on the way there. -/
def AlongStart (s : Firmware) (c : Controller) : Prop :=
  ∃ j, c = execAll {} (s.script.take j)

/-- The commands of START and of a stop. -/
def scanningOpcodes : List UInt16 :=
  setupOpcodes ++ [opLeSetScanParam, opLeSetScanEnable, opLeSetExtScanParam, opLeSetExtScanEnable]

/-- The commands the firmware has: none of them advertises, connects or
transmits. -/
def listeningOpcodes : List UInt16 := scanningOpcodes ++ followOpcodes

/-! ## One step -/

/-- START begins with a Reset, so what was there before it does not matter. -/
theorem execAll_script_take (s : Firmware) (c : Controller) (j : Nat) :
    execAll c (s.script.take (j + 1)) = execAll {} (s.script.take (j + 1)) := rfl

/-- The work items' commands move nothing the scan is made of. -/
theorem Follows.inert {new : Traffic} (h : Follows new) {c c' : Controller}
    (hc : MayBe exec fate c new c') : c' = c := by
  refine hc.of_inert fun x hx s => ?_
  have hopcode := h x hx
  obtain ⟨⟨opcode, params⟩, answer⟩ := x
  simp only [followOpcodes, List.mem_cons, List.not_mem_nil, or_false] at hopcode
  rcases hopcode with rfl | rfl | rfl
  · rfl
  · rfl
  · rfl

/-- One step's commands leave the controller, clear it, or take it along a
START of this step. -/
theorem Issues.moves {p : Platform} {fw : Firmware} {i : Input} {running : Bool} {new : Traffic}
    (h : Issues p fw i running new) {c c' : Controller} (hc : MayBe exec fate c new c') :
    c' = c ∨ c' = {} ∨ StartsBle p fw i ∧ AlongStart fw c' := by
  rcases h.kinds with ⟨hstarts, rfl, _⟩ | ⟨_, rfl, _⟩ | ⟨_, hfollows, _⟩
  · rcases (MayBe.issued_iff accepted_iff_done).mp hc with ⟨_, rfl⟩ | ⟨j, _, hstate⟩
    · refine .inr (.inr ⟨hstarts, fw.script.length, ?_⟩)
      rw [List.take_length]
      rfl
    · rcases hstate with rfl | ⟨_, rfl⟩
      · cases j with
        | zero => exact .inl rfl
        | succ j => exact .inr (.inr ⟨hstarts, j + 1, execAll_script_take fw c j⟩)
      · exact .inr (.inr ⟨hstarts, j + 1, execAll_script_take fw c j⟩)
  · rcases MayBe.single_iff.mp hc with ⟨_, rfl⟩ | ⟨_, rfl⟩
    · exact .inr (.inl rfl)
    · exact .inl rfl
  · exact .inl (hfollows.inert hc)

theorem scanScript_opcode (s : BleRadio) (phys : UInt8) (interval window : UInt16) :
    ∀ c ∈ scanScript s phys interval window, c.opcode ∈ scanningOpcodes := by
  unfold scanScript
  split
  · exact List.forall_mem_cons.mpr ⟨(by decide : opLeSetScanParam ∈ scanningOpcodes),
      List.forall_mem_singleton.mpr (by decide : opLeSetScanEnable ∈ scanningOpcodes)⟩
  · exact List.forall_mem_cons.mpr ⟨(by decide : opLeSetExtScanParam ∈ scanningOpcodes),
      List.forall_mem_singleton.mpr (by decide : opLeSetExtScanEnable ∈ scanningOpcodes)⟩

theorem script_opcode (s : Firmware) : ∀ c ∈ s.script, c.opcode ∈ scanningOpcodes := by
  unfold Firmware.script startScript
  simp only [List.forall_mem_append]
  exact ⟨fun c hc => List.mem_append_left _ (setupScript_opcode s.ble c hc),
    scanScript_opcode _ _ _ _⟩

theorem Issues.listens {p : Platform} {fw : Firmware} {i : Input} {running : Bool} {new : Traffic}
    (h : Issues p fw i running new) : ∀ x ∈ new, x.1.opcode ∈ listeningOpcodes := by
  intro x hx
  rcases h.kinds with ⟨_, rfl, _⟩ | ⟨_, rfl, _⟩ | ⟨_, hfollows, _⟩
  · exact List.mem_append_left _ (script_opcode fw x.1 (mem_of_mem_issued hx))
  · rw [List.mem_singleton.mp hx]
    exact (by decide : opReset ∈ listeningOpcodes)
  · exact List.mem_append_right _ (hfollows x hx)

/-! ## Every run -/

theorem StartedIn.later {p : Platform} {fw fw' s : Firmware} {i : Input} {inputs : List Input}
    (hstep : step p fw i = some fw') (h : StartedIn p fw' inputs s) :
    StartedIn p fw (i :: inputs) s := by
  obtain ⟨pre, j, post, rfl, hrun, hstarts⟩ := h
  exact ⟨i :: pre, j, post, rfl, (machine p).run_cons_eq_some.mpr ⟨fw', hstep, hrun⟩, hstarts⟩

/-- From any controller at the outset. -/
theorem run_moves {p : Platform} {fw t : Firmware} {inputs : List Input}
    (hrun : (machine p).run fw inputs = some t) :
    ∃ new, t.hci.log = fw.hci.log ++ new ∧ (∀ x ∈ new, x.1.opcode ∈ listeningOpcodes) ∧
      ∀ c c', MayBe exec fate c new c' →
        c' = c ∨ c' = {} ∨ ∃ s, StartedIn p fw inputs s ∧ AlongStart s c' := by
  induction inputs generalizing fw with
  | nil =>
      cases hrun
      refine ⟨[], by simp, by simp, fun c c' h => ?_⟩
      cases h
      exact .inl rfl
  | cons i inputs ih =>
      obtain ⟨fw₁, hstep, hrest⟩ := (machine p).run_cons_eq_some.mp hrun
      obtain ⟨one, hadds, hissues⟩ := step_issues hstep
      obtain ⟨more, hlog, hlistens, hmore⟩ := ih hrest
      refine ⟨one ++ more, by rw [hlog, hadds.log, List.append_assoc],
        List.forall_mem_append.mpr ⟨hissues.listens, hlistens⟩, fun c c' h => ?_⟩
      obtain ⟨c₁, hone, hrun'⟩ := MayBe.append_iff.mp h
      rcases hmore c₁ c' hrun' with rfl | hempty | ⟨s, hs, halong⟩
      · rcases hissues.moves hone with rfl | hempty | ⟨hstarts, halong⟩
        · exact .inl rfl
        · exact .inr (.inl hempty)
        · exact .inr (.inr ⟨fw, ⟨[], i, inputs, rfl, rfl, hstarts⟩, halong⟩)
      · exact .inr (.inl hempty)
      · exact .inr (.inr ⟨s, hs.later hstep, halong⟩)

/-! ## A script that is cut does not scan -/

theorem setScanParam_scanning (c : Controller) (params : List UInt8) :
    (setScanParam c params).scanning = c.scanning := by
  unfold setScanParam
  split
  · rfl
  · rfl

theorem setExtScanParam_scanning (c : Controller) (params : List UInt8) :
    (setExtScanParam c params).scanning = c.scanning := by
  unfold setExtScanParam
  split
  · rfl
  · rfl

/-- Only the two enables switch a scan on. -/
theorem exec_silent {c : Controller} {command : HciCommand}
    (h : command.opcode ≠ opLeSetScanEnable ∧ command.opcode ≠ opLeSetExtScanEnable)
    (hc : c.scanning = false) : (exec c command).scanning = false := by
  simp only [exec, apply_ite Controller.scanning, setScanParam_scanning, setExtScanParam_scanning,
    if_neg h.1, if_neg h.2, hc, ite_self]

theorem execAll_silent {c : Controller} {commands : List HciCommand}
    (h : ∀ x ∈ commands, x.opcode ≠ opLeSetScanEnable ∧ x.opcode ≠ opLeSetExtScanEnable)
    (hc : c.scanning = false) : (execAll c commands).scanning = false := by
  induction commands generalizing c with
  | nil => exact hc
  | cons x commands ih =>
      obtain ⟨hx, hrest⟩ := List.forall_mem_cons.mp h
      exact ih hrest (exec_silent hx hc)

/-- The script enables the scan last. -/
theorem script_eq (s : Firmware) :
    ∃ front last, s.script = front ++ [last] ∧
      ∀ x ∈ front, x.opcode ≠ opLeSetScanEnable ∧ x.opcode ≠ opLeSetExtScanEnable := by
  have hplain : (setupOpcodes ++ [opLeSetScanParam, opLeSetExtScanParam]).all (fun o =>
      o != opLeSetScanEnable && o != opLeSetExtScanEnable) = true := by decide
  have hfront : ∀ param : HciCommand, param.opcode ∈ [opLeSetScanParam, opLeSetExtScanParam] →
      ∀ x ∈ setupScript s.ble ++ [param],
        x.opcode ≠ opLeSetScanEnable ∧ x.opcode ≠ opLeSetExtScanEnable := by
    intro param hparam x hx
    have hmem : x.opcode ∈ setupOpcodes ++ [opLeSetScanParam, opLeSetExtScanParam] := by
      rcases List.mem_append.mp hx with hx | hx
      · exact List.mem_append_left _ (setupScript_opcode s.ble x hx)
      · rw [List.mem_singleton.mp hx]
        exact List.mem_append_right _ hparam
    simpa using List.all_eq_true.mp hplain x.opcode hmem
  unfold Firmware.script startScript scanScript
  split
  · exact ⟨setupScript s.ble ++ [_], _, by rw [List.append_assoc]; rfl,
      hfront _ (by decide : opLeSetScanParam ∈ [opLeSetScanParam, opLeSetExtScanParam])⟩
  · exact ⟨setupScript s.ble ++ [_], _, by rw [List.append_assoc]; rfl,
      hfront _ (by decide : opLeSetExtScanParam ∈ [opLeSetScanParam, opLeSetExtScanParam])⟩

theorem script_cut_silent {s : Firmware} {j : Nat} (hj : j < s.script.length) :
    (execAll {} (s.script.take j)).scanning = false := by
  obtain ⟨front, last, hscript, hfront⟩ := script_eq s
  rw [hscript, List.length_append, List.length_singleton] at hj
  rw [hscript, List.take_append_of_le_length (Nat.le_of_lt_succ hj)]
  exact execAll_silent (fun x hx => hfront x (List.mem_of_mem_take hx)) rfl

/-- So a controller on the way that scans has got there. -/
theorem AlongStart.arrived {s : Firmware} {c : Controller} (h : AlongStart s c)
    (hcount : s.ble.keyCount ≤ maxKeys) (hscans : c.scanning = true) : c = askedScan s := by
  obtain ⟨j, rfl⟩ := h
  by_cases hj : j < s.script.length
  · rw [script_cut_silent hj] at hscans
    cases hscans
  · rw [List.take_of_length_le (Nat.le_of_not_lt hj)]
    exact execAll_startScript hcount _ _ _

/-- **The controller is as some START found the board, or silent.** After every
run, whatever was answered and whichever of the commands left in doubt were
carried out: the firmware has sent nothing but listening commands; the
controller is cleared or on the way a START of the run was taking it; and if it
scans, it is just what that START was asked for. -/
theorem controller_as_started {p : Platform} {w : World} {inputs : List Input} {t : Firmware}
    (hrun : (machine p).run (boot w) inputs = some t) :
    (∀ x ∈ t.hci.log, x.1.opcode ∈ listeningOpcodes) ∧
    ∀ c, MayHave t.hci.log c →
      (c = {} ∨ ∃ s, StartedIn p (boot w) inputs s ∧ AlongStart s c) ∧
      (c.scanning = true → ∃ s, StartedIn p (boot w) inputs s ∧ c = askedScan s) := by
  obtain ⟨new, hlog, hlistens, hmoves⟩ := run_moves hrun
  have hlog : t.hci.log = new := hlog
  rw [hlog]
  refine ⟨hlistens, fun c hc => ?_⟩
  have hwhere : c = {} ∨ ∃ s, StartedIn p (boot w) inputs s ∧ AlongStart s c := by
    rcases hmoves {} c hc with hempty | hempty | hstarted
    · exact .inl hempty
    · exact .inl hempty
    · exact .inr hstarted
  refine ⟨hwhere, fun hscans => ?_⟩
  rcases hwhere with rfl | ⟨s, hs, halong⟩
  · cases hscans
  · obtain ⟨pre, i, post, heq, hpre, hstarts⟩ := hs
    have hkeys := (tablesHold_run (tablesHold_boot w) hpre).keys
    exact ⟨s, ⟨pre, i, post, heq, hpre, hstarts⟩, halong.arrived hkeys hscans⟩

/-- A controller that loses the answer to the scan enable of the first START,
and nothing else. -/
def enableInDoubt : World :=
  { calmWorld with hciAnswers := fun n => if n = 8 then .timedOut else .answered 0 }

/-- START has failed, and the controller may be scanning all the same: for what
that START asked. -/
theorem controller_as_started_enable_in_doubt :
    ∃ t c, (machine fullPlatform).run (boot enableInDoubt) (restart.take 2) = some t ∧
      t.ble.running = false ∧ MayHave t.hci.log c ∧ c.scanning = true ∧
      ∃ s, StartedIn fullPlatform (boot enableInDoubt) (restart.take 2) s ∧ c = askedScan s := by
  have hruns : ((machine fullPlatform).run (boot enableInDoubt) (restart.take 2)).any (fun t =>
      !t.ble.running && (MayBe.eager exec fate {} t.hci.log).scanning) = true := by
    decide +kernel
  obtain ⟨t, ht, hfacts⟩ := (Option.any_eq_true _ _).mp hruns
  simp only [Bool.and_eq_true, Bool.not_eq_true'] at hfacts
  have hmay : MayHave t.hci.log (MayBe.eager exec fate {} t.hci.log) := .eager_mayBe _ _ _ _
  obtain ⟨_, hscans⟩ := (controller_as_started ht).2 _ hmay
  exact ⟨t, _, ht, hfacts.1, hmay, hfacts.2, hscans hfacts.2⟩

end Nrf54Sniffer.Board
