/-
Nrf54Sniffer.Ble.ProtocolTheorems — whose answer a call of `hci_command` gets.

Along every run whose steps are `Timely` a call that returns 0 was accepted
and one that returns `-EIO` was refused (`credited_of_timely`). Not along
every run: the answer to a Reset that timed out is taken for the answer to the
next one (`late_reset_credited`).

The first section ties the steps to the functions they were taken from:
uninterrupted, the forwarding thread's are `note_command_result`, and a call's
are `hci_command`.
-/
import Nrf54Sniffer.Ble.Protocol

namespace Nrf54Sniffer.Ble.Protocol

open Nrf54Sniffer.Lib
open Nrf54Sniffer.Wire

/-! ## The answers -/

/-- The opcode and status are found again, in either form. -/
theorem commandResult_bytes (form : AnswerForm) (opcode : UInt16) (status : UInt8) :
    commandResult (form.bytes opcode status) = some (some (opcode, status)) := by
  cases form with
  | complete more =>
      simp only [commandResult, AnswerForm.bytes, commandComplete, putLe16, List.cons_append,
        List.nil_append, List.getElem?_cons_zero, List.getElem?_cons_succ, Option.bind_eq_bind,
        Option.bind_some, getLe16_putLe16]
      exact if_pos ⟨trivial, Nat.le_add_left 6 more.length⟩
  | brief =>
      show some (some (getLe16 _ _, status)) = _
      rw [getLe16_putLe16]

theorem two_le_bytes (form : AnswerForm) (opcode : UInt16) (status : UInt8) :
    2 ≤ (form.bytes opcode status).length := by
  cases form with
  | complete more => exact Nat.le_add_left 2 _
  | brief => exact Nat.le_add_left 2 _

theorem result_answer (form : AnswerForm) (opcode : UInt16) (status : UInt8)
    (answers : Option Nat) :
    Evt.result ⟨h4Event, form.bytes opcode status, answers⟩ = some (opcode, status) := by
  rw [Evt.result, if_pos ⟨rfl, two_le_bytes form opcode status⟩, commandResult_bytes]
  rfl

/-! ## The steps without an interruption -/

/-- The forwarding thread's steps for one packet. -/
def noteLabels (s : State) (e : Evt) : List Label :=
  if s.noted e = .idle then [.look] else [.look, .store, .clear, .give]

/-- What `note_command_result` does to the slot. -/
theorem noteAnswer_eq (slot : CmdSlot) (e : Evt) (slot' : CmdSlot)
    (h : noteAnswer slot e.h4 e.data = some slot') :
    slot' = match e.result with
      | some (opcode, status) => slot.credit opcode status
      | none => slot := by
  unfold noteAnswer at h
  unfold Evt.result
  split at h
  · next hevent =>
      rw [if_pos hevent]
      unfold noteCommandResult at h
      rcases hres : commandResult e.data with _ | _ | ⟨opcode, status⟩
      · rw [hres] at h; cases h
      · rw [hres] at h; cases h; rfl
      · rw [hres] at h; cases h; rfl
  · next hevent =>
      rw [if_neg hevent]
      cases h
      rfl

/-- The match of the steps is the one of `CmdSlot.credit`. -/
theorem credit_eq (s : State) (opcode : UInt16) (status : UInt8) :
    s.slot.credit opcode status =
      if s.matches opcode then { pendingOpcode := 0, pendingStatus := status, cmdDone := true }
      else s.slot := by
  unfold CmdSlot.credit State.matches
  by_cases h0 : opcode = 0
  · simp [h0]
  · by_cases hp : opcode = s.slot.pendingOpcode
    · simp [hp]
    · simp [hp]

/-- Uninterrupted they are `note_command_result`. -/
theorem noteLabels_eq_noteAnswer (s : State) (e : Evt) (fifo : List Evt) (slot : CmdSlot)
    (hfwd : s.fwd = .idle) (hfifo : s.fifo = e :: fifo)
    (hnote : noteAnswer s.slot e.h4 e.data = some slot) :
    machine.run s (noteLabels s e) = some { s with slot, fifo } := by
  have hslot := noteAnswer_eq s.slot e slot hnote
  have hnone : s.noted e = .idle → slot = s.slot →
      machine.run s (noteLabels s e) = some { s with slot, fifo } := by
    rintro hnoted rfl
    simp [noteLabels, hnoted, Machine.run, machine, step, stepFwd, hfwd, hfifo]
  rcases hres : e.result with _ | ⟨opcode, status⟩
  · rw [hres] at hslot
    exact hnone (by simp only [State.noted, hres]) hslot
  · rw [hres] at hslot
    change slot = s.slot.credit opcode status at hslot
    rw [credit_eq] at hslot
    by_cases hm : s.matches opcode
    · have hnoted : s.noted e = .matched s.calls status := by
        simp only [State.noted, hres, if_pos hm]
      rw [if_pos hm] at hslot
      simp [noteLabels, hnoted, Machine.run, machine, step, stepFwd, hfwd, hfifo, hslot]
    · rw [if_neg hm] at hslot
      exact hnone (by simp only [State.noted, hres, if_neg hm]) hslot

/-- The steps of a call nothing interrupts, and of what answers it. -/
def callLabels (opcode : UInt16) : HciAnswer → List Label
  | .noBuffer => [.call opcode, .noBuffer]
  | .sendError code =>
      [.call opcode, .reset, .ready, .arm, .notSent (-(code + 1 : Int)), .release]
  | .timedOut => [.call opcode, .reset, .ready, .arm, .sent, .timeOut, .release]
  | .answered status =>
      [.call opcode, .reset, .ready, .arm, .sent, .answer .brief status, .look, .store, .clear,
        .give, .take, .check, .release]

/-- Uninterrupted they are `hci_command`. -/
theorem callLabels_eq_hciCommand (s : State) (fw : Board.Firmware) (opcode : UInt16)
    (params : List UInt8) (hop : opcode ≠ 0) (hslot : fw.slot = s.slot)
    (hcaller : s.caller = .idle) (hfwd : s.fwd = .idle) (hcontroller : s.controller = [])
    (hfifo : s.fifo = []) :
    ∃ t, machine.run s (callLabels opcode fw.hci.next) = some t ∧
      t.slot = (hciCommand fw opcode params).1.slot ∧
      t.returns = s.returns ++
        [⟨s.calls + 1, (hciCommand fw opcode params).2.1, (hciCommand fw opcode params).2.2⟩] := by
  cases hnext : fw.hci.next with
  | noBuffer =>
      simp [callLabels, Machine.run, machine, step, stepCaller, hcaller, hciCommand, hnext,
        State.leave, hslot]
  | sendError code =>
      obtain ⟨err, herr⟩ : ∃ err : Int, -(code + 1 : Int) = err := ⟨_, rfl⟩
      have hne : err ≠ 0 := by omega
      simp only [callLabels, hciCommand, hnext, herr]
      simp [Machine.run, machine, step, stepCaller, hcaller, State.leave, CmdSlot.arm, hne]
  | timedOut =>
      simp [callLabels, Machine.run, machine, step, stepCaller, hcaller, hciCommand, hnext,
        State.leave, CmdSlot.arm, countTimeout, Board.Firmware.logLine]
  | answered status =>
      have hresult := result_answer .brief opcode status (some (s.calls + 1))
      simp [callLabels, Machine.run, machine, step, stepCaller, stepController, stepFwd, hcaller,
        hcontroller, hfifo, hfwd, hciCommand, hnext, State.leave, CmdSlot.arm, CmdSlot.credit,
        CmdSlot.taken, CmdSlot.released, State.noted, State.matches, hresult, hop]

/-! ## The invariant -/

/-- What is in a packet is what the controller said to the call it answers. -/
def Evt.Honest (e : Evt) (s : State) : Prop :=
  ∀ r ∈ e.result, r.1 ≠ 0 → ∃ call ∈ e.answers, (call, r.2) ∈ s.verdicts

/-- The slot holds what the controller said to the call in progress, and
nothing will change it before the next call. -/
def State.Given (s : State) : Prop :=
  s.fwd = .idle ∧ s.slot.pendingOpcode = 0 ∧ (s.calls, s.slot.pendingStatus) ∈ s.verdicts

/-- The semaphore is given for the call in progress alone, and whatever the
forwarding thread is about to write for it is what the controller said. -/
def State.Listening (s : State) : Prop :=
  match s.fwd with
  | .idle => s.slot.cmdDone = true → s.Given
  | .matched call status =>
      s.slot.cmdDone = false ∧ (call = s.calls → (s.calls, status) ∈ s.verdicts)
  | .stored call =>
      s.slot.cmdDone = false ∧ (call = s.calls → (s.calls, s.slot.pendingStatus) ∈ s.verdicts)
  | .cleared call =>
      s.slot.cmdDone = false ∧
        (call = s.calls →
          s.slot.pendingOpcode = 0 ∧ (s.calls, s.slot.pendingStatus) ∈ s.verdicts)

/-- The semaphore is reset and no opcode is pending, and what the forwarding
thread has in hand is for an earlier call. -/
def State.Emptied (s : State) : Prop :=
  s.slot.pendingOpcode = 0 ∧ s.fwd.call ≠ some s.calls ∧ s.slot.cmdDone = false

/-- What holds at each point of a call. -/
def State.Phase (s : State) : Prop :=
  match s.caller with
  | .idle => s.slot.pendingOpcode = 0
  | .begun _ => s.slot.pendingOpcode = 0 ∧ s.fwd.call ≠ some s.calls
  | .emptied _ | .readied _ => s.Emptied
  | .armed _ | .waiting => s.Listening
  | .woken => s.Given
  | .returning err =>
      (err = 0 → (s.calls, 0) ∈ s.verdicts) ∧
        (err = -eIo → s.slot.pendingStatus ≠ 0 ∧ s.Given)

structure Inv (s : State) : Prop where
  fifo : ∀ e ∈ s.fifo, e.Honest s
  fwd : ∀ call ∈ s.fwd.call, call ≤ s.calls
  phase : s.Phase
  credited : Credited s

theorem inv_initial : Inv {} where
  fifo := by simp
  fwd := by simp [Fwd.call]
  phase := rfl
  credited := by simp [Credited]

/-! ## The caller -/

/-- A step of the caller that returns nothing. -/
theorem Inv.caller {s t : State} (h : Inv s)
    (hcontroller : t.fifo = s.fifo ∧ t.verdicts = s.verdicts)
    (hfwd : t.fwd = s.fwd ∧ s.calls ≤ t.calls) (hreturns : t.returns = s.returns)
    (hphase : t.Phase) : Inv t where
  fifo e he r hr hne := by
    rw [hcontroller.2]
    exact h.fifo e (hcontroller.1 ▸ he) r hr hne
  fwd call hcall := Nat.le_trans (h.fwd call (hfwd.1 ▸ hcall)) hfwd.2
  phase := hphase
  credited := by
    unfold Credited
    rw [hreturns, hcontroller.2]
    exact h.credited

/-- A return that is right. -/
theorem Inv.leave {s : State} (h : Inv s) {err : Int} {status : Option UInt8}
    (hslot : s.slot.pendingOpcode = 0) (hzero : err = 0 → (s.calls, 0) ∈ s.verdicts)
    (hio : err = -eIo → ∃ st ∈ status, st ≠ 0 ∧ (s.calls, st) ∈ s.verdicts) :
    Inv (s.leave err status) where
  fifo := h.fifo
  fwd := h.fwd
  phase := hslot
  credited r hr := by
    rcases List.mem_append.mp hr with hr | hr
    · exact h.credited r hr
    · rw [List.mem_singleton.mp hr]
      exact ⟨hzero, hio⟩

/-- The opcode is written: nothing of this call is in the slot yet. -/
theorem State.Emptied.arm {s : State} (h : s.Emptied) (opcode : UInt16) :
    State.Listening
      { s with slot := { s.slot with pendingOpcode := opcode }, caller := .armed opcode } := by
  obtain ⟨-, hfwd, hdone⟩ := h
  unfold State.Listening
  cases hs : s.fwd with
  | idle => intro hgiven; exact absurd (hdone.symm.trans hgiven) nofun
  | matched call status =>
      refine ⟨hdone, fun hcall => absurd ?_ hfwd⟩
      rw [hs, hcall]; rfl
  | stored call =>
      refine ⟨hdone, fun hcall => absurd ?_ hfwd⟩
      rw [hs, hcall]; rfl
  | cleared call =>
      refine ⟨hdone, fun hcall => absurd ?_ hfwd⟩
      rw [hs, hcall]; rfl

/-- A given semaphore: the answer is in the slot. -/
theorem State.Listening.given {s : State} (h : s.Listening) (hdone : s.slot.cmdDone = true) :
    s.Given := by
  unfold State.Listening at h
  split at h
  · exact h hdone
  · rw [hdone] at h; cases h.1
  · rw [hdone] at h; cases h.1
  · rw [hdone] at h; cases h.1

theorem Inv.stepCaller {s t : State} {l : Label} (h : Inv s) (htimely : Timely s l)
    (hstep : stepCaller s l = some t) : Inv t := by
  have hphase := h.phase
  unfold State.Phase at hphase
  unfold Protocol.stepCaller at hstep
  split at hstep
  -- `.call`
  · rename_i hcaller
    simp only [hcaller] at hphase
    cases hstep
    refine h.caller ⟨rfl, rfl⟩ ⟨rfl, Nat.le_succ _⟩ rfl ⟨hphase, ?_⟩
    intro hcall
    exact Nat.not_succ_le_self _ (h.fwd _ hcall)
  -- `.noBuffer`
  · rename_i hcaller
    simp only [hcaller] at hphase
    cases hstep
    exact h.leave hphase.1 (fun herr => by cases herr) (fun herr => by cases herr)
  -- `.reset`
  · rename_i hcaller
    simp only [hcaller] at hphase
    cases hstep
    exact h.caller ⟨rfl, rfl⟩ ⟨rfl, Nat.le_refl _⟩ rfl ⟨hphase.1, hphase.2, rfl⟩
  -- `.ready`
  · rename_i hcaller
    simp only [hcaller] at hphase
    cases hstep
    exact h.caller ⟨rfl, rfl⟩ ⟨rfl, Nat.le_refl _⟩ rfl hphase
  -- `.arm`
  · rename_i opcode hcaller
    simp only [hcaller] at hphase
    cases hstep
    exact h.caller ⟨rfl, rfl⟩ ⟨rfl, Nat.le_refl _⟩ rfl (hphase.arm opcode)
  -- `.sent`
  · rename_i hcaller
    simp only [hcaller] at hphase
    cases hstep
    exact h.caller ⟨rfl, rfl⟩ ⟨rfl, Nat.le_refl _⟩ rfl hphase
  -- `.notSent`
  · split at hstep
    · next herr =>
        cases hstep
        exact h.caller ⟨rfl, rfl⟩ ⟨rfl, Nat.le_refl _⟩ rfl
          ⟨fun hzero => absurd hzero herr, fun hio => absurd hio htimely⟩
    · cases hstep
  -- `.take`
  · rename_i hcaller
    simp only [hcaller] at hphase
    split at hstep
    · next hdone =>
        cases hstep
        have hgiven : s.Given := hphase.given hdone
        exact h.caller ⟨rfl, rfl⟩ ⟨rfl, Nat.le_refl _⟩ rfl hgiven
    · cases hstep
  -- `.timeOut`
  · split at hstep
    · cases hstep
    · cases hstep
      exact h.caller ⟨rfl, rfl⟩ ⟨rfl, Nat.le_refl _⟩ rfl
        ⟨fun herr => (by cases herr), fun herr => (by cases herr)⟩
  -- `.check`
  · rename_i hcaller
    simp only [hcaller] at hphase
    cases hstep
    refine h.caller ⟨rfl, rfl⟩ ⟨rfl, Nat.le_refl _⟩ rfl ?_
    by_cases hstatus : s.slot.pendingStatus ≠ 0
    · simp only [if_pos hstatus]
      exact ⟨fun herr => (by cases herr), fun _ => ⟨hstatus, hphase⟩⟩
    · simp only [if_neg hstatus]
      refine ⟨fun _ => ?_, fun herr => (by cases herr)⟩
      have hverdict := hphase.2.2
      rwa [Decidable.not_not.mp hstatus] at hverdict
  -- `.release`
  · rename_i hcaller
    simp only [hcaller] at hphase
    cases hstep
    have hreleased : Inv { s with slot := s.slot.released, caller := .idle } :=
      h.caller ⟨rfl, rfl⟩ ⟨rfl, Nat.le_refl _⟩ rfl rfl
    refine hreleased.leave rfl hphase.1 fun herr => ⟨s.slot.pendingStatus, rfl, ?_⟩
    exact ⟨(hphase.2 herr).1, (hphase.2 herr).2.2.2⟩
  · cases hstep

/-! ## The forwarding thread -/

/-- A step of the forwarding thread. -/
theorem Inv.fwdStep {s t : State} (h : Inv s) (hfifo : ∀ e ∈ t.fifo, e ∈ s.fifo)
    (hcontroller : t.verdicts = s.verdicts ∧ t.calls = s.calls) (hreturns : t.returns = s.returns)
    (hfwd : ∀ call ∈ t.fwd.call, call ≤ s.calls) (hphase : t.Phase) : Inv t where
  fifo e he r hr hne := by
    rw [hcontroller.1]
    exact h.fifo e (hfifo e he) r hr hne
  fwd call hcall := by
    rw [hcontroller.2]
    exact hfwd call hcall
  phase := hphase
  credited := by
    unfold Credited
    rw [hreturns, hcontroller.1]
    exact h.credited

theorem matches_iff (s : State) (opcode : UInt16) :
    s.matches opcode = true ↔ opcode ≠ 0 ∧ opcode = s.slot.pendingOpcode := by
  simp [State.matches]

/-- A match finds the slot armed, its answer not yet come. -/
theorem phase_matched {s : State} (h : s.Phase) {status : UInt8} (fifo : List Evt)
    (hpending : s.slot.pendingOpcode ≠ 0)
    (hverdict : s.caller.listens = true → (s.calls, status) ∈ s.verdicts) :
    State.Phase { s with fwd := .matched s.calls status, fifo } := by
  have hungiven : ¬ s.Given := fun hgiven => hpending hgiven.2.1
  have hlisten : s.caller.listens = true → s.Listening → s.slot.cmdDone = false ∧
      (s.calls = s.calls → (s.calls, status) ∈ s.verdicts) := by
    intro hlistens hl
    refine ⟨?_, fun _ => hverdict hlistens⟩
    cases hdone : s.slot.cmdDone with
    | false => rfl
    | true => exact absurd (hl.given hdone) hungiven
  unfold State.Phase at h ⊢
  cases hcaller : s.caller with
  | idle => rw [hcaller] at h; exact absurd h hpending
  | begun opcode => rw [hcaller] at h; exact absurd h.1 hpending
  | emptied opcode => rw [hcaller] at h; exact absurd h.1 hpending
  | readied opcode => rw [hcaller] at h; exact absurd h.1 hpending
  | armed opcode => rw [hcaller] at h hlisten; exact hlisten rfl h
  | waiting => rw [hcaller] at h hlisten; exact hlisten rfl h
  | woken => rw [hcaller] at h; exact absurd h hungiven
  | returning err =>
      rw [hcaller] at h
      exact ⟨h.1, fun herr => absurd (h.2 herr).2 hungiven⟩

/-- The three writes, and the points of a call they may fall at. -/
theorem phase_write {s t : State} (h : s.Phase) (hbusy : s.fwd ≠ .idle)
    (hsame : t.caller = s.caller ∧ t.calls = s.calls ∧ t.verdicts = s.verdicts)
    (hpending : s.slot.pendingOpcode = 0 → t.slot.pendingOpcode = 0)
    (hcall : t.fwd.call = s.fwd.call ∨ t.fwd.call = none)
    (hemptied : s.caller.listens = true → s.Emptied → t.Emptied)
    (hlisten : s.caller.listens = true → s.Listening → t.Listening) : t.Phase := by
  have hungiven : ¬ s.Given := fun hgiven => hbusy hgiven.1
  unfold State.Phase at h ⊢
  rw [hsame.1]
  cases hcaller : s.caller with
  | idle => rw [hcaller] at h; exact hpending h
  | begun opcode =>
      rw [hcaller] at h
      refine ⟨hpending h.1, ?_⟩
      rw [hsame.2.1]
      rcases hcall with hcall | hcall
      · rw [hcall]; exact h.2
      · rw [hcall]; exact nofun
  | emptied opcode => rw [hcaller] at h hemptied; exact hemptied rfl h
  | readied opcode => rw [hcaller] at h hemptied; exact hemptied rfl h
  | armed opcode => rw [hcaller] at h hlisten; exact hlisten rfl h
  | waiting => rw [hcaller] at h hlisten; exact hlisten rfl h
  | woken => rw [hcaller] at h; exact absurd h hungiven
  | returning err =>
      rw [hcaller] at h
      refine ⟨?_, fun herr => absurd (h.2 herr).2 hungiven⟩
      rw [hsame.2.1, hsame.2.2]
      exact h.1

/-- The look at a packet. -/
theorem Inv.look {s : State} (h : Inv s) {e : Evt} {fifo : List Evt} (hfwd : s.fwd = .idle)
    (hfifo : s.fifo = e :: fifo) (htimely : Timely s .look) :
    Inv { s with fwd := s.noted e, fifo } := by
  have hrest : ∀ e' ∈ fifo, e' ∈ s.fifo := by
    intro e' he'
    rw [hfifo]
    exact List.mem_cons_of_mem e he'
  have hnone : s.noted e = .idle → Inv { s with fwd := s.noted e, fifo } := by
    intro hnoted
    rw [hnoted, ← hfwd]
    exact h.fwdStep hrest ⟨rfl, rfl⟩ rfl h.fwd h.phase
  unfold State.noted at hnone ⊢
  rcases hres : e.result with _ | ⟨opcode, status⟩
  · rw [hres] at hnone
    exact hnone rfl
  · rw [hres] at hnone
    by_cases hm : s.matches opcode
    · obtain ⟨hne, hpending⟩ := (matches_iff s opcode).mp hm
      obtain ⟨call, hcall, hverdict⟩ := h.fifo e (by rw [hfifo]; exact List.mem_cons_self)
        (opcode, status) hres hne
      have hown : s.caller.listens = true → (s.calls, status) ∈ s.verdicts := by
        intro hlistens
        by_cases hcur : call = s.calls
        · rw [hcur] at hverdict
          exact hverdict
        · have hno := htimely hlistens e (by rw [hfifo]; rfl) ⟨call, hcall, hcur⟩
            (opcode, status) hres
          rw [hm] at hno
          cases hno
      simp only [if_pos hm]
      refine h.fwdStep hrest ⟨rfl, rfl⟩ rfl ?_ (phase_matched h.phase fifo ?_ hown)
      · intro call' hcall'
        cases hcall'
        exact Nat.le_refl _
      · rw [← hpending]
        exact hne
    · simp only [if_neg hm] at hnone ⊢
      exact hnone trivial

theorem Inv.stepFwd {s t : State} {l : Label} (h : Inv s) (htimely : Timely s l)
    (hstep : stepFwd s l = some t) : Inv t := by
  unfold Protocol.stepFwd at hstep
  split at hstep
  -- `.look`
  · next hfwd hfifo =>
      cases hstep
      exact h.look hfwd hfifo htimely
  -- `.store`
  · next call status hfwd =>
      cases hstep
      have hcall := h.fwd
      rw [hfwd] at hcall
      refine h.fwdStep (fun e he => he) ⟨rfl, rfl⟩ rfl hcall ?_
      refine phase_write h.phase ?_ ⟨rfl, rfl, rfl⟩ id (.inl ?_) ?_ ?_
      · rw [hfwd]; exact nofun
      · rw [hfwd]; rfl
      · intro _ hemptied
        unfold State.Emptied at hemptied
        rw [hfwd] at hemptied
        exact hemptied
      · intro hlistens hl
        unfold State.Listening at hl
        rw [hfwd] at hl
        exact hl
  -- `.clear`
  · next call hfwd =>
      cases hstep
      have hcall := h.fwd
      rw [hfwd] at hcall
      refine h.fwdStep (fun e he => he) ⟨rfl, rfl⟩ rfl hcall ?_
      refine phase_write h.phase ?_ ⟨rfl, rfl, rfl⟩ (fun _ => rfl) (.inl ?_) ?_ ?_
      · rw [hfwd]; exact nofun
      · rw [hfwd]; rfl
      · intro _ hemptied
        unfold State.Emptied at hemptied
        rw [hfwd] at hemptied
        exact ⟨rfl, hemptied.2⟩
      · intro hlistens hl
        unfold State.Listening at hl
        rw [hfwd] at hl
        exact ⟨hl.1, fun hcall => ⟨rfl, hl.2 hcall⟩⟩
  -- `.give`
  · next call hfwd =>
      cases hstep
      refine h.fwdStep (fun e he => he) ⟨rfl, rfl⟩ rfl nofun ?_
      refine phase_write h.phase ?_ ⟨rfl, rfl, rfl⟩ id (.inr rfl) ?_ ?_
      · rw [hfwd]; exact nofun
      · intro hlistens hemptied
        exact absurd (htimely hlistens) hemptied.2.1
      · intro hlistens hl
        have hcall := htimely hlistens
        rw [hfwd] at hcall
        cases hcall
        unfold State.Listening at hl
        rw [hfwd] at hl
        intro hdone
        exact ⟨rfl, hl.2 rfl⟩
  · cases hstep

/-! ## The controller -/

/-- What was right stays right when the controller says more. -/
theorem State.Listening.more {s t : State} (h : s.Listening)
    (hsame : t.slot = s.slot ∧ t.fwd = s.fwd ∧ t.calls = s.calls)
    (hverdicts : ∀ v ∈ s.verdicts, v ∈ t.verdicts) : t.Listening := by
  unfold State.Listening at h ⊢
  unfold State.Given at h ⊢
  rw [hsame.1, hsame.2.1, hsame.2.2]
  cases hfwd : s.fwd with
  | idle =>
      rw [hfwd] at h
      intro hdone
      exact ⟨rfl, (h hdone).2.1, hverdicts _ (h hdone).2.2⟩
  | matched call status =>
      rw [hfwd] at h
      exact ⟨h.1, fun hcall => hverdicts _ (h.2 hcall)⟩
  | stored call =>
      rw [hfwd] at h
      exact ⟨h.1, fun hcall => hverdicts _ (h.2 hcall)⟩
  | cleared call =>
      rw [hfwd] at h
      exact ⟨h.1, fun hcall => ⟨(h.2 hcall).1, hverdicts _ (h.2 hcall).2⟩⟩

theorem phase_more {s t : State} (h : s.Phase)
    (hsame : t.slot = s.slot ∧ t.fwd = s.fwd ∧ t.calls = s.calls) (hcaller : t.caller = s.caller)
    (hverdicts : ∀ v ∈ s.verdicts, v ∈ t.verdicts) : t.Phase := by
  have hgiven : s.Given → t.Given := by
    intro hg
    unfold State.Given
    rw [hsame.1, hsame.2.1, hsame.2.2]
    exact ⟨hg.1, hg.2.1, hverdicts _ hg.2.2⟩
  have hemptied : s.Emptied → t.Emptied := by
    unfold State.Emptied
    rw [hsame.1, hsame.2.1, hsame.2.2]
    exact id
  have hlisten : s.Listening → t.Listening := fun hl => hl.more hsame hverdicts
  unfold State.Phase at h ⊢
  rw [hcaller, hsame.1, hsame.2.1, hsame.2.2]
  cases hs : s.caller with
  | idle => rw [hs] at h; exact h
  | begun opcode => rw [hs] at h; exact h
  | emptied opcode => rw [hs] at h; exact hemptied h
  | readied opcode => rw [hs] at h; exact hemptied h
  | armed opcode => rw [hs] at h; exact hlisten h
  | waiting => rw [hs] at h; exact hlisten h
  | woken => rw [hs] at h; exact hgiven h
  | returning err =>
      rw [hs] at h
      exact ⟨fun herr => hverdicts _ (h.1 herr), fun herr => ⟨(h.2 herr).1, hgiven (h.2 herr).2⟩⟩

/-- The controller says more, and only the queue of packets grows. -/
theorem Inv.moreSaid {s t : State} (h : Inv s) (hverdicts : ∀ v ∈ s.verdicts, v ∈ t.verdicts)
    (hsame : t.slot = s.slot ∧ t.fwd = s.fwd ∧ t.calls = s.calls) (hcaller : t.caller = s.caller)
    (hreturns : t.returns = s.returns)
    (hfifo : ∀ e ∈ t.fifo, e ∈ s.fifo ∨ e.Honest t) : Inv t where
  fifo e he := by
    rcases hfifo e he with he | he
    · intro r hr hne
      obtain ⟨call, hcall, hv⟩ := h.fifo e he r hr hne
      exact ⟨call, hcall, hverdicts _ hv⟩
    · exact he
  fwd := by
    rw [hsame.2.1, hsame.2.2]
    exact h.fwd
  phase := phase_more h.phase hsame hcaller hverdicts
  credited r hr := by
    rw [hreturns] at hr
    refine ⟨fun herr => hverdicts _ ((h.credited r hr).1 herr), fun herr => ?_⟩
    obtain ⟨status, hstatus, hne, hv⟩ := (h.credited r hr).2 herr
    exact ⟨status, hstatus, hne, hverdicts _ hv⟩

theorem Inv.stepController {s t : State} {l : Label} (h : Inv s)
    (hstep : stepController s l = some t) : Inv t := by
  unfold Protocol.stepController at hstep
  split at hstep
  -- `.answer`
  · next call opcode controller form status hcontroller =>
      cases hstep
      refine h.moreSaid (fun v hv => List.mem_append_left _ hv) ⟨rfl, rfl, rfl⟩ rfl rfl ?_
      intro e he
      rcases List.mem_append.mp he with he | he
      · exact .inl he
      · refine .inr fun r hr hne => ?_
        rw [List.mem_singleton.mp he, result_answer] at hr
        cases hr
        rw [List.mem_singleton.mp he]
        exact ⟨call, rfl, List.mem_append_right _ List.mem_cons_self⟩
  -- `.other`
  · next h4 data =>
      split at hstep
      · next hother =>
          cases hstep
          refine h.moreSaid (fun v hv => hv) ⟨rfl, rfl, rfl⟩ rfl rfl ?_
          intro e he
          rcases List.mem_append.mp he with he | he
          · exact .inl he
          · refine .inr fun r hr hne => ?_
            rw [List.mem_singleton.mp he] at hr
            rw [hr] at hother
            exact absurd (eq_of_beq hother) hne
      · cases hstep
  · cases hstep

theorem inv_step (s : State) (l : Label) (t : State) (h : Inv s) (htimely : Timely s l)
    (hstep : machine.step s l = some t) : Inv t := by
  change step s l = some t at hstep
  unfold step at hstep
  split at hstep
  · exact h.stepFwd htimely hstep
  · exact h.stepFwd htimely hstep
  · exact h.stepFwd htimely hstep
  · exact h.stepFwd htimely hstep
  · exact h.stepController hstep
  · exact h.stepController hstep
  · exact h.stepCaller htimely hstep

/-- **Credit.** Along every run whose steps are timely, a call that returned 0
was accepted, and one that returned `-EIO` was refused with its status. -/
theorem credited_of_timely (ls : List Label) (t : State) (htimely : machine.RunMeets Timely {} ls)
    (hrun : machine.run {} ls = some t) : Credited t :=
  (machine.run_invariant_of inv_step inv_initial htimely hrun).credited

/-- A Reset that times out, its answer looked at during the next command. -/
def lateOther : List Label :=
  [.call opReset, .reset, .ready, .arm, .sent, .timeOut, .release, .call opSetEventMask, .reset,
    .ready, .arm, .sent, .answer (.complete []) 0, .look, .answer .brief 0x12, .look, .store,
    .clear, .give, .take, .check, .release]

theorem credited_of_timely_other : ∃ t, machine.run {} lateOther = some t ∧
    t.returns = [⟨1, -eTimedOut, some 0xFF⟩, ⟨2, -eIo, some 0x12⟩] ∧ Credited t := by
  obtain ⟨t, ht⟩ := Option.isSome_iff_exists.mp
    (by decide +kernel : (machine.run {} lateOther).isSome = true)
  refine ⟨t, ht, ?_, credited_of_timely lateOther t (by decide +kernel) ht⟩
  have hget : t = (machine.run {} lateOther).get (by decide +kernel) := by simp [ht]
  rw [hget]
  decide +kernel

/-- Two Resets: the first times out, its answer comes during the second, and
then the controller refuses the second. -/
def lateReset : List Label :=
  [.call opReset, .reset, .ready, .arm, .sent, .timeOut, .release, .call opReset, .reset, .ready,
    .arm, .sent, .answer (.complete []) 0, .look, .store, .clear, .give, .take, .check, .release,
    .answer (.complete []) 0x0C]

/-- The second returns 0, on the answer to the first. -/
theorem late_reset_credited : ∃ t, machine.run {} lateReset = some t ∧
    ⟨2, 0, some 0⟩ ∈ t.returns ∧ t.verdicts = [(1, 0), (2, 0x0C)] ∧ ¬ Credited t := by
  refine ⟨(machine.run {} lateReset).get (by decide +kernel), (Option.some_get _).symm, ?_⟩
  decide +kernel

end Nrf54Sniffer.Ble.Protocol
