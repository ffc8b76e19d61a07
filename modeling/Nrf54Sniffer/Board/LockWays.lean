/-
Nrf54Sniffer.Board.LockWays — the calls behind each input of the board.

The board's machine takes an input in one step. Here the step is a row of calls
of one thread, and each call goes a way that agrees with the step: a frame is
refused where the link's log has it refused, a command comes out as the
controller's log has it, a scan is refused where the driver refuses it, and
`cmd_done` is left as it is in the slot (`step_works`).

The threads can go that way, one call after another: what a wait is for happens
just before it is over, and the answer to a command is noted by the forwarding
thread, while the other one holds `cmd_lock` (`way_runs`). So a run of the board
is a run of the threads in which no thread comes between (`board_runs_threads`).
-/
import Nrf54Sniffer.Ble.StartScript
import Nrf54Sniffer.Board.LockTheorems
import Nrf54Sniffer.Board.Moves

namespace Nrf54Sniffer.Board.Locks

open Nrf54Sniffer.Lib
open Nrf54Sniffer.Lib.ThreadSystem (Orderly label)
open Nrf54Sniffer.Wire
open Nrf54Sniffer.Control

abbrev Deed : Type := Code.Deed Mutex Wait Act
abbrev Way : Type := List Deed

/-! ## What a way says -/

/-- The answers of `sn_link_send`. -/
def linkAnswers : Way → List Bool
  | .locked .encodeLock :: .chose refused :: way => (!refused) :: linkAnswers way
  | _ :: way => linkAnswers way
  | [] => []

/-- The driver's answers to `ed_scan`. -/
def scanAnswers : Way → List Bool
  | .did .resetEdDone :: .chose refused :: way => (!refused) :: scanAnswers way
  | _ :: way => scanAnswers way
  | [] => []

/-- A way through `hci_command`. -/
def isCommand (way : Way) : Bool := way.head? == some (.locked .cmdLock)

/-- How `hci_command` goes for each outcome. -/
def commandWay : Ble.HciAnswer → Way
  | .noBuffer => [.locked .cmdLock, .gaveUp .cmdBuffer, .unlocked .cmdLock]
  | .sendError _ =>
      [.locked .cmdLock, .got .cmdBuffer, .did .resetCmdDone, .chose true, .did .unrefBuffer,
        .unlocked .cmdLock]
  | .timedOut =>
      [.locked .cmdLock, .got .cmdBuffer, .did .resetCmdDone, .chose false, .gaveUp .cmdDone,
        .unlocked .cmdLock]
  | .answered _ =>
      [.locked .cmdLock, .got .cmdBuffer, .did .resetCmdDone, .chose false, .got .cmdDone,
        .unlocked .cmdLock]

/-- `cmd_done` after a deed. -/
def cmdDoneAfter (done : Bool) : Deed → Bool
  | .did .giveCmdDone => true
  | .did .resetCmdDone | .got .cmdDone => false
  | _ => done

/-! ## The threads go a way -/

/-- The forwarding thread gets the answer and notes it. -/
def answer : List Label :=
  [.happen .hciPacket, .call .forwarder 0, .turn .forwarder true, .turn .forwarder false,
    .turn .forwarder false, .turn .forwarder true, .turn .forwarder true]

/-- What ends a wait. -/
def comes : Wait → List Label
  | .hciRx => [.happen .hciPacket]
  | .cmdBuffer => [.happen .bufferSent]
  | .cmdDone => answer
  | .edDone => [.happen .edComplete]

/-- A deed, with what has to come first. -/
def helped (t : Thread) : Deed → List Label
  | .got w => comes w ++ [label t (.got w : Deed)]
  | d => [label t d]

variable {s : State} {held : Thread → List Mutex}

theorem perform_cmdDone (signals : Signals) (a : Act) :
    (signals.perform a).cmdDone = cmdDoneAfter signals.cmdDone (.did a) := by
  cases a <;> rfl

theorem answer_runs (hrest : s.code .forwarder = .ret) :
    threads.machine.run s answer
      = some { s with signals := { s.signals with cmdDone := true } } := by
  obtain ⟨code, owner, signals⟩ := s
  have hrest : code .forwarder = .ret := hrest
  have hback : Function.update code .forwarder .ret = code := by
    rw [← hrest, Function.update_eq_self]
  simp [answer, Machine.run, ThreadSystem.machine, ThreadSystem.step, ThreadSystem.turn,
    ThreadSystem.State.goto, threads, calls, fwdLoop, noteCommandResult, Signals.happen,
    Signals.take, Signals.perform, hrest, hback]

/-- What a wait is for comes, and is taken. -/
theorem comes_runs {w : Wait} (hrest : w = .cmdDone → s.code .forwarder = .ret) :
    ∃ signals signals', threads.machine.run s (comes w) = some { s with signals } ∧
      signals.take w = some signals' ∧
      signals'.cmdDone = cmdDoneAfter s.signals.cmdDone (.got w) := by
  cases w with
  | hciRx => exact ⟨_, _, rfl, rfl, rfl⟩
  | cmdBuffer => exact ⟨_, _, rfl, rfl, rfl⟩
  | cmdDone => exact ⟨_, _, answer_runs (hrest rfl), rfl, rfl⟩
  | edDone => exact ⟨_, _, rfl, rfl, rfl⟩

/-- The forwarding thread never waits for an answer. -/
theorem awaits_cmdDone (h : Orderly order s held) {t : Thread} {c : Call}
    (hnext : (s.code t).next (.got .cmdDone) = some c) : t ≠ .forwarder := by
  have hobeys := h.obeys t
  rintro rfl
  cases hcode : s.code .forwarder with
  | await w next =>
      rw [hcode] at hobeys hnext
      obtain ⟨rfl, -⟩ := Option.ite_none_right_eq_some.mp hnext
      simp [Code.obeys, order] at hobeys
  | awaitFor w next late =>
      rw [hcode] at hobeys hnext
      obtain ⟨rfl, -⟩ := Option.ite_none_right_eq_some.mp hnext
      simp [Code.obeys, order] at hobeys
  | ret | lock _ _ | unlock _ _ | act _ _ | branch _ _ =>
      rw [hcode] at hnext
      cases hnext

/-- One deed. -/
theorem helped_runs (h : Orderly order s held) {t : Thread} (hrest : ∀ u ≠ t, s.code u = .ret)
    {d : Deed} {c : Call} (hnext : (s.code t).next d = some c) :
    ∃ s', threads.machine.run s (helped t d) = some s' ∧
      s'.code = Function.update s.code t c ∧
      s'.signals.cmdDone = cmdDoneAfter s.signals.cmdDone d := by
  have hone : ∀ {s s' : State} {l : Label}, threads.step s l = some s' →
      threads.machine.run s [l] = some s' := by
    intro s s' l hstep
    simpa [Machine.run, ThreadSystem.machine] using hstep
  cases d with
  | got w =>
      have hforwarder : w = .cmdDone → s.code .forwarder = .ret := by
        rintro rfl
        exact hrest _ (Ne.symm (awaits_cmdDone h hnext))
      obtain ⟨signals, signals', hcomes, htake, hdone⟩ := comes_runs hforwarder
      obtain ⟨s', hstep, hcode, rfl⟩ := ThreadSystem.step_alone (S := threads) (h.signals signals)
        hrest hnext htake
      refine ⟨s', ?_, hcode, hdone⟩
      rw [helped, Machine.run_append, hcomes]
      exact hone hstep
  | did a =>
      obtain ⟨s', hstep, hcode, heq⟩ := ThreadSystem.step_alone (S := threads) h hrest hnext rfl
      exact ⟨s', hone hstep, hcode, by rw [heq]; exact perform_cmdDone _ a⟩
  | locked _ | unlocked _ | gaveUp _ | chose _ =>
      obtain ⟨s', hstep, hcode, heq⟩ := ThreadSystem.step_alone (S := threads) h hrest hnext rfl
      exact ⟨s', hone hstep, hcode, by rw [heq]; rfl⟩

/-- **A way can be gone**, with all the others at rest. -/
theorem way_runs (h : ∃ held, Orderly order s held) {t : Thread} (hrest : ∀ u ≠ t, s.code u = .ret)
    {way : Way} {c : Call} (hway : Code.alone.run (s.code t) way = some c) :
    ∃ s', threads.machine.run s (way.flatMap (helped t)) = some s' ∧
      (∃ held, Orderly order s' held) ∧ s'.code = Function.update s.code t c ∧
      s'.signals.cmdDone = way.foldl cmdDoneAfter s.signals.cmdDone := by
  induction way generalizing s with
  | nil =>
      cases hway
      exact ⟨s, rfl, h, (Function.update_eq_self t s.code).symm, rfl⟩
  | cons d way ih =>
      obtain ⟨c₁, hfirst, hmore⟩ := Code.alone.run_cons_eq_some.mp hway
      obtain ⟨held, horder⟩ := h
      obtain ⟨s₁, hrun₁, hcode₁, hdone₁⟩ := helped_runs horder hrest hfirst
      have horder₁ : ∃ held, Orderly order s₁ held :=
        threads.machine.run_invariant
          (fun _ _ _ h hstep => ThreadSystem.orderly_step calls_keep h hstep) ⟨held, horder⟩ hrun₁
      have hrest₁ : ∀ u ≠ t, s₁.code u = .ret := fun u hu => by
        rw [hcode₁, Function.update_of_ne hu]
        exact hrest u hu
      have hmore₁ : Code.alone.run (s₁.code t) way = some c := by
        rw [hcode₁, Function.update_self]
        exact hmore
      obtain ⟨s', hrun', horder', hcode', hdone'⟩ := ih horder₁ hrest₁ hmore₁
      refine ⟨s', ?_, horder', ?_, ?_⟩
      · rw [List.flatMap_cons, Machine.run_append, hrun₁]
        exact hrun'
      · rw [hcode', hcode₁, Function.update_idem]
      · rw [hdone', hdone₁, List.foldl_cons]

/-- A call a thread makes, by its number, and the way it goes. -/
structure Round where
  thread : Thread
  call : Nat
  way : Way

/-- It is one of the thread's calls, and a way through it. -/
def Round.Made (r : Round) : Prop := ∃ c, (calls r.thread)[r.call]? = some c ∧ c.Goes r.way

/-- The labels that take it from rest to rest. -/
def Round.labels (r : Round) : List Label :=
  .call r.thread r.call :: r.way.flatMap (helped r.thread)

/-- All threads at rest. -/
abbrev atRest (signals : Signals) : State := ThreadSystem.initial signals

theorem round_runs {r : Round} (h : r.Made) (signals : Signals) :
    ∃ signals', threads.machine.run (atRest signals) r.labels
        = some (atRest signals') ∧
      signals'.cmdDone = r.way.foldl cmdDoneAfter signals.cmdDone := by
  obtain ⟨c, hcall, hway⟩ := h
  have hstart : ∃ held, Orderly order (atRest signals) held :=
    ⟨_, ThreadSystem.orderly_initial order signals⟩
  have hbegin : threads.step (atRest signals) (.call r.thread r.call)
      = some (ThreadSystem.State.goto (atRest signals) r.thread c) := by
    have hcall : (threads.calls r.thread)[r.call]? = some c := hcall
    simp [ThreadSystem.step, ThreadSystem.initial, hcall]
  have hrest : ∀ u ≠ r.thread, (ThreadSystem.State.goto
      (atRest signals) r.thread c).code u = .ret :=
    fun u hu => ThreadSystem.goto_other _ c hu
  have hself : (ThreadSystem.State.goto (atRest signals) r.thread c).code
      r.thread = c := ThreadSystem.goto_self _ _ _
  obtain ⟨s', hrun, ⟨held, horder⟩, hcode, hdone⟩ := way_runs
    (ThreadSystem.orderly_step calls_keep hstart hbegin) hrest (by rw [hself]; exact hway)
  have hend : s' = atRest s'.signals := by
    refine horder.all_rest fun u => ?_
    rw [hcode]
    by_cases hu : u = r.thread
    · subst hu
      exact Function.update_self _ _ _
    · rw [Function.update_of_ne hu]
      exact hrest u hu
  refine ⟨s'.signals, ?_, hdone⟩
  rw [← hend]
  exact threads.machine.run_cons_eq_some.mpr ⟨_, hbegin, hrun⟩

/-- One round after another. -/
theorem rounds_run {rounds : List Round} (h : ∀ r ∈ rounds, r.Made) (signals : Signals) :
    ∃ signals', threads.machine.run (atRest signals) (rounds.flatMap Round.labels)
        = some (atRest signals') ∧
      signals'.cmdDone = (rounds.map Round.way).flatten.foldl cmdDoneAfter signals.cmdDone := by
  induction rounds generalizing signals with
  | nil => exact ⟨signals, rfl, rfl⟩
  | cons r rounds ih =>
      obtain ⟨signals₁, hrun₁, hdone₁⟩ := round_runs (h r (by simp)) signals
      obtain ⟨signals', hrun', hdone'⟩ := ih (fun r hr => h r (by simp [hr])) signals₁
      refine ⟨signals', ?_, ?_⟩
      · rw [List.flatMap_cons, Machine.run_append, hrun₁]
        exact hrun'
      · rw [hdone', hdone₁, List.map_cons, List.flatten_cons, List.foldl_append]

/-! ## What a step says -/

/-- A call of the driver that starts a scan, and whether it was taken. -/
def scanAnswer : Radio154.Call × Int → Option Bool
  | (.edScan _, err) => some (err == 0)
  | _ => none

/-- What happened to the firmware is what the ways say. -/
structure Heard (fw fw' : Firmware) (ways : List Way) : Prop where
  link : ∃ new, fw'.outbox.log = fw.outbox.log ++ new ∧
    new.map (fun x => x.2.ok) = ways.flatMap linkAnswers
  hci : ∃ new, fw'.hci.log = fw.hci.log ++ new ∧
    new.map (fun x => commandWay x.2) = ways.filter isCommand
  scans : ∃ new, fw'.radio.driver.log = fw.radio.driver.log ++ new ∧
    new.filterMap scanAnswer = ways.flatMap scanAnswers
  cmdDone : fw'.slot.cmdDone = ways.flatten.foldl cmdDoneAfter fw.slot.cmdDone

variable {fw fw' fw'' : Firmware}

theorem Heard.append {ways ways' : List Way} (h : Heard fw fw' ways) (h' : Heard fw' fw'' ways') :
    Heard fw fw'' (ways ++ ways') := by
  obtain ⟨sent, hsent, hlink⟩ := h.link
  obtain ⟨sent', hsent', hlink'⟩ := h'.link
  obtain ⟨asked, hasked, hhci⟩ := h.hci
  obtain ⟨asked', hasked', hhci'⟩ := h'.hci
  obtain ⟨called, hcalled, hscans⟩ := h.scans
  obtain ⟨called', hcalled', hscans'⟩ := h'.scans
  refine ⟨⟨sent ++ sent', ?_, ?_⟩, ⟨asked ++ asked', ?_, ?_⟩, ⟨called ++ called', ?_, ?_⟩, ?_⟩
  · rw [hsent', hsent, List.append_assoc]
  · rw [List.map_append, hlink, hlink', List.flatMap_append]
  · rw [hasked', hasked, List.append_assoc]
  · rw [List.map_append, hhci, hhci', List.filter_append]
  · rw [hcalled', hcalled, List.append_assoc]
  · rw [List.filterMap_append, hscans, hscans', List.flatMap_append]
  · rw [h'.cmdDone, h.cmdDone, List.flatten_append, List.foldl_append]

/-- A row of calls of one thread, and what happened to the firmware. -/
def Works (t : Thread) (fw fw' : Firmware) : Prop :=
  ∃ rounds : List Round, (∀ r ∈ rounds, r.thread = t ∧ r.Made) ∧
    Heard fw fw' (rounds.map Round.way)

variable {t : Thread}

theorem Works.trans (h : Works t fw fw') (h' : Works t fw' fw'') : Works t fw fw'' := by
  obtain ⟨rounds, hrounds, hheard⟩ := h
  obtain ⟨rounds', hrounds', hheard'⟩ := h'
  refine ⟨rounds ++ rounds', fun r hr => ?_, ?_⟩
  · rcases List.mem_append.mp hr with hr | hr
    · exact hrounds r hr
    · exact hrounds' r hr
  · rw [List.map_append]
    exact hheard.append hheard'

/-- Nothing that a way could say. -/
theorem Works.same (hlink : fw'.outbox.log = fw.outbox.log) (hhci : fw'.hci = fw.hci)
    (hdriver : fw'.radio.driver = fw.radio.driver) (hslot : fw'.slot = fw.slot) :
    Works t fw fw' := by
  refine ⟨[], by simp, ⟨[], by simp [hlink], rfl⟩, ⟨[], by simp [hhci], rfl⟩,
    ⟨[], by simp [hdriver], rfl⟩, ?_⟩
  rw [hslot]
  rfl

theorem Works.refl (t : Thread) (fw : Firmware) : Works t fw fw := .same rfl rfl rfl rfl

/-- One call. -/
theorem Works.one {c : Call} (hcall : c ∈ calls t) {way : Way} (hgoes : c.Goes way)
    (h : Heard fw fw' [way]) : Works t fw fw' := by
  obtain ⟨i, hi⟩ := List.getElem?_of_mem hcall
  refine ⟨[⟨t, i, way⟩], fun r hr => ?_, h⟩
  rw [List.mem_singleton.mp hr]
  exact ⟨rfl, c, hi, hgoes⟩

/-! ## Pieces of a call -/

/-- A piece of code is gone through, on to whatever comes next, and the link
answered this on the way. -/
structure Passes (f : Call → Call) (way : Way) (answers : List Bool) : Prop where
  goes : ∀ next, Code.alone.run (f next) way = some next
  link : ∀ rest, linkAnswers (way ++ rest) = answers ++ linkAnswers rest
  scans : ∀ rest, scanAnswers (way ++ rest) = scanAnswers rest
  cmdDone : ∀ done, way.foldl cmdDoneAfter done = done
  plain : .locked .cmdLock ∉ way

theorem Passes.comp {f g : Call → Call} {way way' : Way} {answers answers' : List Bool}
    (h : Passes f way answers) (h' : Passes g way' answers') :
    Passes (fun next => f (g next)) (way ++ way') (answers ++ answers') where
  goes next := by
    rw [Machine.run_append, h.goes]
    exact h'.goes next
  link rest := by rw [List.append_assoc, h.link, h'.link, List.append_assoc]
  scans rest := by rw [List.append_assoc, h.scans, h'.scans]
  cmdDone done := by rw [List.foldl_append, h.cmdDone, h'.cmdDone]
  plain hmem := (List.mem_append.mp hmem).elim h.plain h'.plain

/-- A call that does not command the controller, gone through. -/
structure Says (c : Call) (way : Way) (answers : List Bool) : Prop where
  goes : c.Goes way
  link : linkAnswers way = answers
  scans : scanAnswers way = []
  cmdDone : ∀ done, way.foldl cmdDoneAfter done = done
  plain : .locked .cmdLock ∉ way

/-- The end of a call. -/
theorem Passes.ends {f : Call → Call} {way : Way} {answers : List Bool}
    (h : Passes f way answers) : Says (f .ret) way answers where
  goes := h.goes .ret
  link := by simpa [linkAnswers] using h.link []
  scans := by simpa [scanAnswers] using h.scans []
  cmdDone := h.cmdDone
  plain := h.plain

/-- A batch's lock, taken and given back around a piece of code. -/
theorem Passes.locked {f : Call → Call} {way : Way} {answers : List Bool}
    (h : Passes f way answers) {m : Mutex} (hm : m = .lock ∨ m = .block) :
    Says (.lock m (f (.unlock m .ret))) (.locked m :: (way ++ [.unlocked m])) answers := by
  have hlink := h.link [.unlocked m]
  have hscans := h.scans [.unlocked m]
  have hrest : Code.alone.run (f (.unlock m .ret)) (way ++ [.unlocked m]) = some .ret := by
    rw [Machine.run_append, h.goes]
    simp [Code.alone, Machine.run, Code.next]
  refine ⟨?_, ?_, ?_, fun done => ?_, fun hmem => ?_⟩
  · simpa [Code.Goes, Code.alone, Machine.run, Code.next] using hrest
  · rcases hm with rfl | rfl
    · simpa [linkAnswers] using hlink
    · simpa [linkAnswers] using hlink
  · simpa [scanAnswers] using hscans
  · simp [cmdDoneAfter, h.cmdDone]
  · have hmine := h.plain
    rcases hm with rfl | rfl
    · simp [hmine] at hmem
    · simp [hmine] at hmem

/-- At an `if`, the second way. -/
theorem Says.branch {c : Call} {way : Way} {answers : List Bool} (h : Says c way answers) :
    Says (.branch .ret c) (.chose false :: way) answers where
  goes := h.goes
  link := h.link
  scans := h.scans
  cmdDone := h.cmdDone
  plain hmem := h.plain (by simpa using hmem)

theorem isCommand_plain {way : Way} (h : .locked .cmdLock ∉ way) : isCommand way = false := by
  cases way with
  | nil => rfl
  | cons d way =>
      have hne : d ≠ .locked .cmdLock := fun heq => h (by simp [heq])
      simpa [isCommand] using hne

/-- Such a call, and nothing else. -/
theorem Says.works {c : Call} {way : Way} {answers : List Bool} (h : Says c way answers)
    (hcall : c ∈ calls t)
    (hlink : ∃ new, fw'.outbox.log = fw.outbox.log ++ new ∧ new.map (fun x => x.2.ok) = answers)
    (hhci : fw'.hci = fw.hci) (hdriver : fw'.radio.driver = fw.radio.driver)
    (hslot : fw'.slot = fw.slot) : Works t fw fw' := by
  obtain ⟨new, hlog, hnew⟩ := hlink
  refine .one hcall h.goes ⟨⟨new, hlog, ?_⟩, ⟨[], by simp [hhci], ?_⟩,
    ⟨[], by simp [hdriver], ?_⟩, ?_⟩
  · simp [h.link, hnew]
  · simp [isCommand_plain h.plain]
  · simp [h.scans]
  · simp [hslot, h.cmdDone]

/-- A piece of code did this to the link. -/
def Hands (f : Call → Call) (o o' : Outbox) : Prop :=
  ∃ way answers new, Passes f way answers ∧ o'.log = o.log ++ new ∧
    new.map (fun x => x.2.ok) = answers

theorem Hands.comp {f g : Call → Call} {o o' o'' : Outbox} (h : Hands f o o')
    (h' : Hands g o' o'') : Hands (fun next => f (g next)) o o'' := by
  obtain ⟨way, answers, new, hpasses, hlog, hnew⟩ := h
  obtain ⟨way', answers', new', hpasses', hlog', hnew'⟩ := h'
  refine ⟨_, _, new ++ new', hpasses.comp hpasses', ?_, ?_⟩
  · rw [hlog', hlog, List.append_assoc]
  · rw [List.map_append, hnew, hnew']

theorem send_passes (ok : Bool) : ∃ way, Passes snLinkSend way [ok] := by
  cases ok with
  | false =>
      exact ⟨[.locked .encodeLock, .chose true, .unlocked .encodeLock], fun _ => rfl, fun _ => rfl,
        fun _ => rfl, fun _ => rfl, by decide⟩
  | true =>
      exact ⟨[.locked .encodeLock, .chose false, .unlocked .encodeLock, .did .giveTxReady],
        fun _ => rfl, fun _ => rfl, fun _ => rfl, fun _ => rfl, by decide⟩

theorem send_hands (o : Outbox) (f : Frame) : Hands snLinkSend o (o.send f).1 := by
  obtain ⟨way, hpasses⟩ := send_passes (o.send f).2.ok
  exact ⟨way, _, _, hpasses, Outbox.send_log o f, rfl⟩

/-- At an `if`, the first way does nothing. -/
theorem branch_idle (f : Call → Call) (o : Outbox) :
    Hands (fun next => .branch next (f next)) o o :=
  ⟨[.chose true], [], [], ⟨fun _ => rfl, fun _ => rfl, fun _ => rfl, fun _ => rfl, by decide⟩,
    by simp, rfl⟩

theorem Hands.branch {f : Call → Call} {o o' : Outbox} (h : Hands f o o') :
    Hands (fun next => .branch next (f next)) o o' := by
  obtain ⟨way, answers, new, hpasses, hlog, hnew⟩ := h
  exact ⟨.chose false :: way, answers, new, ⟨hpasses.goes, hpasses.link, hpasses.scans,
    hpasses.cmdDone, fun hmem => hpasses.plain (by simpa using hmem)⟩, hlog, hnew⟩

/-- A batch's lock around a piece of code, and nothing else. -/
theorem Works.locked {f : Call → Call} {m : Mutex} (hm : m = .lock ∨ m = .block)
    (hcall : .lock m (f (.unlock m .ret)) ∈ calls t) (h : Hands f fw.outbox fw'.outbox)
    (hhci : fw'.hci = fw.hci) (hdriver : fw'.radio.driver = fw.radio.driver)
    (hslot : fw'.slot = fw.slot) : Works t fw fw' := by
  obtain ⟨way, answers, new, hpasses, hlog, hnew⟩ := h
  exact (hpasses.locked hm).works hcall ⟨new, hlog, hnew⟩ hhci hdriver hslot

/-- One frame, and nothing else. -/
theorem Works.send (hcall : snLinkSend .ret ∈ calls t) (f : Frame)
    (hlink : fw'.outbox.log = (fw.outbox.send f).1.log) (hhci : fw'.hci = fw.hci)
    (hdriver : fw'.radio.driver = fw.radio.driver) (hslot : fw'.slot = fw.slot) :
    Works t fw fw' := by
  obtain ⟨way, answers, new, hpasses, hlog, hnew⟩ := send_hands fw.outbox f
  exact hpasses.ends.works hcall ⟨new, hlink.trans hlog, hnew⟩ hhci hdriver hslot

/-! ## The batches -/

theorem batch_flush_hands {b b' : Batch.Batcher} {o o' : Outbox}
    (h : Batch.flushLocked b o = some (b', o')) : Hands flushLocked o o' := by
  unfold Batch.flushLocked at h
  split at h
  · cases h
    exact branch_idle snLinkSend o
  · split at h
    · simp only [Batch.flushOne, Option.bind_eq_bind, Option.bind_eq_some_iff] at h
      obtain ⟨_, _, _, _, _, _, _, _, _, _, heq⟩ := h
      cases heq
      exact (send_hands o _).branch
    · simp only [Batch.flushMany, Option.bind_eq_bind, Option.bind_eq_some_iff] at h
      obtain ⟨_, _, _, _, heq⟩ := h
      cases heq
      exact (send_hands o _).branch

theorem batch_close_hands {b b' : Batch.Batcher} {o o' : Outbox} {packet : Batch.Packet}
    {len : Nat} (h : Batch.closeEarly b o packet len = some (b', o')) : Hands flushIf o o' := by
  unfold Batch.closeEarly at h
  split at h
  · exact (batch_flush_hands h).branch
  · cases h
    exact branch_idle flushLocked o

theorem batch_add_hands {b b' : Batch.Batcher} {o o' : Outbox} {packet : Batch.Packet}
    (h : Batch.snBatchAdd b o packet = some (b', o')) :
    Hands (fun next => flushIf (flushIf next)) o o' := by
  simp only [Batch.snBatchAdd, Option.bind_eq_bind, Option.bind_eq_some_iff] at h
  obtain ⟨⟨b₁, o₁⟩, hclose, b₂, _, h⟩ := h
  refine (batch_close_hands hclose).comp ?_
  split at h
  · obtain ⟨⟨b₃, o₃⟩, hflush, heq⟩ := Option.bind_eq_some_iff.mp h
    cases heq
    exact (batch_flush_hands hflush).branch
  · cases h
    exact branch_idle flushLocked _

theorem ble_flush_hands {s s' : Ble.BleRadio} {o o' : Outbox}
    (h : Ble.bleFlushLocked s o = some (s', o')) : Hands bleFlushLocked o o' := by
  unfold Ble.bleFlushLocked at h
  split at h
  · cases h
    exact branch_idle snLinkSend o
  · split at h
    · simp only [Ble.bleFlushOne, Ble.sendAlone, Option.bind_eq_bind, Option.bind_eq_some_iff] at h
      obtain ⟨_, _, _, _, _, ⟨_, _, _, _, _, _, hsent⟩, heq⟩ := h
      cases hsent
      cases heq
      exact (send_hands o _).branch
    · simp only [Ble.bleFlushMany, Option.bind_eq_bind, Option.bind_eq_some_iff] at h
      obtain ⟨_, _, _, _, heq⟩ := h
      cases heq
      exact (send_hands o _).branch

theorem ble_append_hands {s s' : Ble.BleRadio} {o o' : Outbox} {p : Ble.Sized}
    (h : Ble.appendLocked s o p = some (s', o')) :
    Hands (fun next => bleFlushIf (bleFlushIf next)) o o' := by
  simp only [Ble.appendLocked, Option.bind_eq_bind, Option.bind_eq_some_iff] at h
  obtain ⟨⟨s₁, o₁⟩, hclose, batch, _, h⟩ := h
  have hclosed : Hands bleFlushIf o o₁ := by
    unfold Ble.closeEarly at hclose
    split at hclose
    · exact (ble_flush_hands hclose).branch
    · cases hclose
      exact branch_idle bleFlushLocked _
  refine hclosed.comp ?_
  split at h
  · obtain ⟨⟨s₂, o₂⟩, hflush, heq⟩ := Option.bind_eq_some_iff.mp h
    cases heq
    exact (ble_flush_hands hflush).branch
  · cases h
    exact branch_idle bleFlushLocked _

theorem receive_works {pkt : Option Radio154.NetPkt} (h : receive fw pkt = some fw') :
    Works .rx fw fw' := by
  obtain ⟨⟨radio, batcher, outbox, err⟩, hrecv, heq⟩ := Option.map_eq_some_iff.mp h
  cases heq
  unfold Radio154.netRecvData at hrecv
  split at hrecv
  · cases hrecv
    exact .same rfl rfl rfl rfl
  · split at hrecv
    · cases hrecv
      exact .same rfl rfl rfl rfl
    · split at hrecv
      · cases hrecv
        exact .same rfl rfl rfl rfl
      · obtain ⟨⟨b, o⟩, hadd, heq⟩ := Option.map_eq_some_iff.mp hrecv
        cases heq
        exact .locked (m := .lock) (f := fun next => flushIf (flushIf next)) (.inl rfl)
          (by simp [calls, snBatchAdd]) (batch_add_hands hadd) rfl rfl rfl

theorem flushBatch_works (h : flushBatch fw = some fw') : Works .reader fw fw' := by
  obtain ⟨⟨batcher, outbox⟩, hflush, heq⟩ := Option.map_eq_some_iff.mp h
  cases heq
  exact .locked (m := .lock) (f := flushLocked) (.inl rfl) (by simp [calls, snBatchFlush])
    (batch_flush_hands hflush) rfl rfl rfl

theorem batchLinger_works (h : batchLinger fw = some fw') : Works .workQueue fw fw' := by
  obtain ⟨⟨batcher, outbox⟩, hflush, heq⟩ := Option.map_eq_some_iff.mp h
  cases heq
  exact .locked (m := .lock) (f := flushLocked) (.inl rfl) (by simp [calls, lingerExpired])
    (batch_flush_hands hflush) rfl rfl rfl

theorem bleLinger_works (h : bleLinger fw = some fw') : Works .workQueue fw fw' := by
  obtain ⟨⟨ble, outbox⟩, hflush, heq⟩ := Option.map_eq_some_iff.mp h
  cases heq
  exact .locked (m := .block) (f := bleFlushLocked) (.inr rfl) (by simp [calls, bleLingerExpired])
    (ble_flush_hands hflush) rfl rfl rfl

/-! ## The forwarding thread -/

/-- The semaphore is given, or left as it was. -/
theorem noteAnswer_cmdDone {slot slot' : Ble.CmdSlot} {h4 : UInt8} {data : List UInt8}
    (h : Ble.noteAnswer slot h4 data = some slot') :
    slot'.cmdDone = slot.cmdDone ∨ slot'.cmdDone = true := by
  unfold Ble.noteAnswer at h
  split at h
  · obtain ⟨result, -, heq⟩ := Option.map_eq_some_iff.mp h
    cases result with
    | none =>
        cases heq
        exact .inl rfl
    | some found =>
        obtain ⟨opcode, status⟩ := found
        cases heq
        by_cases hother : opcode = 0 ∨ opcode ≠ slot.pendingOpcode
        · exact .inl (by simp [Ble.CmdSlot.credit, hother])
        · exact .inr (by simp [Ble.CmdSlot.credit, hother])
  · cases h
    exact .inl rfl

/-- Up to the capture: whether an answer is noted. -/
theorem note_goes {rest : Way} (done done' : Bool) (h : done' = done ∨ done' = true)
    (hrest : Code.Goes (.branch .ret appendLocked) rest) :
    ∃ noted : Way, Code.Goes fwdLoop (.got .hciRx :: (noted ++ rest)) ∧
      (∀ rest, linkAnswers (noted ++ rest) = linkAnswers rest) ∧
      (∀ rest, scanAnswers (noted ++ rest) = scanAnswers rest) ∧
      noted.foldl cmdDoneAfter done = done' := by
  rcases h with rfl | rfl
  · exact ⟨[.chose true], hrest, fun _ => rfl, fun _ => rfl, rfl⟩
  · exact ⟨[.chose false, .chose false, .did .giveCmdDone], hrest, fun _ => rfl, fun _ => rfl, rfl⟩

/-- `forward`, or nothing, at the end of a round. -/
theorem capture_says (fw : Firmware) {h4 : UInt8} {data : List UInt8} {now : Ble.Readings}
    (h : (if fw.ble.running && Ble.captures h4 data then Ble.forwardPacket fw h4 data now
      else some fw) = some fw') :
    ∃ way answers, Says (.branch .ret appendLocked) way answers ∧
      (∃ new, fw'.outbox.log = fw.outbox.log ++ new ∧ new.map (fun x => x.2.ok) = answers) ∧
      fw'.hci = fw.hci ∧ fw'.radio.driver = fw.radio.driver ∧ fw'.slot = fw.slot := by
  split at h
  · obtain ⟨⟨ble, outbox⟩, hforward, heq⟩ := Option.map_eq_some_iff.mp h
    cases heq
    obtain ⟨s, _, happend⟩ := Option.bind_eq_some_iff.mp hforward
    obtain ⟨way, answers, new, hpasses, hlog, hnew⟩ := ble_append_hands happend
    have hsays := hpasses.locked (m := .block) (.inr rfl)
    exact ⟨_, _, hsays.branch, ⟨new, hlog, hnew⟩, rfl, rfl, rfl⟩
  · cases h
    exact ⟨[.chose true], [], ⟨rfl, rfl, rfl, fun _ => rfl, by decide⟩, ⟨[], by simp, rfl⟩, rfl,
      rfl, rfl⟩

theorem fwdLoop_works {h4 : UInt8} {data : List UInt8} {now : Ble.Readings}
    (h : Ble.fwdLoop fw h4 data now = some fw') : Works .forwarder fw fw' := by
  obtain ⟨slot, hnote, h⟩ := Option.bind_eq_some_iff.mp h
  obtain ⟨way, answers, hsays, ⟨new, hlog, hnew⟩, hhci, hdriver, hslot⟩ :=
    capture_says { fw with slot } h
  obtain ⟨noted, hgoes, hlink, hscans, hdone⟩ :=
    note_goes fw.slot.cmdDone slot.cmdDone (noteAnswer_cmdDone hnote) hsays.goes
  refine .one (by simp [calls]) hgoes ⟨⟨new, hlog, ?_⟩, ⟨[], by simp [hhci], ?_⟩,
    ⟨[], by simp [hdriver], ?_⟩, ?_⟩
  · simp [linkAnswers, hlink, hsays.link, hnew]
  · rfl
  · simp [scanAnswers, hscans, hsays.scans]
  · simp [hslot, cmdDoneAfter, hdone, hsays.cmdDone]

/-! ## Commands to the controller -/

theorem hciCommand_works (hcall : hciCommand ∈ calls t) (fw : Firmware) (opcode : UInt16)
    (params : List UInt8) : Works t fw (Ble.hciCommand fw opcode params).1 := by
  have hhci := Ble.hciCommand_hci fw opcode params
  have hone : ∀ a, fw.hci.next = a → (Ble.hciCommand fw opcode params).1.hci.log
      = fw.hci.log ++ [(⟨opcode, params⟩, a)] := by
    rintro a rfl
    rw [hhci]
    rfl
  cases hnext : fw.hci.next with
  | noBuffer =>
      have hgoes : hciCommand.Goes (commandWay .noBuffer) := rfl
      refine .one hcall hgoes ⟨⟨[], ?_, rfl⟩, ⟨_, hone _ hnext, rfl⟩, ⟨[], ?_, rfl⟩, ?_⟩
      all_goals simp [Ble.hciCommand, hnext, commandWay, cmdDoneAfter]
  | sendError code =>
      have hgoes : hciCommand.Goes (commandWay (.sendError code)) := rfl
      refine .one hcall hgoes ⟨⟨[], ?_, rfl⟩, ⟨_, hone _ hnext, rfl⟩, ⟨[], ?_, rfl⟩, ?_⟩
      all_goals simp [Ble.hciCommand, hnext, commandWay, cmdDoneAfter, Ble.CmdSlot.released,
        Ble.CmdSlot.arm]
  | timedOut =>
      have hgoes : hciCommand.Goes (commandWay .timedOut) := rfl
      refine .one hcall hgoes ⟨⟨[], ?_, rfl⟩, ⟨_, hone _ hnext, rfl⟩, ⟨[], ?_, rfl⟩, ?_⟩
      all_goals simp [Ble.hciCommand, hnext, commandWay, cmdDoneAfter, Ble.CmdSlot.released,
        Ble.CmdSlot.arm, Ble.countTimeout, Firmware.logLine]
  | answered status =>
      have hgoes : hciCommand.Goes (commandWay (.answered status)) := rfl
      refine .one hcall hgoes ⟨⟨[], ?_, rfl⟩, ⟨_, hone _ hnext, rfl⟩, ⟨[], ?_, rfl⟩, ?_⟩
      all_goals simp [Ble.hciCommand, hnext, commandWay, cmdDoneAfter, Ble.CmdSlot.released,
        Ble.CmdSlot.taken]

theorem sendCommand_works (hcall : hciCommand ∈ calls t) (fw : Firmware) (opcode : UInt16)
    (params : List UInt8) : Works t fw (Ble.sendCommand fw opcode params).1 := by
  have h := hciCommand_works hcall fw opcode params
  unfold Ble.sendCommand
  dsimp only
  split
  · exact h.trans (.same rfl rfl rfl rfl)
  · exact h

/-- One more command. -/
theorem Works.command (h : Works .reader fw fw') (opcode : UInt16) (params : List UInt8) :
    Works .reader fw (Ble.sendCommand fw' opcode params).1 :=
  h.trans (sendCommand_works (by simp [calls]) fw' opcode params)

theorem Works.commands (h : Works .reader fw fw') (cs : List Ble.HciCommand) :
    Works .reader fw (Ble.sendAll fw' cs).1 := by
  induction cs generalizing fw' with
  | nil => exact h
  | cons c cs ih => exact Ble.andThen_keeps (h.command c.opcode c.params) fun fw₁ h₁ => ih h₁

theorem Works.applyFilter (h : Works .reader fw fw') :
    Works .reader fw (Ble.applyFilter fw').1 := by
  have hkeys : Works .reader fw (Ble.applyKeys fw').1 := by
    refine Ble.andThen_keeps (h.command _ _) fun fw₁ h₁ => ?_
    refine Ble.andThen_keeps (h₁.command _ _) fun fw₂ h₂ => ?_
    refine Ble.andThen_keeps (h₂.commands _) fun fw₃ h₃ => ?_
    split
    · exact h₃.command _ _
    · exact h₃
  refine Ble.andThen_keeps hkeys fun fw₁ h₁ => ?_
  exact Ble.andThen_keeps (h₁.command _ _) fun fw₂ h₂ => h₂.commands _

theorem scanSetup_works (fw : Firmware) : Works .reader fw (Ble.scanSetup fw).1 := by
  refine Ble.andThen_keeps ((Works.refl .reader fw).command _ _) fun fw₁ h₁ => ?_
  refine Ble.andThen_keeps (h₁.command _ _) fun fw₂ h₂ => ?_
  refine Ble.andThen_keeps (h₂.command _ _) fun fw₃ h₃ => ?_
  exact Ble.andThen_keeps (h₃.command _ _) fun fw₄ h₄ => h₄.applyFilter

theorem snRadioBleStart_works (fw : Firmware) (intervalMs windowMs : UInt16) (phys : UInt8) :
    Works .reader fw (Ble.snRadioBleStart fw intervalMs windowMs phys).1 := by
  unfold Ble.snRadioBleStart
  split
  · exact .refl _ _
  · refine Ble.andThen_keeps (scanSetup_works fw) fun fw₁ h₁ => ?_
    refine Ble.andThen_keeps ?_ fun fw₂ h₂ => h₂.trans (.same rfl rfl rfl rfl)
    split
    · exact Ble.andThen_keeps (h₁.command _ _) fun fw₂ h₂ => h₂.command _ _
    · exact Ble.andThen_keeps (h₁.command _ _) fun fw₂ h₂ => h₂.command _ _

theorem startBle_works (fw : Firmware) : Works .reader fw (startBle fw).1 := by
  have h := snRadioBleStart_works fw fw.bleIntervalMs fw.bleWindowMs fw.blePhys
  unfold startBle
  dsimp only
  split
  · exact h.trans (.same rfl rfl rfl rfl)
  · exact h

/-! ## The work items -/

theorem syncOne_works (fw : Firmware) (req : Ble.SyncReq) :
    Works .workQueue fw (Ble.syncOne fw req) := by
  have hasked := hciCommand_works (t := .workQueue) (by simp [calls]) fw Ble.opLePerAdvCreateSync
    (Ble.perAdvCreateSyncParams req)
  unfold Ble.syncOne
  split
  · dsimp only
    split
    · exact hasked.trans (.same rfl rfl rfl rfl)
    · exact hasked
  · exact .refl _ _

theorem bigWorkFn_works (fw : Firmware) (uptime : Int) :
    Works .workQueue fw (Ble.bigWorkFn fw uptime) := by
  have hbegun : Works .workQueue fw { fw with ble := Ble.beginBigWork fw.ble } :=
    .same rfl rfl rfl rfl
  unfold Ble.bigWorkFn
  split
  · exact (hbegun.trans (hciCommand_works (by simp [calls]) _ _ _)).trans (.same rfl rfl rfl rfl)
  · exact .same rfl rfl rfl rfl

theorem isoPathOne_works (fw : Firmware) (handle : UInt16) :
    Works .workQueue fw (Ble.isoPathOne fw handle) := by
  unfold Ble.isoPathOne
  split
  · exact sendCommand_works (by simp [calls]) fw _ _
  · exact .refl _ _

/-! ## The 802.15.4 radio -/

/-- The driver was called, and these scans were asked for. -/
def Scans (answers : List Bool) (r r' : Radio154.Radio) : Prop :=
  ∃ new, r'.driver.log = r.driver.log ++ new ∧ new.filterMap scanAnswer = answers

theorem Scans.trans {answers answers' : List Bool} {r r' r'' : Radio154.Radio}
    (h : Scans answers r r') (h' : Scans answers' r' r'') : Scans (answers ++ answers') r r'' := by
  obtain ⟨new, hlog, hnew⟩ := h
  obtain ⟨new', hlog', hnew'⟩ := h'
  exact ⟨new ++ new', by rw [hlog', hlog, List.append_assoc],
    by rw [List.filterMap_append, hnew, hnew']⟩

theorem call_scans (r : Radio154.Radio) (c : Radio154.Call) :
    Scans ([(c, (r.call c).2)].filterMap scanAnswer) r (r.call c).1 :=
  ⟨_, rfl, rfl⟩

theorem setChannel_scans (r : Radio154.Radio) (channel : UInt8) :
    Scans [] r (Radio154.snRadio154SetChannel r channel).1 := by
  unfold Radio154.snRadio154SetChannel
  split
  · exact ⟨[], by simp, rfl⟩
  · dsimp only
    split
    · exact call_scans r (.setChannel channel)
    · exact call_scans r (.setChannel channel)

theorem start_scans (r : Radio154.Radio) : Scans [] r (Radio154.snRadio154Start r).1 := by
  unfold Radio154.snRadio154Start
  dsimp only
  split
  · exact call_scans r .start
  · exact call_scans r .start

theorem stop_scans (r : Radio154.Radio) : Scans [] r (Radio154.snRadio154Stop r).1 := by
  unfold Radio154.snRadio154Stop
  split
  · exact ⟨[], by simp, rfl⟩
  · dsimp only
    split
    · exact call_scans r .stop
    · exact call_scans r .stop

/-- The radio is called, and no scan asked for. -/
theorem Works.radio {radio : Radio154.Radio} (h : Scans [] fw.radio radio) :
    Works t fw { fw with radio } :=
  ⟨[], by simp, ⟨[], by simp, rfl⟩, ⟨[], by simp, rfl⟩, h, rfl⟩

/-- How `sn_radio154_energy_detect` goes, up to the wait. -/
theorem edStart_scans (r : Radio154.Radio) (channel : UInt8) (ms : UInt32) :
    (Scans [] r (Radio154.edStart r channel ms).1 ∧ (Radio154.edStart r channel ms).2 ≠ 0) ∨
      Scans [(Radio154.edStart r channel ms).2 == 0] r (Radio154.edStart r channel ms).1 := by
  have hset := call_scans r (.setChannel channel)
  have hstart := hset.trans (call_scans (r.call (.setChannel channel)).1 .start)
  unfold Radio154.edStart
  dsimp only
  split
  · rename_i herr
    exact .inl ⟨hset, herr⟩
  · split
    · rename_i herr
      exact .inl ⟨hstart, herr⟩
    · exact .inr (hstart.trans (call_scans _ (.edScan ms.toUInt16)))

theorem edRestore_scans (r : Radio154.Radio) (channel : UInt8) (wasRunning : Bool) :
    Scans [] r (Radio154.edRestore r channel wasRunning) := by
  have hset := call_scans r (.setChannel channel)
  unfold Radio154.edRestore
  cases wasRunning with
  | false => exact hset.trans (call_scans _ .stop)
  | true => exact hset.trans (call_scans _ .start)

theorem energyDetect_goes (r : Radio154.Radio) (channel : UInt8) (symbols : UInt32) :
    ∃ way, snRadio154EnergyDetect.Goes way ∧ linkAnswers way = [] ∧ isCommand way = false ∧
      (∀ done, way.foldl cmdDoneAfter done = done) ∧
      Scans (scanAnswers way) r (Radio154.snRadio154EnergyDetect r channel symbols).1 := by
  unfold Radio154.snRadio154EnergyDetect
  split
  · exact ⟨[.chose true], rfl, rfl, rfl, fun _ => rfl, [], by simp, rfl⟩
  · have hrestore := edRestore_scans (Radio154.edStart { r with measuring := true } channel
      (Radio154.edWindowMs symbols)).1 r.currentChannel r.running
    rcases edStart_scans { r with measuring := true } channel (Radio154.edWindowMs symbols) with
      ⟨hstart, -⟩ | hstart
    · exact ⟨[.chose true], rfl, rfl, rfl, fun _ => rfl, hstart.trans hrestore⟩
    · have hscans := hstart.trans hrestore
      rw [List.append_nil] at hscans
      cases herr : (Radio154.edStart { r with measuring := true } channel
          (Radio154.edWindowMs symbols)).2 == 0 with
      | false =>
          rw [herr] at hscans
          exact ⟨[.chose false, .did .resetEdDone, .chose true], rfl, rfl, rfl, fun _ => rfl, hscans⟩
      | true =>
          rw [herr] at hscans
          -- whether the wait ends in time is not in the driver's log
          exact ⟨[.chose false, .did .resetEdDone, .chose false, .got .edDone], rfl, rfl, rfl,
            fun _ => rfl, hscans⟩

theorem energyDetect_works (fw : Firmware) (channel : UInt8) (symbols : UInt32) :
    Works .reader fw
      { fw with radio := (Radio154.snRadio154EnergyDetect fw.radio channel symbols).1 } := by
  obtain ⟨way, hgoes, hlink, hcommand, hdone, hscans⟩ := energyDetect_goes fw.radio channel symbols
  refine .one (by simp [calls]) hgoes ⟨⟨[], by simp, ?_⟩, ⟨[], by simp, ?_⟩, ?_, ?_⟩
  · simp [hlink]
  · simp [hcommand]
  · simpa [Scans] using hscans
  · simp [hdone]

/-! ## The commands of the host -/

variable {p : Platform}

theorem reply_works (p : Platform) (fw : Firmware) (command : UInt8) (status : Status)
    (value : UInt32) : Works .reader fw (reply p fw command status value) :=
  .send (by simp [calls]) _ rfl rfl rfl rfl

theorem logLine_works (fw : Firmware) (line : LogLine) : Works t fw (fw.logLine line) :=
  .same rfl rfl rfl rfl

theorem stop154_works {err : Int} (h : stop154 fw = some (fw', err)) : Works .reader fw fw' := by
  obtain ⟨fw₁, hflush, heq⟩ := Option.map_eq_some_iff.mp h
  cases heq
  exact (Works.radio (stop_scans fw.radio)).trans (flushBatch_works hflush)

theorem stopBle_works {err : Int} (h : stopBle fw = some (fw', err)) : Works .reader fw fw' := by
  unfold stopBle at h
  split at h
  · obtain ⟨r, hflush, heq⟩ := Option.map_eq_some_iff.mp h
    have hflushed : Works .reader fw (Ble.flushedStop fw r) :=
      .locked (m := .block) (f := bleFlushLocked) (.inr rfl) (by simp [calls, stopFlush])
        (ble_flush_hands hflush) rfl rfl rfl
    have hsent := hflushed.command Ble.opReset []
    rw [heq] at hsent
    exact hsent
  · cases h
    exact .refl _ _

theorem stopRadio_works {radio : UInt8} {err : Int} (h : stopRadio fw radio = some (fw', err)) :
    Works .reader fw fw' := by
  unfold stopRadio at h
  split at h
  · exact stopBle_works h
  · exact stop154_works h

theorem stopBoth_works (h : stopBoth fw = some fw') : Works .reader fw fw' := by
  obtain ⟨⟨fw₁, err₁⟩, hfirst, hrest⟩ := Option.bind_eq_some_iff.mp h
  obtain ⟨⟨fw₂, err₂⟩, hsecond, heq⟩ := Option.map_eq_some_iff.mp hrest
  cases heq
  exact (stopRadio_works hfirst).trans (stopRadio_works hsecond)

theorem setAntenna_works (fw : Firmware) (value : UInt32) :
    Works .reader fw (setAntenna fw value).1 := by
  unfold setAntenna switchAntenna
  split
  · exact .refl _ _
  · split
    · exact .refl _ _
    · split
      · exact .refl _ _
      · exact .same rfl rfl rfl rfl

theorem tuneAndStart_works (fw : Firmware) (value : UInt32) :
    Works .reader fw (tuneAndStart fw value).1 := by
  have htuned : Works .reader fw
      { fw with radio := (Radio154.snRadio154SetChannel fw.radio value.toUInt8).1 } :=
    .radio (setChannel_scans fw.radio value.toUInt8)
  have hstarted := htuned.trans (.radio (start_scans _))
  unfold tuneAndStart
  dsimp only
  split
  · exact htuned
  · split
    · exact hstarted.trans (logLine_works _ _)
    · exact hstarted.trans (logLine_works _ _)

theorem onSetRadio_works {command : UInt8} {value : UInt32}
    (h : onSetRadio p fw command value = some fw') : Works .reader fw fw' := by
  unfold onSetRadio at h
  split at h
  · cases h
    exact reply_works p _ _ _ _
  · obtain ⟨fw₁, hstopped, heq⟩ := Option.map_eq_some_iff.mp h
    cases heq
    have hleft : Works .reader fw fw₁ := by
      split at hstopped
      · obtain ⟨⟨fw₂, err⟩, hstop, heq⟩ := Option.map_eq_some_iff.mp hstopped
        cases heq
        exact stopRadio_works hstop
      · cases hstopped
        exact .refl _ _
    have hselected : Works .reader fw₁ { fw₁ with selectedRadio := value.toUInt8 } :=
      .same rfl rfl rfl rfl
    exact (hleft.trans hselected).trans (reply_works p _ _ _ _)

theorem onSetChannel_works {command : UInt8} {value : UInt32}
    (h : onSetChannel p fw command value = some fw') : Works .reader fw fw' := by
  unfold onSetChannel at h
  split at h
  · cases h
    exact reply_works p _ _ _ _
  · obtain ⟨fw₁, hflush, heq⟩ := Option.map_eq_some_iff.mp h
    cases heq
    exact ((flushBatch_works hflush).trans (tuneAndStart_works fw₁ value)).trans
      (reply_works p _ _ _ _)

theorem onStart_works (fw : Firmware) (command : UInt8) :
    Works .reader fw (onStart p fw command) := by
  unfold onStart
  split
  · exact (startBle_works fw).trans (reply_works p _ _ _ _)
  · exact (Works.radio (start_scans fw.radio)).trans (reply_works p _ _ _ _)

theorem onGetInfo_works {command : UInt8} (h : onGetInfo p fw command = some fw') :
    Works .reader fw fw' := by
  obtain ⟨fw₁, hboth, heq⟩ := Option.map_eq_some_iff.mp h
  cases heq
  have hcleared : Works .reader fw₁
      (defaultSettings (resetCounters { fw₁ with selectedRadio := radio154 })) :=
    .same rfl rfl rfl rfl
  exact (((stopBoth_works hboth).trans hcleared).trans (setAntenna_works _ 0)).trans
    (reply_works p _ _ _ _)

theorem onEnergyDetect_works (fw : Firmware) (command : UInt8) (value : UInt32) :
    Works .reader fw (onEnergyDetect p fw command value) := by
  unfold onEnergyDetect
  split
  · exact reply_works p _ _ _ _
  · have hmeasured := energyDetect_works fw (value &&& 0xFF).toUInt8 (value >>> 8)
    dsimp only
    split
    · exact hmeasured.trans (reply_works p _ _ _ _)
    · split
      · exact (hmeasured.trans (logLine_works _ _)).trans (reply_works p _ _ _ _)
      · exact hmeasured.trans (reply_works p _ _ _ _)

theorem onCommand_works {command : UInt8} {value : UInt32}
    (h : onCommand p fw command value = some fw') : Works .reader fw fw' := by
  have hset : ∀ fw₁ : Firmware, ∀ status, Works .reader fw fw₁ →
      Works .reader fw (reply p fw₁ command status value) :=
    fun fw₁ status h => h.trans (reply_works p fw₁ command status value)
  unfold onCommand at h
  cases hcommand : p.command command with
  | setRadio => simp only [hcommand] at h; exact onSetRadio_works h
  | setBlePhys =>
      simp only [hcommand, onSetBlePhys, Option.some.injEq] at h
      subst h
      split
      · exact hset _ _ (.refl _ _)
      · exact hset _ _ (.same rfl rfl rfl rfl)
  | setBlePeriodic =>
      simp only [hcommand] at h
      cases h
      exact hset _ _ (.same rfl rfl rfl rfl)
  | setBleScan =>
      simp only [hcommand] at h
      cases h
      exact hset _ _ (.same rfl rfl rfl rfl)
  | setChannel => simp only [hcommand] at h; exact onSetChannel_works h
  | start => simp only [hcommand] at h; cases h; exact onStart_works fw command
  | stop =>
      simp only [hcommand] at h
      obtain ⟨⟨fw₁, err⟩, hstop, heq⟩ := Option.map_eq_some_iff.mp h
      cases heq
      exact (stopRadio_works hstop).trans (reply_works p _ _ _ _)
  | getInfo => simp only [hcommand] at h; exact onGetInfo_works h
  | setAntenna =>
      simp only [hcommand] at h
      cases h
      exact hset _ _ (setAntenna_works fw value)
  | energyDetect =>
      simp only [hcommand] at h
      cases h
      exact onEnergyDetect_works fw command value
  | unknown =>
      simp only [hcommand] at h
      cases h
      exact reply_works p _ _ _ _

/-! ## Every input -/

/-- The thread that takes an input. -/
def threadOf : Input → Thread
  | .hostFrame _ _ => .reader
  | .received _ | .radioEvent _ => .rx
  | .hciPacket _ _ _ => .forwarder
  | .batchLinger | .bleLinger | .syncWork | .bigWork _ | .isoPathWork => .workQueue
  | .statsRead | .linkRead _ | .tickSend => .workQueue
  | .log => .logging

theorem sendLog_works (pieces : List (List UInt8)) (fw : Firmware) :
    Works .logging fw { fw with outbox := sendLog fw.outbox pieces } := by
  induction pieces generalizing fw with
  | nil => exact .refl _ _
  | cons piece pieces ih =>
      have hsent : Works .logging fw { fw with outbox := (fw.outbox.send ⟨.log, piece⟩).1 } :=
        .send (by simp [calls]) _ rfl rfl rfl rfl
      exact hsent.trans (ih { fw with outbox := (fw.outbox.send ⟨.log, piece⟩).1 })

/-- **What a step is made of**: calls of one thread. -/
theorem step_works {i : Input} (h : step p fw i = some fw') : Works (threadOf i) fw fw' := by
  cases i with
  | hostFrame type payload =>
      cases snControlHandle_handled h with
      | filter payload => exact .same rfl rfl rfl rfl
      | keys hset =>
          obtain ⟨line, rfl⟩ | ⟨keys, keyCount, _, rfl⟩ := snRadioBleSetKeys_cases hset
          · exact .same rfl rfl rfl rfl
          · exact .same rfl rfl rfl rfl
      | ignored _ _ _ => exact .refl _ _
      | command hcommand => exact onCommand_works hcommand
  | received pkt => exact receive_works h
  | radioEvent event =>
      cases h
      have hdriver : (Radio154.radioEvent fw.radio event).driver = fw.radio.driver := by
        unfold Radio154.radioEvent
        repeat' split
        all_goals rfl
      exact .same rfl rfl hdriver rfl
  | hciPacket h4 data now =>
      obtain ⟨_, h⟩ := Option.ite_none_right_eq_some.mp h
      exact fwdLoop_works h
  | batchLinger => exact batchLinger_works h
  | bleLinger => exact bleLinger_works h
  | syncWork =>
      obtain ⟨_, _, rfl⟩ | ⟨req, syncQ, _, rfl⟩ := Ble.syncWorkFn_cases h
      · exact .same rfl rfl rfl rfl
      · have htaken : Works .workQueue fw { fw with ble := Ble.leaveQueued fw.ble syncQ } :=
          .same rfl rfl rfl rfl
        exact htaken.trans (syncOne_works _ req)
  | bigWork uptime =>
      obtain ⟨_, h⟩ := Option.ite_none_right_eq_some.mp h
      cases h
      exact bigWorkFn_works fw uptime
  | isoPathWork =>
      obtain ⟨_, _, rfl⟩ | ⟨handle, i, _, _, rfl⟩ := Ble.isoPathWorkFn_cases h
      · exact .same rfl rfl rfl rfl
      · have hnext : Works .workQueue fw
            { fw with ble := Ble.setLoop fw.ble (Ble.afterPath fw.ble i) } := .same rfl rfl rfl rfl
        exact hnext.trans (isoPathOne_works _ handle)
  | statsRead =>
      obtain ⟨_, rfl⟩ := statsRead_eq h
      exact .same rfl rfl rfl rfl
  | linkRead queued =>
      obtain ⟨_, rfl⟩ := linkRead_eq h
      exact .same rfl rfl rfl rfl
  | tickSend =>
      obtain ⟨f, _, rfl⟩ := tickSend_eq h
      exact .send (by simp [threadOf, calls]) _ rfl rfl rfl rfl
  | log =>
      have h : processLog p fw = some fw' := h
      unfold processLog at h
      split at h
      · cases h
      · rename_i line logs _
        cases h
        have htaken : Works .logging fw { fw with logs } := .same rfl rfl rfl rfl
        exact htaken.trans (sendLog_works (p.format line) { fw with logs })

/-- The rows of a run. -/
theorem run_works {inputs : List Input} (hrun : (machine p).run fw inputs = some fw') :
    ∃ parts : List (List Round),
      List.Forall₂ (fun i part => ∀ r ∈ part, r.thread = threadOf i ∧ r.Made) inputs parts ∧
      Heard fw fw' (parts.flatten.map Round.way) := by
  induction inputs generalizing fw with
  | nil =>
      cases hrun
      exact ⟨[], .nil, ⟨[], by simp, rfl⟩, ⟨[], by simp, rfl⟩, ⟨[], by simp, rfl⟩, rfl⟩
  | cons i inputs ih =>
      obtain ⟨fw₁, hstep, hmore⟩ := (machine p).run_cons_eq_some.mp hrun
      obtain ⟨part, hpart, hheard⟩ := step_works hstep
      obtain ⟨parts, hparts, hheard'⟩ := ih hmore
      refine ⟨part :: parts, .cons hpart hparts, ?_⟩
      rw [List.flatten_cons, List.map_append]
      exact hheard.append hheard'

theorem parts_made {inputs : List Input} {parts : List (List Round)}
    (h : List.Forall₂ (fun i part => ∀ r ∈ part, r.thread = threadOf i ∧ r.Made) inputs parts) :
    ∀ r ∈ parts.flatten, r.Made := by
  induction h with
  | nil => simp
  | cons hpart _ ih =>
      intro r hr
      rcases List.mem_append.mp hr with hr | hr
      · exact (hpart r hr).2
      · exact ih r hr

/-- **A run of the board is a run of the threads.** Each input is a row of calls
of its thread, one after another from boot on. What the ways through them say is
what the link, the controller and the driver answered, and the threads go these
ways from rest to rest, with `cmd_done` as the board has it. -/
theorem board_runs_threads {w : World} {inputs : List Input}
    (hrun : (machine p).run (boot w) inputs = some fw) :
    ∃ parts : List (List Round),
      List.Forall₂ (fun i part => ∀ r ∈ part, r.thread = threadOf i ∧ r.Made) inputs parts ∧
      Heard (boot w) fw (parts.flatten.map Round.way) ∧
      ∃ signals, threads.machine.run initial (parts.flatten.flatMap Round.labels)
        = some (atRest signals) ∧ signals.cmdDone = fw.slot.cmdDone := by
  obtain ⟨parts, hparts, hheard⟩ := run_works hrun
  obtain ⟨signals, hruns, hdone⟩ := rounds_run (parts_made hparts) {}
  refine ⟨parts, hparts, hheard, signals, hruns, ?_⟩
  rw [hdone, hheard.cmdDone]
  rfl

/-- The BLE radio is selected and started, with nine commands. -/
theorem ble_start_runs_threads :
    ∃ fw, (machine fullPlatform).run (boot calmWorld)
        [.hostFrame .controlCmd [4, 2, 0, 0, 0], .hostFrame .controlCmd [2, 0, 0, 0, 0]] = some fw ∧
      fw.hci.log.length = 9 ∧
      ∃ parts : List (List Round), parts.length = 2 ∧
        Heard (boot calmWorld) fw (parts.flatten.map Round.way) ∧
        ∃ signals, threads.machine.run initial (parts.flatten.flatMap Round.labels)
          = some (atRest signals) ∧ signals.cmdDone = fw.slot.cmdDone := by
  have hruns : ((machine fullPlatform).run (boot calmWorld)
      [.hostFrame .controlCmd [4, 2, 0, 0, 0], .hostFrame .controlCmd [2, 0, 0, 0, 0]]).any
        (fun fw => fw.hci.log.length == 9) = true := by
    decide +kernel
  obtain ⟨fw, hrun, hasked⟩ := (Option.any_eq_true _ _).mp hruns
  obtain ⟨parts, hparts, hheard, hthreads⟩ := board_runs_threads hrun
  exact ⟨fw, hrun, beq_iff_eq.mp hasked, parts, hparts.length_eq.symm, hheard, hthreads⟩

end Nrf54Sniffer.Board.Locks
