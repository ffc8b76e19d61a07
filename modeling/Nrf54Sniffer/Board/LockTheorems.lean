/-
Nrf54Sniffer.Board.LockTheorems — the threads never deadlock.

By `calls_keep` the mutexes are taken in one order, so what a thread waits for
is in the end a signal (`stuck_hopes`). Of the waits with a limit, those of
`hci_command` hold `cmd_lock` and nothing else, and `cmd_lock` is below all the
others. So no one but a second command waits behind a command, and least of all
the forwarding thread: a packet of the controller is always looked at, the
answer to a command among them.
-/
import Nrf54Sniffer.Board.Locks

namespace Nrf54Sniffer.Board.Locks

open Nrf54Sniffer.Lib
open Nrf54Sniffer.Lib.ThreadSystem (Orderly Stands Queues load)

/-! ## Waiting -/

/-- In `hci_command`, where it waits for a buffer or for the answer. -/
def InCommand (s : State) (t : Thread) : Prop :=
  s.owner .cmdLock = some t ∧ ∃ w next late, s.code t = .awaitFor w next late ∧
    (w = .cmdBuffer ∨ w = .cmdDone) ∧ s.signals.take w = none

/-- Before `hci_command`, where it waits for another to come back. -/
def BehindCommand (s : State) (t : Thread) : Prop :=
  ∃ next u, s.code t = .lock .cmdLock next ∧ InCommand s u

/-- In `sn_radio154_energy_detect`, where it waits for the driver. -/
def InScan (s : State) (t : Thread) : Prop :=
  t = .reader ∧ ∃ next late, s.code t = .awaitFor .edDone next late ∧ s.signals.edDone = false

/-- At `k_fifo_get`, with nothing there. -/
def Listens (s : State) (t : Thread) : Prop :=
  ∃ next, s.code t = .await .hciRx next ∧ s.signals.hciRx = 0

variable {s : State} {held : Thread → List Mutex}

theorem take_hciRx {signals : Signals} (h : signals.take .hciRx = none) : signals.hciRx = 0 := by
  simpa [Signals.take] using h

/-- What a wait with a limit is for. -/
theorem hopes_cases {t : Thread} {w : Wait} {next late : Call} (h : Orderly order s held)
    (hcode : s.code t = .awaitFor w next late) (hnone : s.signals.take w = none) :
    (InCommand s t ∧ t ≠ .forwarder ∧ held t = [.cmdLock]) ∨ (InScan s t ∧ held t = []) := by
  have hobeys := h.obeys t
  rw [hcode] at hobeys
  simp only [Code.obeys, Bool.and_eq_true] at hobeys
  have hmay := hobeys.1.1
  have hcommand : w = .cmdBuffer ∨ w = .cmdDone → t = .reader ∨ t = .workQueue →
      held t = [.cmdLock] → InCommand s t ∧ t ≠ .forwarder ∧ held t = [.cmdLock] := by
    intro hw ht hheld
    have howner : s.owner .cmdLock = some t := (h.owns .cmdLock t).mpr (by simp [hheld])
    refine ⟨⟨howner, w, next, late, hcode, hw, hnone⟩, ?_, hheld⟩
    rintro rfl
    simp at ht
  cases w with
  | hciRx => simp [order] at hmay
  | edDone =>
      simp [order] at hmay
      exact .inr ⟨⟨hmay.1, next, late, hcode, by simpa [Signals.take] using hnone⟩, hmay.2⟩
  | cmdBuffer =>
      simp [order] at hmay
      exact .inl (hcommand (.inl rfl) hmay.1 hmay.2)
  | cmdDone =>
      simp [order] at hmay
      exact .inl (hcommand (.inr rfl) hmay.1 hmay.2)

/-- **Only a command is waited behind.** Where no turn can be taken, the one
mutex that is held is `cmd_lock`, by a command that waits for the controller. -/
theorem held_for_command (h : Orderly order s held)
    (hstuck : ∀ t first, threads.turn s t first = none) {m : Mutex} {t : Thread}
    (howner : s.owner m = some t) : m = .cmdLock ∧ InCommand s t := by
  obtain ⟨m', u, w, next, late, howner', hle, hcode, hnone, -⟩ :=
    ThreadSystem.stuck_hopes order_rank h hstuck howner
  have hmine := (h.owns m' u).mp howner'
  rcases hopes_cases h hcode hnone with ⟨hcommand, -, hheld⟩ | ⟨-, hheld⟩
  · rw [hheld, List.mem_singleton] at hmine
    subst hmine
    cases m with
    | cmdLock =>
        rw [howner] at howner'
        cases howner'
        exact ⟨rfl, hcommand⟩
    | lock | block | encodeLock => simp [order] at hle
  · rw [hheld] at hmine
    cases hmine

/-- **Where each thread is when no turn can be taken.** -/
theorem stuck_cases (h : Orderly order s held)
    (hstuck : ∀ t first, threads.turn s t first = none) (t : Thread) :
    s.code t = .ret ∨ (t = .forwarder ∧ Listens s t) ∨
      (t ≠ .forwarder ∧ (InCommand s t ∨ BehindCommand s t ∨ InScan s t)) := by
  have hobeys := h.obeys t
  cases ThreadSystem.stuck_stands h (hstuck t) with
  | rests hcode => exact .inl hcode
  | @awaits w next hcode hnone =>
      rw [hcode] at hobeys
      simp only [Code.obeys, Bool.and_eq_true] at hobeys
      have hmay := hobeys.1.2
      simp [order] at hmay
      obtain ⟨rfl, rfl⟩ := hmay
      exact .inr (.inl ⟨rfl, next, hcode, take_hciRx hnone⟩)
  | hopes hcode hnone =>
      rcases hopes_cases h hcode hnone with ⟨hcommand, hother, -⟩ | ⟨hscan, -⟩
      · exact .inr (.inr ⟨hother, .inl hcommand⟩)
      · refine .inr (.inr ⟨?_, .inr (.inr hscan)⟩)
        rw [hscan.1]
        decide
  | queues hqueues =>
      obtain ⟨m, next, u, hcode, howner⟩ := hqueues
      obtain ⟨rfl, hcommand⟩ := held_for_command h hstuck howner
      rw [hcode] at hobeys
      simp only [Code.obeys, Bool.and_eq_true] at hobeys
      have hmay := hobeys.1.1
      refine .inr (.inr ⟨?_, .inr (.inl ⟨next, u, hcode, hcommand⟩)⟩)
      rintro rfl
      simp [order] at hmay

/-! ## How many turns there are -/

/-- A turn of a thread, or the forwarding thread back at `k_fifo_get`. -/
def works : Label → Bool
  | .turn _ _ | .call .forwarder _ => true
  | _ => false

/-- A call of one of the others. -/
def begins : Label → Bool
  | .call t _ => t != .forwarder
  | _ => false

def brings : Label → Bool
  | .happen .hciPacket => true
  | _ => false

def givesUp : Label → Bool
  | .late _ => true
  | _ => false

/-- Whether the forwarding thread is not at `k_fifo_get`. -/
def rounds : Call → Nat
  | .await _ _ => 0
  | _ => 1

/-- The rounds `fwd_loop` has still to make: one for each packet, and the one it
is in. -/
def roundsLeft (s : State) : Nat := s.signals.hciRx + rounds (s.code .forwarder)

theorem rounds_le (c : Call) : rounds c ≤ 1 := by
  cases c <;> simp [rounds]

theorem take_rounds {signals signals' : Signals} {w : Wait} (h : signals.take w = some signals') :
    signals'.hciRx ≤ signals.hciRx := by
  cases w with
  | hciRx =>
      simp only [Signals.take, Option.ite_none_left_eq_some, Option.some.injEq] at h
      rw [← h.2]
      exact Nat.sub_le _ _
  | cmdBuffer | cmdDone | edDone =>
      simp only [Signals.take, Option.ite_none_right_eq_some, Option.some.injEq] at h
      rw [← h.2]

theorem perform_rounds (signals : Signals) (a : Act) :
    (signals.perform a).hciRx = signals.hciRx := by
  cases a <;> rfl

/-- A thread that is not at `k_fifo_get` goes on. -/
theorem roundsLeft_goto {t : Thread} {c : Call} {signals : Signals}
    (hin : rounds (s.code t) = 1) (hle : signals.hciRx ≤ s.signals.hciRx) :
    roundsLeft { s.goto t c with signals } ≤ roundsLeft s := by
  have hrounds := rounds_le c
  by_cases ht : t = .forwarder
  · subst ht
    simp only [roundsLeft, ThreadSystem.goto_self]
    omega
  · have hcode := ThreadSystem.goto_other s c (Ne.symm ht)
    simp only [roundsLeft, hcode]
    omega

theorem turn_roundsLeft (h : Orderly order s held) {s' : State} {t : Thread}
    (hturn : threads.Turns s t s') : roundsLeft s' ≤ roundsLeft s := by
  cases hturn with
  | lock hcode _ => exact roundsLeft_goto (by rw [hcode]; rfl) (Nat.le_refl _)
  | unlock hcode _ => exact roundsLeft_goto (by rw [hcode]; rfl) (Nat.le_refl _)
  | act hcode => exact roundsLeft_goto (by rw [hcode]; rfl) (Nat.le_of_eq (perform_rounds _ _))
  | @await w next signals hcode htake =>
      -- the forwarding thread, and a round for a packet
      have hobeys := h.obeys t
      rw [hcode] at hobeys
      simp only [Code.obeys, Bool.and_eq_true] at hobeys
      have hmay := hobeys.1.2
      simp [order] at hmay
      obtain ⟨rfl, rfl⟩ := hmay
      obtain ⟨hsome, heq⟩ := Option.ite_none_left_eq_some.mp htake
      cases heq
      have hrounds := rounds_le next
      have hlistens : rounds (.await .hciRx next) = 0 := rfl
      simp only [roundsLeft, ThreadSystem.goto_self, hcode, hlistens]
      omega
  | awaitFor hcode htake => exact roundsLeft_goto (by rw [hcode]; rfl) (take_rounds htake)
  | this hcode => exact roundsLeft_goto (by rw [hcode]; rfl) (Nat.le_refl _)
  | that hcode => exact roundsLeft_goto (by rw [hcode]; rfl) (Nat.le_refl _)

/-- What is left of the calls, and a call for each round. -/
def potential (s : State) : Nat := load s + (callTurns + 1) * roundsLeft s

/-- What a label brings in. -/
def cost (l : Label) : Nat :=
  (if begins l then callTurns else 0) + (if brings l then callTurns + 1 else 0)

theorem call_depth {t : Thread} {c : Call} (h : c ∈ threads.calls t) : c.depth ≤ callTurns :=
  calls_depth t c h

/-- **One step** uses the potential up, but for a call and a packet. -/
theorem potential_step (h : Orderly order s held) {s' : State} {l : Label}
    (hstep : threads.step s l = some s') :
    potential s' + (if works l then 1 else 0) ≤ potential s + cost l := by
  rcases ThreadSystem.step_cases hstep with ⟨t, first, rfl, hturn⟩ | hother
  · have hload := ThreadSystem.turn_load hturn
    have hrounds := Nat.mul_le_mul_left (callTurns + 1) (turn_roundsLeft h hturn)
    simp only [potential, works, if_true]
    omega
  · cases hother with
    | @call t i c hcode hcall =>
        have hload := ThreadSystem.load_goto s t c
        have hdepth := call_depth hcall
        rw [hcode, Code.depth] at hload
        by_cases ht : t = .forwarder
        · subst ht
          -- the round that begins is one of those left
          obtain rfl : c = fwdLoop := by simpa [threads, calls] using hcall
          have hrounds : roundsLeft s = roundsLeft (s.goto .forwarder fwdLoop) + 1 := by
            simp [roundsLeft, hcode, rounds, fwdLoop]
          simp only [potential, works, cost, begins, brings, hrounds, Nat.mul_add]
          simp
          omega
        · have hother := ThreadSystem.goto_other s c (Ne.symm ht)
          have hrounds : roundsLeft (s.goto t c) = roundsLeft s := by
            simp [roundsLeft, hother]
          simp only [potential, works, cost, begins, brings, hrounds]
          simp [ht]
          omega
    | @late t w next late hcode =>
        have hload := ThreadSystem.load_goto s t late
        rw [hcode, Code.depth] at hload
        have hle : roundsLeft (s.goto t late) ≤ roundsLeft s :=
          roundsLeft_goto (by rw [hcode]; rfl) (Nat.le_refl _)
        have hrounds := Nat.mul_le_mul_left (callTurns + 1) hle
        simp [potential, works, cost, begins, brings]
        omega
    | @happen b =>
        have hload : load { s with signals := threads.happen s.signals b } = load s := rfl
        cases b with
        | hciPacket =>
            have hrounds : roundsLeft { s with signals := threads.happen s.signals .hciPacket }
                = roundsLeft s + 1 := Nat.add_right_comm _ _ _
            simp only [potential, works, cost, begins, brings, hload, hrounds, Nat.mul_add]
            simp
            omega
        | bufferSent | edComplete | takeTxReady => exact Nat.le_add_right _ _

theorem potential_initial : potential initial = callTurns + 1 := by
  decide

/-- So there are only so many turns. -/
theorem turns_bounded {ls : List Label} (hrun : threads.machine.run initial ls = some s) :
    ls.countP works ≤ (callTurns + 1) * (ls.countP brings + 1) + callTurns * ls.countP begins := by
  have hstart : ∃ held, Orderly order initial held :=
    ⟨fun _ => [], ThreadSystem.orderly_initial order ({} : Signals)⟩
  have hstep : ∀ s l s', (∃ held, Orderly order s held) → threads.machine.step s l = some s' →
      potential s' + (if works l then 1 else 0) + 0 ≤ potential s + cost l + 0 := by
    rintro s l s' ⟨held, h⟩ hstep
    exact potential_step h hstep
  have hbound := threads.machine.run_potential
    (fun _ _ _ h hstep => ThreadSystem.orderly_step calls_keep h hstep) hstep hstart hrun
  have hcost : Machine.total cost ls
      = callTurns * ls.countP begins + (callTurns + 1) * ls.countP brings := by
    rw [← Machine.total_countP begins, ← Machine.total_countP brings, ← Machine.total_add]
    rfl
  rw [Machine.total_countP works 1, hcost, potential_initial] at hbound
  rw [Nat.mul_add]
  omega

/-! ## No deadlock -/

/-- Where no turn is left, the forwarding thread is at `k_fifo_get`. -/
theorem forwarder_listens (h : Orderly order s held)
    (hstuck : threads.machine.Stuck (fun l => works l) s) : Listens s .forwarder := by
  have hturns : ∀ t first, threads.turn s t first = none :=
    fun t first => hstuck (.turn t first) rfl
  rcases stuck_cases h hturns .forwarder with hcode | ⟨-, hlistens⟩ | ⟨hother, -⟩
  · have hcall := hstuck (.call .forwarder 0) rfl
    simp [ThreadSystem.machine, ThreadSystem.step, hcode, threads, calls] at hcall
  · exact hlistens
  · exact absurd rfl hother

/-- **The threads never deadlock.** However the threads take turns, whatever the
data decide, and whether what they wait for comes in time or not: there are only
so many turns for each call begun and each packet of the controller. When none
is left, the forwarding thread has looked at every packet, and each other thread
is at rest, waits for the controller or the radio, or waits behind the one
command that waits for the controller. When no wait is left to give up either,
they are all at rest, and no mutex is held. -/
theorem threads_never_deadlock {ls : List Label} (hrun : threads.machine.run initial ls = some s) :
    ls.countP works ≤ (callTurns + 1) * (ls.countP brings + 1) + callTurns * ls.countP begins ∧
    (threads.machine.Stuck (fun l => works l) s → Listens s .forwarder ∧
      ∀ t ≠ .forwarder, s.code t = .ret ∨ InCommand s t ∨ BehindCommand s t ∨ InScan s t) ∧
    (threads.machine.Stuck (fun l => works l || givesUp l) s → Listens s .forwarder ∧
      (∀ t ≠ .forwarder, s.code t = .ret) ∧ ∀ m, s.owner m = none) := by
  obtain ⟨held, h⟩ := ThreadSystem.orderly_run calls_keep hrun
  refine ⟨turns_bounded hrun, fun hstuck => ⟨forwarder_listens h hstuck, fun t ht => ?_⟩,
    fun hstuck => ?_⟩
  · rcases stuck_cases h (fun t first => hstuck (.turn t first) rfl) t with
      hcode | ⟨hforwarder, -⟩ | ⟨-, hwaits⟩
    · exact .inl hcode
    · exact absurd hforwarder ht
    · exact .inr hwaits
  · have hturns : ∀ t first, threads.turn s t first = none :=
      fun t first => hstuck (.turn t first) rfl
    -- nobody waits with a limit any more
    have hpatient : ∀ t w next late, s.code t ≠ .awaitFor w next late := by
      intro t w next late hcode
      have hlate := hstuck (.late t) rfl
      simp [ThreadSystem.machine, ThreadSystem.step, hcode] at hlate
    have hcommand : ∀ t, ¬ InCommand s t := by
      rintro t ⟨-, w, next, late, hcode, -⟩
      exact hpatient t w next late hcode
    refine ⟨forwarder_listens h fun l hl => hstuck l (by simp [hl]), fun t ht => ?_, fun m => ?_⟩
    · rcases stuck_cases h hturns t with
        hcode | ⟨hforwarder, -⟩ | ⟨-, hwaits | ⟨_, u, _, hwaits⟩ | ⟨_, _, _, hcode, _⟩⟩
      · exact hcode
      · exact absurd hforwarder ht
      · exact absurd hwaits (hcommand t)
      · exact absurd hwaits (hcommand u)
      · exact absurd hcode (hpatient t _ _ _)
    · cases howner : s.owner m with
      | none => rfl
      | some t => exact absurd (held_for_command h hturns howner).2 (hcommand t)

/-- A command is sent, and another comes behind it. -/
def twoCommands : List Label :=
  [.call .forwarder 0, .call .reader 0, .turn .reader true, .turn .reader true,
    .turn .reader true, .turn .reader false, .call .workQueue 2]

theorem two_commands_wait : ∃ s, threads.machine.run initial twoCommands = some s ∧
    Listens s .forwarder ∧
      ∀ t ≠ .forwarder, s.code t = .ret ∨ InCommand s t ∨ BehindCommand s t ∨ InScan s t := by
  refine ⟨_, rfl, (@threads_never_deadlock _ twoCommands rfl).2.1 ?_⟩
  intro l hl
  cases l with
  | call t i =>
      cases t with
      | forwarder => rfl
      | reader | rx | workQueue | logging => cases hl
  | turn t first => cases t <;> cases first <;> rfl
  | late t => cases hl
  | happen b => cases hl

end Nrf54Sniffer.Board.Locks
