/-
Nrf54Sniffer.Ble.SlotTheorems — when the periodic and the BIG slot are given
back.

Along every run whose steps are `Ordered` a slot is free whenever there is
nothing left to free it (`noLeak_of_ordered`). Not along every run: a sync that
fails right after its Create Sync was accepted can be freed before it is
counted (`failure_before_count`).

A slot that is taken is `Backed`: the controller has the sync, or the report of
its end is still to be processed. The queue of packets carries the argument. An
acceptance in it is followed by the end of what it accepted (`awaited`), and a
BIG reported as joined by its end (`joined`), as `Covered` says.
-/
import Nrf54Sniffer.Lib.Covered
import Nrf54Sniffer.Ble.ProtocolTheorems
import Nrf54Sniffer.Ble.Slots

namespace Nrf54Sniffer.Ble.Slots

open Nrf54Sniffer.Lib
open Nrf54Sniffer.Wire

/-! ## The steps and the functions -/

/-- The worker's last step is the end of a turn of `sync_work_fn`. -/
theorem tallied_train (fw : Board.Firmware) (err : Int) (uptime : Int) :
    tallied fw.ble .train (err = 0) uptime = (if err = 0 then takeSyncSlot fw else fw).ble := by
  by_cases herr : err = 0
  · simp [herr, tallied, takeSyncSlot]
  · simp [herr, tallied]

/-- And the end of `big_work_fn`. -/
theorem tallied_broadcast (r : Board.Firmware × Int × Option UInt8) (uptime : Int) :
    tallied r.1.ble .broadcast (r.2.1 = 0) uptime = (noteBigOutcome r uptime).ble := rfl

/-! ## Calls by number -/

/-- Only calls made are queued and answered, and an answer in the queue says
what the controller said. -/
structure Numbered (p : Protocol.State) : Prop where
  queued : ∀ c ∈ p.controller, c.1 ≤ p.calls
  verdicts : ∀ v ∈ p.verdicts, v.1 ≤ p.calls
  answers : ∀ e ∈ p.fifo, ∀ call ∈ e.answers, ∀ r ∈ e.result, (call, r.2) ∈ p.verdicts

/-- The call in progress is of this opcode. -/
structure Own (p : Protocol.State) (opcode : UInt16) : Prop where
  busy : p.caller ≠ .idle
  unsent : ∀ op ∈ p.caller.unsent, op = opcode
  queued : ∀ c ∈ p.controller, c.1 = p.calls → c.2 = opcode

/-- What a step inside a call can do, as far as it matters here. -/
structure Inside (p p' : Protocol.State) : Prop where
  fifo : p'.fifo = p.fifo
  verdicts : p'.verdicts = p.verdicts
  calls : p'.calls = p.calls
  controller : p'.controller = p.controller ∨
    ∃ op, p.caller = .armed op ∧ p'.controller = p.controller ++ [(p.calls, op)]
  unsent : ∀ op ∈ p'.caller.unsent, op ∈ p.caller.unsent
  failed : p'.caller ≠ .idle → failed p' = false → failed p = false

/-- A step that only moves the caller on, to where it has no opcode. -/
theorem Inside.moved {p : Protocol.State} (slot : CmdSlot) (caller : Protocol.Caller)
    (returns : List Protocol.Return)
    (hcaller : caller.unsent = none)
    (hfailed : caller = .idle ∨ Slots.failed p = false) :
    Inside p { p with slot, caller, returns } where
  fifo := rfl
  verdicts := rfl
  calls := rfl
  controller := .inl rfl
  unsent op hop := by rw [hcaller] at hop; cases hop
  failed hbusy _ := hfailed.resolve_left hbusy

/-- A step that only moves the caller on towards sending its command. -/
theorem Inside.armed {p : Protocol.State} {slot : CmdSlot} {caller : Protocol.Caller}
    (opcode : UInt16) (hnext : caller.unsent = some opcode)
    (hcaller : p.caller.unsent = some opcode) (hfailed : Slots.failed p = false) :
    Inside p { p with slot, caller } where
  fifo := rfl
  verdicts := rfl
  calls := rfl
  controller := .inl rfl
  unsent op hop := by rw [hnext] at hop; rw [hcaller]; exact hop
  failed _ _ := hfailed

theorem inside_stepCaller {p p' : Protocol.State} {l : Protocol.Label}
    (hcall : ∀ op, l ≠ .call op) (h : Protocol.stepCaller p l = some p') : Inside p p' := by
  have hbusy : ∀ caller, p.caller = caller → (∀ err, caller ≠ .returning err) →
      failed p = false := by
    intro caller hcaller hne
    unfold failed
    split
    · next err herr => exact absurd (hcaller.symm.trans herr) (hne err)
    · rfl
  unfold Protocol.stepCaller at h
  split at h
  -- `.call`
  · exact absurd rfl (hcall _)
  -- `.noBuffer`
  · cases h
    exact .moved _ _ _ rfl (.inl rfl)
  -- `.reset`
  · rename_i opcode hcaller
    cases h
    exact .armed opcode rfl (by rw [hcaller]; rfl) (hbusy _ hcaller nofun)
  -- `.ready`
  · rename_i opcode hcaller
    cases h
    exact .armed opcode rfl (by rw [hcaller]; rfl) (hbusy _ hcaller nofun)
  -- `.arm`
  · rename_i opcode hcaller
    cases h
    exact .armed opcode rfl (by rw [hcaller]; rfl) (hbusy _ hcaller nofun)
  -- `.sent`
  · rename_i opcode hcaller
    cases h
    exact ⟨rfl, rfl, rfl, .inr ⟨opcode, hcaller, rfl⟩, nofun, fun _ _ => hbusy _ hcaller nofun⟩
  -- `.notSent`
  · rename_i hcaller
    split at h
    · cases h
      exact .moved _ _ _ rfl (.inr (hbusy _ hcaller nofun))
    · cases h
  -- `.take`
  · rename_i hcaller
    split at h
    · cases h
      exact .moved _ _ _ rfl (.inr (hbusy _ hcaller nofun))
    · cases h
  -- `.timeOut`
  · rename_i hcaller
    split at h
    · cases h
    · cases h
      exact .moved _ _ _ rfl (.inr (hbusy _ hcaller nofun))
  -- `.check`
  · rename_i hcaller
    cases h
    exact .moved _ _ _ rfl (.inr (hbusy _ hcaller nofun))
  -- `.release`
  · cases h
    exact .moved _ _ _ rfl (.inl rfl)
  · cases h

theorem inside_stepFwd {p p' : Protocol.State} {l : Protocol.Label} (hlook : l ≠ .look)
    (h : Protocol.stepFwd p l = some p') : Inside p p' := by
  unfold Protocol.stepFwd at h
  split at h
  · exact absurd rfl hlook
  · cases h
    exact ⟨rfl, rfl, rfl, .inl rfl, fun _ hop => hop, fun _ hf => hf⟩
  · cases h
    exact ⟨rfl, rfl, rfl, .inl rfl, fun _ hop => hop, fun _ hf => hf⟩
  · cases h
    exact ⟨rfl, rfl, rfl, .inl rfl, fun _ hop => hop, fun _ hf => hf⟩
  · cases h

/-- A caller that does not return stays in its call. -/
theorem busy_stepCaller {p p' : Protocol.State} {l : Protocol.Label} (hbuffer : l ≠ .noBuffer)
    (hrelease : l ≠ .release) (h : Protocol.stepCaller p l = some p') : p'.caller ≠ .idle := by
  unfold Protocol.stepCaller at h
  split at h
  · cases h; exact nofun
  · exact absurd rfl hbuffer
  · cases h; exact nofun
  · cases h; exact nofun
  · cases h; exact nofun
  · cases h; exact nofun
  · split at h
    · cases h; exact nofun
    · cases h
  · split at h
    · cases h; exact nofun
    · cases h
  · split at h
    · cases h
    · cases h; exact nofun
  · cases h; exact nofun
  · exact absurd rfl hrelease
  · cases h

theorem stepFwd_caller {p p' : Protocol.State} {l : Protocol.Label}
    (h : Protocol.stepFwd p l = some p') : p'.caller = p.caller := by
  unfold Protocol.stepFwd at h
  split at h
  · cases h; rfl
  · cases h; rfl
  · cases h; rfl
  · cases h; rfl
  · cases h

theorem Numbered.inside {p p' : Protocol.State} (h : Numbered p) (hstep : Inside p p') :
    Numbered p' where
  queued c hc := by
    rw [hstep.calls]
    rcases hstep.controller with hsame | ⟨op, -, hsent⟩
    · exact h.queued c (hsame ▸ hc)
    · rw [hsent] at hc
      rcases List.mem_append.mp hc with hc | hc
      · exact h.queued c hc
      · exact Nat.le_of_eq (congrArg Prod.fst (List.mem_singleton.mp hc))
  verdicts v hv := by
    rw [hstep.calls]
    exact h.verdicts v (hstep.verdicts ▸ hv)
  answers e he call hcall r hr := by
    rw [hstep.verdicts]
    exact h.answers e (hstep.fifo ▸ he) call hcall r hr

theorem Own.inside {p p' : Protocol.State} {opcode : UInt16} (h : Own p opcode)
    (hstep : Inside p p') (hbusy : p'.caller ≠ .idle) : Own p' opcode where
  busy := hbusy
  unsent op hop := h.unsent op (hstep.unsent op hop)
  queued c hc hcur := by
    rw [hstep.calls] at hcur
    rcases hstep.controller with hsame | ⟨op, harmed, hsent⟩
    · exact h.queued c (hsame ▸ hc) hcur
    · rw [hsent] at hc
      rcases List.mem_append.mp hc with hc | hc
      · exact h.queued c hc hcur
      · rw [List.mem_singleton.mp hc]
        exact h.unsent op (by rw [harmed]; rfl)

/-! ## The invariant -/

/-- The controller has the sync, or the report of its end is still to be
processed. -/
def Backed (s : State) (k : Kind) : Prop :=
  (s.standing k ≠ .none ∨ ∃ e ∈ s.hci.fifo, Ends k e) ∨ ∃ e ∈ s.hand.evt, Ends k e

structure Inv (s : State) : Prop where
  hci : Protocol.Inv s.hci
  numbered : Numbered s.hci
  own : ∀ k, s.worker = .calling k → Own s.hci k.opcode
  one : s.ble.follow.syncCount ≤ 1
  free : s.worker = .ready .train ∨ s.worker = .calling .train ∨ s.worker = .returned .train true →
    s.ble.follow.syncCount = 0
  taken : ∀ k, taken s.ble k = true → Backed s k
  accepted : ∀ k, s.Accepted k → Backed s k
  awaited : ∀ k, s.worker = .calling k → failed s.hci = false →
    Covered (s.standing k ≠ .none) s.Accepts (Ends k) s.hci.fifo
  stale : s.stale ≤ s.hci.fifo.length
  joined : Covered (s.standing .broadcast ≠ .none) Joined (Ends .broadcast)
    (s.hci.fifo.drop s.stale)
  fresh : ∀ e ∈ s.hand.fresh, Joined e → Backed s .broadcast

theorem inv_initial : Inv initial where
  hci := Protocol.inv_initial
  numbered := ⟨by simp [initial], by simp [initial], by simp [initial]⟩
  own := by simp [initial]
  one := by simp [initial]
  free := by simp [initial]
  taken := by intro k h; cases k <;> cases h
  accepted := by simp [State.Accepted, initial]
  awaited := by simp [initial]
  stale := Nat.le_refl 0
  joined := trivial
  fresh := by simp [initial, Hand.fresh]

/-- Nothing is leaked where the invariant holds. -/
theorem Inv.noLeak {s : State} (h : Inv s) : NoLeak s := by
  intro k hquiet
  obtain ⟨-, -, hstanding, hfifo, hhand⟩ := hquiet
  cases htaken : Slots.taken s.ble k with
  | false => rfl
  | true =>
      rcases h.taken k htaken with (hheld | ⟨e, he, -⟩) | ⟨e, he, -⟩
      · exact absurd hstanding hheld
      · rw [hfifo] at he; cases he
      · rw [hhand] at he; cases he

/-! ## The worker and the control thread -/

/-- A step that touches neither the controller nor the packets: it takes a slot
only for a command accepted. -/
theorem Inv.aside {s t : State} (h : Inv s) (hhci : t.hci = s.hci)
    (hsame : t.standing = s.standing ∧ t.hand = s.hand ∧ t.stale = s.stale)
    (hone : t.ble.follow.syncCount ≤ 1)
    (hfree : t.worker = .ready .train ∨ t.worker = .calling .train ∨
      t.worker = .returned .train true → t.ble.follow.syncCount = 0)
    (htaken : ∀ k, Slots.taken t.ble k = true → Slots.taken s.ble k = true ∨ s.Accepted k)
    (hworker : t.worker = s.worker ∨ ∀ k, t.worker ≠ .calling k ∧ t.worker ≠ .returned k true) :
    Inv t := by
  obtain ⟨hci, ble, standing, hand, stale, worker, control⟩ := t
  obtain ⟨rfl, rfl, rfl⟩ := hsame
  cases hhci
  have hcalling : ∀ k, worker = .calling k → s.worker = .calling k := by
    intro k hk
    rcases hworker with hw | hw
    · exact hw ▸ hk
    · exact absurd hk (hw k).1
  exact {
    hci := h.hci
    numbered := h.numbered
    own := fun k hk => h.own k (hcalling k hk)
    one := hone
    free := hfree
    taken := fun k hk => (htaken k hk).elim (h.taken k) (h.accepted k)
    accepted := by
      intro k hk
      refine h.accepted k ?_
      rcases hworker with hw | hw
      · rcases hk with hk | hk
        · exact .inl ⟨hcalling k hk.1, hk.2⟩
        · exact .inr (hw ▸ hk)
      · rcases hk with hk | hk
        · exact absurd hk.1 (hw k).1
        · exact absurd hk (hw k).2
    awaited := fun k hk => h.awaited k (hcalling k hk)
    stale := h.stale
    joined := h.joined
    fresh := h.fresh }

theorem step_call {p p' : Protocol.State} {opcode : UInt16}
    (h : Protocol.step p (.call opcode) = some p') :
    p.caller = .idle ∧ p' = { p with caller := .begun opcode, calls := p.calls + 1 } := by
  change Protocol.stepCaller p (.call opcode) = some p' at h
  cases hcaller : p.caller with
  | idle =>
      simp only [Protocol.stepCaller, hcaller, Option.some.injEq] at h
      exact ⟨rfl, h.symm⟩
  | _ => simp [Protocol.stepCaller, hcaller] at h

/-- A call begins: nothing of it is queued or answered yet. -/
theorem Inv.call {s : State} (h : Inv s) {opcode : UInt16} {p : Protocol.State}
    (hstep : Protocol.step s.hci (.call opcode) = some p) (worker : Worker) (control : Control)
    (hworker : worker = s.worker ∨
      ∃ k, worker = .calling k ∧ s.worker = .ready k ∧ opcode = k.opcode) :
    Inv { s with hci := p, worker, control } := by
  have hinv : Protocol.Inv p :=
    Protocol.inv_step s.hci (.call opcode) p h.hci trivial hstep
  obtain ⟨hidle, rfl⟩ := step_call hstep
  have hnew : (s.hci.calls + 1, (0 : UInt8)) ∉ s.hci.verdicts := fun hv =>
    Nat.not_succ_le_self _ (h.numbered.verdicts _ hv)
  have hcalling : ∀ k, worker = .calling k → s.worker = .ready k ∧ opcode = k.opcode := by
    intro k hk
    rcases hworker with hw | ⟨k', hw, hready, hop⟩
    · exact absurd hidle (h.own k (hw ▸ hk)).busy
    · rw [hw] at hk
      cases hk
      exact ⟨hready, hop⟩
  exact {
    hci := hinv
    numbered :=
      { queued := fun c hc => Nat.le_succ_of_le (h.numbered.queued c hc)
        verdicts := fun v hv => Nat.le_succ_of_le (h.numbered.verdicts v hv)
        answers := h.numbered.answers }
    own := fun k hk =>
      { busy := nofun
        unsent := by
          intro op hop
          cases hop
          exact (hcalling k hk).2
        queued := fun c hc hcur =>
          absurd (hcur ▸ h.numbered.queued c hc) (Nat.not_succ_le_self _) }
    one := h.one
    free := by
      rintro (hk | hk | hk)
      · rcases hworker with hw | ⟨k', hw, -⟩
        · exact h.free (.inl (hw ▸ hk))
        · rw [hw] at hk; cases hk
      · exact h.free (.inl (hcalling .train hk).1)
      · rcases hworker with hw | ⟨k', hw, -⟩
        · exact h.free (.inr (.inr (hw ▸ hk)))
        · rw [hw] at hk; cases hk
    taken := h.taken
    accepted := by
      rintro k (⟨-, -, hv⟩ | hk)
      · exact absurd hv hnew
      · rcases hworker with hw | ⟨k', hw, -⟩
        · exact h.accepted k (.inr (hw ▸ hk))
        · change worker = _ at hk
          rw [hw] at hk; cases hk
    awaited := by
      intro k hk _
      refine Covered.of_none fun e he haccepts => hnew ?_
      obtain ⟨r, hr, hstatus⟩ := Option.map_eq_some_iff.mp haccepts.2
      have hsaid := h.numbered.answers e he _ haccepts.1 r hr
      rw [hstatus] at hsaid
      exact hsaid
    stale := h.stale
    joined := h.joined
    fresh := h.fresh }

/-- A step inside a call. -/
theorem Inv.inside {s : State} (h : Inv s) {p : Protocol.State} (hinv : Protocol.Inv p)
    (hstep : Inside s.hci p) (control : Control)
    (hbusy : ∀ k, s.worker = .calling k → p.caller ≠ .idle) :
    Inv { s with hci := p, control } := by
  have hbacked : ∀ k, Backed s k → Backed { s with hci := p, control } k := by
    intro k hk
    unfold Backed
    rw [hstep.fifo]
    exact hk
  have hfailed : ∀ k, s.worker = .calling k → failed p = false → failed s.hci = false :=
    fun k hk => hstep.failed (hbusy k hk)
  have haccepts : ∀ e, State.Accepts { s with hci := p, control } e → s.Accepts e := by
    intro e he
    unfold State.Accepts at he
    rw [hstep.calls] at he
    exact he
  exact {
    hci := hinv
    numbered := h.numbered.inside hstep
    own := fun k hk => (h.own k hk).inside hstep (hbusy k hk)
    one := h.one
    free := h.free
    taken := fun k hk => hbacked k (h.taken k hk)
    accepted := by
      rintro k (⟨hk, hf, hv⟩ | hk)
      · change (p.calls, _) ∈ p.verdicts at hv
        rw [hstep.calls, hstep.verdicts] at hv
        exact hbacked k (h.accepted k (.inl ⟨hk, hfailed k hk hf, hv⟩))
      · exact hbacked k (h.accepted k (.inr hk))
    awaited := by
      intro k hk hf
      change Covered _ _ _ p.fifo
      rw [hstep.fifo]
      exact (h.awaited k hk (hfailed k hk hf)).mono id fun e _ => haccepts e
    stale := by
      change _ ≤ p.fifo.length
      rw [hstep.fifo]
      exact h.stale
    joined := by
      change Covered _ _ _ (p.fifo.drop _)
      rw [hstep.fifo]
      exact h.joined
    fresh := fun e he hj => hbacked _ (h.fresh e he hj) }

/-- A call returns. One that returns 0 was accepted. -/
theorem Inv.settle {s : State} (h : Inv s) {p : Protocol.State} {err : Int}
    (hinv : Protocol.Inv p) (hstep : Inside s.hci p)
    (hok : err = 0 → failed s.hci = false ∧ (s.hci.calls, 0) ∈ s.hci.verdicts) :
    Inv (State.settle { s with hci := p } err) := by
  have hbacked : ∀ k (t : State), t.standing = s.standing → t.hand = s.hand → t.hci = p →
      Backed s k → Backed t k := by
    intro k t hstanding hhand hhci hk
    unfold Backed
    rw [hstanding, hhand, hhci, hstep.fifo]
    exact hk
  unfold State.settle
  split
  · next k hk =>
      have hk : s.worker = .calling k := hk
      exact {
        hci := hinv
        numbered := h.numbered.inside hstep
        own := nofun
        one := h.one
        free := by
          rintro (hw | hw | hw)
          · cases hw
          · cases hw
          · injection hw with hkind
            rw [hkind] at hk
            exact h.free (.inr (.inl hk))
        taken := fun k' hk' => hbacked k' _ rfl rfl rfl (h.taken k' hk')
        accepted := by
          rintro k' (⟨hw, -⟩ | hw)
          · cases hw
          · refine hbacked k' _ rfl rfl rfl (h.accepted k' (.inl ?_))
            have hok' : Worker.returned k (decide (err = 0)) = .returned k' true := hw
            injection hok' with hkind hzero
            rw [← hkind]
            exact ⟨hk, hok (of_decide_eq_true hzero)⟩
        awaited := nofun
        stale := by
          change _ ≤ p.fifo.length
          rw [hstep.fifo]
          exact h.stale
        joined := by
          change Covered _ _ _ (p.fifo.drop _)
          rw [hstep.fifo]
          exact h.joined
        fresh := fun e he hj => hbacked _ _ rfl rfl rfl (h.fresh e he hj) }
  · next hnot =>
      have hnot : ∀ k, s.worker ≠ .calling k := fun k hk => hnot k hk
      split
      · exact h.inside hinv hstep _ fun k hk => absurd hk (hnot k)
      · exact h.inside hinv hstep s.control fun k hk => absurd hk (hnot k)

/-! ## The packets -/

theorem step_look {p p' : Protocol.State} {e : Protocol.Evt} {fifo : List Protocol.Evt}
    (hfifo : p.fifo = e :: fifo) (h : Protocol.step p .look = some p') :
    p' = { p with fwd := p.noted e, fifo } := by
  change Protocol.stepFwd p .look = some p' at h
  unfold Protocol.stepFwd at h
  rw [hfifo] at h
  cases hfwd : p.fwd with
  | idle =>
      simp only [hfwd, Option.some.injEq] at h
      exact h.symm
  | _ => simp [hfwd] at h

/-- The first packet is taken off the queue. -/
theorem Inv.look {s : State} (h : Inv s) {p : Protocol.State} {e : Protocol.Evt}
    {fifo : List Protocol.Evt} (hhand : s.hand = .empty) (hfifo : s.hci.fifo = e :: fifo)
    (htimely : Protocol.Timely s.hci .look) (hstep : Protocol.step s.hci .look = some p) :
    Inv { s with hci := p, hand := .fetched e (s.stale != 0), stale := s.stale - 1 } := by
  have hinv : Protocol.Inv p := Protocol.inv_step s.hci .look p h.hci htimely hstep
  cases step_look hfifo hstep
  have hbacked : ∀ k, Backed s k → Backed { s with
      hci := { s.hci with fwd := s.hci.noted e, fifo }
      hand := .fetched e (s.stale != 0), stale := s.stale - 1 } k := by
    rintro k ((hheld | ⟨b, hb, hends⟩) | ⟨b, hb, -⟩)
    · exact .inl (.inl hheld)
    · rw [hfifo] at hb
      rcases List.mem_cons.mp hb with rfl | hb
      · exact .inr ⟨b, rfl, hends⟩
      · exact .inl (.inr ⟨b, hb, hends⟩)
    · rw [hhand] at hb
      cases hb
  have hawaited := h.awaited
  have hjoined := h.joined
  have hstale := h.stale
  rw [hfifo] at hawaited hjoined hstale
  exact {
    hci := hinv
    numbered :=
      { queued := h.numbered.queued
        verdicts := h.numbered.verdicts
        answers := fun b hb => h.numbered.answers b (hfifo ▸ List.mem_cons_of_mem e hb) }
    own := fun k hk => ⟨(h.own k hk).busy, (h.own k hk).unsent, (h.own k hk).queued⟩
    one := h.one
    free := h.free
    taken := fun k hk => hbacked k (h.taken k hk)
    accepted := fun k hk => hbacked k (h.accepted k hk)
    awaited := fun k hk hf => (hawaited k hk hf).tail
    stale := Nat.sub_le_of_le_add hstale
    joined := by
      cases hs : s.stale with
      | zero => rw [hs] at hjoined; exact hjoined.tail
      | succ n => rw [hs] at hjoined; exact hjoined
    fresh := by
      intro b hb hj
      cases hs : s.stale with
      | zero =>
          rw [hs] at hb hjoined
          cases hb
          exact .inl (hjoined.head hj)
      | succ n => rw [hs] at hb; cases hb }

theorem step_other {p p' : Protocol.State} {h4 : UInt8} {data : List UInt8}
    (h : Protocol.step p (.other h4 data) = some p') :
    p' = { p with fifo := p.fifo ++ [⟨h4, data, none⟩] } := by
  have h : Protocol.stepController p (.other h4 data) = some p' := h
  unfold Protocol.stepController at h
  split at h
  · rename_i hlabel; cases hlabel
  · rename_i hlabel
    cases hlabel
    split at h
    · cases h; rfl
    · cases h
  · cases h

/-- A packet that answers nothing joins the queue. What the controller has it
keeps, unless the packet says that it is gone. -/
theorem Inv.push {s : State} (h : Inv s) {p : Protocol.State} {h4 : UInt8} {data : List UInt8}
    (hstep : Protocol.step s.hci (.other h4 data) = some p) (standing : Kind → Standing)
    (hkeeps : ∀ k, s.standing k ≠ .none → standing k ≠ .none ∨ reports h4 data = some (k, false))
    (hjoined : reports h4 data = some (.broadcast, true) → standing .broadcast ≠ .none) :
    Inv { s with hci := p, standing } := by
  have hinv : Protocol.Inv p :=
    Protocol.inv_step s.hci (.other h4 data) p h.hci trivial hstep
  cases step_other hstep
  have hbacked : ∀ k, Backed s k → Backed { s with
      hci := { s.hci with fifo := s.hci.fifo ++ [⟨h4, data, none⟩] }, standing } k := by
    rintro k ((hheld | ⟨b, hb, hends⟩) | hhand)
    · rcases hkeeps k hheld with hkept | hgone
      · exact .inl (.inl hkept)
      · exact .inl (.inr ⟨_, List.mem_append_right _ List.mem_cons_self, hgone⟩)
    · exact .inl (.inr ⟨b, List.mem_append_left _ hb, hends⟩)
    · exact .inr hhand
  have hcovered : ∀ (k : Kind) (claims : Protocol.Evt → Prop) (l : List Protocol.Evt),
      (claims ⟨h4, data, none⟩ → standing k ≠ .none ∧ reports h4 data ≠ some (k, false)) →
      Covered (s.standing k ≠ .none) claims (Ends k) l →
      Covered (standing k ≠ .none) claims (Ends k) (l ++ [⟨h4, data, none⟩]) := by
    intro k claims l hclaim hl
    by_cases hends : reports h4 data = some (k, false)
    · exact Covered.push_end l (fun hc => (hclaim hc).2 hends) hends
    · exact (hl.mono (fun hheld => (hkeeps k hheld).resolve_right hends) fun _ _ => id).push
        fun hc => (hclaim hc).1
  exact {
    hci := hinv
    numbered :=
      { queued := h.numbered.queued
        verdicts := h.numbered.verdicts
        answers := by
          intro b hb
          rcases List.mem_append.mp hb with hb | hb
          · exact h.numbered.answers b hb
          · rw [List.mem_singleton.mp hb]
            exact nofun }
    own := fun k hk => ⟨(h.own k hk).busy, (h.own k hk).unsent, (h.own k hk).queued⟩
    one := h.one
    free := h.free
    taken := fun k hk => hbacked k (h.taken k hk)
    accepted := fun k hk => hbacked k (h.accepted k hk)
    awaited := fun k hk hf => hcovered k _ _ (fun hc => nomatch hc.1) (h.awaited k hk hf)
    stale := by
      rw [List.length_append]
      exact Nat.le_add_right_of_le h.stale
    joined := by
      rw [List.drop_append_of_le_length h.stale]
      refine hcovered _ _ _ (fun hc => ⟨hjoined hc, fun hends => ?_⟩) h.joined
      cases hc.symm.trans hends
    fresh := fun b hb hj => hbacked _ (h.fresh b hb hj) }

/-- An answer is no report. -/
theorem reports_answer (form : Protocol.AnswerForm) (opcode : UInt16) (status : UInt8) :
    reports h4Event (form.bytes opcode status) = none := by
  cases form with
  | complete more => exact reports_of_code (by decide)
  | brief => exact reports_of_code (by decide)

/-- The queue after the answer to the command in front. -/
def answered (p : Protocol.State) (form : Protocol.AnswerForm) (status : UInt8) (call : Nat)
    (opcode : UInt16) (controller : List (Nat × UInt16)) : Protocol.State :=
  { p with
    controller
    fifo := p.fifo ++ [⟨h4Event, form.bytes opcode status, some call⟩]
    verdicts := p.verdicts ++ [(call, status)] }

theorem step_answer {p p' : Protocol.State} {form : Protocol.AnswerForm} {status : UInt8}
    {call : Nat} {opcode : UInt16} {controller : List (Nat × UInt16)}
    (hqueue : p.controller = (call, opcode) :: controller)
    (h : Protocol.step p (.answer form status) = some p') :
    p' = answered p form status call opcode controller := by
  change Protocol.stepController p (.answer form status) = some p' at h
  simp only [Protocol.stepController, hqueue, Option.some.injEq] at h
  exact h.symm

theorem Numbered.answered {p : Protocol.State} (h : Numbered p) {form : Protocol.AnswerForm}
    {status : UInt8} {call : Nat} {opcode : UInt16} {controller : List (Nat × UInt16)}
    (hqueue : p.controller = (call, opcode) :: controller) :
    Numbered (answered p form status call opcode controller) where
  queued c hc := h.queued c (hqueue ▸ List.mem_cons_of_mem _ hc)
  verdicts v hv := by
    rcases List.mem_append.mp hv with hv | hv
    · exact h.verdicts v hv
    · rw [List.mem_singleton.mp hv]
      exact h.queued (call, opcode) (hqueue ▸ List.mem_cons_self)
  answers b hb c hc r hr := by
    rcases List.mem_append.mp hb with hb | hb
    · exact List.mem_append_left _ (h.answers b hb c hc r hr)
    · rw [List.mem_singleton.mp hb, Protocol.result_answer] at hr
      rw [List.mem_singleton.mp hb] at hc
      cases hr
      cases hc
      exact List.mem_append_right _ List.mem_cons_self

theorem Own.answered {p : Protocol.State} {own : UInt16} (h : Own p own)
    {form : Protocol.AnswerForm} {status : UInt8} {call : Nat} {opcode : UInt16}
    {controller : List (Nat × UInt16)} (hqueue : p.controller = (call, opcode) :: controller) :
    Own (answered p form status call opcode controller) own where
  busy := h.busy
  unsent := h.unsent
  queued c hc := h.queued c (hqueue ▸ List.mem_cons_of_mem _ hc)

/-- The command of the call in progress, once it is in front, is the one the
call sent. -/
theorem Inv.front {s : State} (h : Inv s) {k : Kind} (hk : s.worker = .calling k) {call : Nat}
    {opcode : UInt16} {controller : List (Nat × UInt16)}
    (hqueue : s.hci.controller = (call, opcode) :: controller) (hcur : call = s.hci.calls) :
    opcode = k.opcode :=
  (h.own k hk).queued (call, opcode) (hqueue ▸ List.mem_cons_self) hcur

/-- The controller answers, and has what it accepts. -/
theorem Inv.answer {s : State} (h : Inv s) {p : Protocol.State} {form : Protocol.AnswerForm}
    {status : UInt8} {call : Nat} {opcode : UInt16} {controller : List (Nat × UInt16)}
    (hqueue : s.hci.controller = (call, opcode) :: controller)
    (hstep : Protocol.step s.hci (.answer form status) = some p) (standing : Kind → Standing)
    (hkeeps : ∀ k, s.standing k ≠ .none → standing k ≠ .none)
    (hnew : status = 0 → ∀ k, opcode = k.opcode → standing k ≠ .none) :
    Inv { s with hci := p, standing } := by
  have hinv : Protocol.Inv p :=
    Protocol.inv_step s.hci (.answer form status) p h.hci trivial hstep
  cases step_answer hqueue hstep
  have hbacked : ∀ k, Backed s k → Backed { s with
      hci := answered s.hci form status call opcode controller, standing } k := by
    rintro k ((hheld | ⟨b, hb, hends⟩) | hhand)
    · exact .inl (.inl (hkeeps k hheld))
    · exact .inl (.inr ⟨b, List.mem_append_left _ hb, hends⟩)
    · exact .inr hhand
  exact {
    hci := hinv
    numbered := h.numbered.answered hqueue
    own := fun k hk => (h.own k hk).answered hqueue
    one := h.one
    free := h.free
    taken := fun k hk => hbacked k (h.taken k hk)
    accepted := by
      rintro k (⟨hk, hf, hv⟩ | hk)
      · rcases List.mem_append.mp hv with hv | hv
        · exact hbacked k (h.accepted k (.inl ⟨hk, hf, hv⟩))
        · have hpair : (s.hci.calls, 0) = (call, status) := List.mem_singleton.mp hv
          injection hpair with hcur hzero
          exact .inl (.inl (hnew hzero.symm k (h.front hk hqueue hcur.symm)))
      · exact hbacked k (h.accepted k (.inr hk))
    awaited := by
      intro k hk hf
      refine ((h.awaited k hk hf).mono (hkeeps k) fun _ _ => id).push fun hacc => ?_
      have hcur : call = s.hci.calls := Option.some.inj hacc.1
      have hzero := hacc.2
      rw [Protocol.result_answer] at hzero
      exact hnew (Option.some.inj hzero) k (h.front hk hqueue hcur)
    stale := Nat.le_trans h.stale (by simp [answered])
    joined := by
      change Covered _ _ _ ((s.hci.fifo ++ [_]).drop s.stale)
      rw [List.drop_append_of_le_length h.stale]
      refine (h.joined.mono (hkeeps .broadcast) fun _ _ => id).push fun hj => ?_
      cases (reports_answer form opcode status).symm.trans hj
    fresh := fun b hb hj => hbacked _ (h.fresh b hb hj) }

/-- The controller carries a Reset out, with nothing to lose. -/
theorem Inv.reset {s : State} (h : Inv s) {p : Protocol.State} {form : Protocol.AnswerForm}
    {call : Nat} {controller : List (Nat × UInt16)}
    (hqueue : s.hci.controller = (call, opReset) :: controller)
    (hstep : Protocol.step s.hci (.answer form 0) = some p)
    (hfree : ∀ k, Slots.taken s.ble k = false ∧ ¬ s.Accepted k) :
    Inv { s.reset with hci := p } := by
  have hinv : Protocol.Inv p :=
    Protocol.inv_step s.hci (.answer form 0) p h.hci trivial hstep
  cases step_answer hqueue hstep
  have hother : ∀ k, s.worker = .calling k → call ≠ s.hci.calls := by
    intro k hk hcur
    have hop := h.front hk hqueue hcur
    cases k with
    | train => exact absurd hop (by decide)
    | broadcast => exact absurd hop (by decide)
  have hold : ∀ k, s.worker = .calling k → failed s.hci = false →
      (s.hci.calls, 0) ∉ s.hci.verdicts :=
    fun k hk hf hv => (hfree k).2 (.inl ⟨hk, hf, hv⟩)
  exact {
    hci := hinv
    numbered := h.numbered.answered hqueue
    own := fun k hk => (h.own k hk).answered hqueue
    one := h.one
    free := h.free
    taken := fun k hk => absurd ((hfree k).1.symm.trans hk) nofun
    accepted := by
      rintro k (⟨hk, hf, hv⟩ | hk)
      · rcases List.mem_append.mp hv with hv | hv
        · exact absurd hv (hold k hk hf)
        · exact absurd (congrArg Prod.fst (List.mem_singleton.mp hv)).symm (hother k hk)
      · exact absurd (.inr hk) (hfree k).2
    awaited := by
      intro k hk hf
      refine Covered.of_none fun b hb hacc => ?_
      rcases List.mem_append.mp hb with hb | hb
      · obtain ⟨r, hr, hzero⟩ := Option.map_eq_some_iff.mp hacc.2
        have hsaid := h.numbered.answers b hb _ hacc.1 r hr
        rw [hzero] at hsaid
        exact hold k hk hf hsaid
      · rw [List.mem_singleton.mp hb] at hacc
        exact hother k hk (Option.some.inj hacc.1)
    stale := by simp [State.reset, answered]
    joined := by
      change Covered _ _ _ ((s.hci.fifo ++ [_]).drop s.hci.fifo.length)
      rw [List.drop_left]
      refine Covered.of_none fun b hb hj => ?_
      rw [List.mem_singleton.mp hb] at hj
      cases (reports_answer form opReset 0).symm.trans hj
    fresh := by
      intro b hb
      change b ∈ s.hand.aged.fresh at hb
      cases hhand : s.hand with
      | _ => rw [hhand] at hb; cases hb }

/-- The packet in hand is done with. -/
theorem Inv.handled {s : State} (h : Inv s) {e : Protocol.Evt} (hhand : s.hand.evt = some e)
    (ble : BleRadio) (hone : ble.follow.syncCount ≤ s.ble.follow.syncCount)
    (htaken : ∀ k, Slots.taken ble k = true → ¬ Ends k e ∧
      (Slots.taken s.ble k = true ∨ k = .broadcast ∧ Joined e ∧ s.hand.fresh = some e))
    (hcounted : ∀ k, Ends k e → ¬ s.Uncounted k) :
    Inv { s with ble, hand := .empty } := by
  have hbacked : ∀ k, ¬ Ends k e → Backed s k → Backed { s with ble, hand := .empty } k := by
    rintro k hnot (hbefore | ⟨b, hb, hends⟩)
    · exact .inl hbefore
    · rw [hhand] at hb
      cases hb
      exact absurd hends hnot
  exact {
    hci := h.hci
    numbered := h.numbered
    own := h.own
    one := Nat.le_trans hone h.one
    free := fun hw => Nat.le_zero.mp (h.free hw ▸ hone)
    taken := by
      intro k hk
      obtain ⟨hnot, hbefore | ⟨rfl, hjoined, hfresh⟩⟩ := htaken k hk
      · exact hbacked k hnot (h.taken k hbefore)
      · exact hbacked _ hnot (h.fresh e hfresh hjoined)
    accepted := by
      intro k hk
      by_cases hends : Ends k e
      · -- The answer is still queued, or the step would be out of order.
        refine Classical.byContradiction fun hnot => hcounted k hends ⟨hk, fun hcalling b hb hacc => ?_⟩
        rcases hk with ⟨-, hf, -⟩ | hk
        · exact hnot (.inl ((h.awaited k hcalling hf).of_mem hb hacc))
        · cases hcalling.symm.trans hk
      · exact hbacked k hends (h.accepted k hk)
    awaited := h.awaited
    stale := h.stale
    joined := h.joined
    fresh := nofun }

theorem Inv.admit {s : State} (h : Inv s) {e : Protocol.Evt} {old : Bool}
    (hhand : s.hand = .fetched e old) : Inv { s with hand := .admitted e old } := by
  have hbacked : ∀ k, Backed s k → Backed { s with hand := .admitted e old } k := by
    rintro k (hbefore | ⟨b, hb, hends⟩)
    · exact .inl hbefore
    · rw [hhand] at hb
      exact .inr ⟨b, hb, hends⟩
  exact {
    hci := h.hci
    numbered := h.numbered
    own := h.own
    one := h.one
    free := h.free
    taken := fun k hk => hbacked k (h.taken k hk)
    accepted := fun k hk => hbacked k (h.accepted k hk)
    awaited := h.awaited
    stale := h.stale
    joined := h.joined
    fresh := by
      intro b hb hj
      refine hbacked _ (h.fresh b ?_ hj)
      rw [hhand]
      cases old with
      | true => cases hb
      | false => exact hb }

/-- A report counted takes the slot of a BIG joined and frees the slot of what
it ends. -/
theorem taken_afterReport {s s' : BleRadio} {report : Option (Kind × Bool)}
    (h : slots s' = afterReport (slots s) report) (hone : s.follow.syncCount ≤ 1) (k : Kind)
    (hk : taken s' k = true) :
    report ≠ some (k, false) ∧
      (taken s k = true ∨ k = .broadcast ∧ report = some (.broadcast, true)) := by
  have hcount : s'.follow.syncCount = (afterReport (slots s) report).1 := congrArg Prod.fst h
  have hbig : s'.follow.bigSynced = (afterReport (slots s) report).2 := congrArg Prod.snd h
  cases k with
  | train =>
      have hk : (s'.follow.syncCount != 0) = true := hk
      rw [hcount] at hk
      rcases report with _ | ⟨_ | _, _ | _⟩
      · exact ⟨nofun, .inl hk⟩
      · have hzero : (slots s).1 - 1 = 0 := Nat.sub_eq_zero_of_le hone
        simp [afterReport, hzero] at hk
      · exact ⟨nofun, .inl hk⟩
      · exact ⟨nofun, .inl hk⟩
      · exact ⟨nofun, .inl hk⟩
  | broadcast =>
      have hk : s'.follow.bigSynced = true := hk
      rw [hbig] at hk
      rcases report with _ | ⟨_ | _, _ | _⟩
      · exact ⟨nofun, .inl hk⟩
      · exact ⟨nofun, .inl hk⟩
      · exact ⟨nofun, .inl hk⟩
      · cases hk
      · exact ⟨nofun, .inr ⟨rfl, rfl⟩⟩

theorem afterReport_le (p : Nat × Bool) (report : Option (Kind × Bool)) :
    (afterReport p report).1 ≤ p.1 := by
  rcases report with _ | ⟨_ | _, _ | _⟩
  · exact Nat.le_refl _
  · exact Nat.sub_le _ _
  · exact Nat.le_refl _
  · exact Nat.le_refl _
  · exact Nat.le_refl _

/-! ## One step -/

theorem Inv.stepFwd {s t : State} {l : Label} (h : Inv s) (hordered : Ordered s l)
    (hstep : stepFwd s l = some t) : Inv t := by
  unfold Slots.stepFwd at hstep
  split at hstep
  -- `.test`
  · next e old hhand =>
      have hevt : e ∈ s.hand.evt := by rw [hhand]; rfl
      split at hstep
      · cases hstep
        cases hadmit : s.ble.running && captures e.h4 e.data with
        | true => exact h.admit hhand
        | false =>
            have hstopped : ∀ k, Ends k e → s.ble.running = false := by
              intro k hends
              rw [captures_of_reports hends, Bool.and_true] at hadmit
              exact hadmit
            refine h.handled hevt s.ble (Nat.le_refl _) (fun k hk => ⟨fun hends => ?_, .inl hk⟩)
              fun k hends => (hordered e hevt (hstopped k hends) k hends).2
            rw [(hordered e hevt (hstopped k hends) k hends).1] at hk
            cases hk
      · cases hstep
  -- `.count`
  · next e old now hhand =>
      have hevt : e ∈ s.hand.evt := by rw [hhand]; rfl
      obtain ⟨r, hr, rfl⟩ := Option.map_eq_some_iff.mp hstep
      have hslots := beforeLock_slots hr
      refine h.handled hevt r.1 ?_ (fun k hk => ?_) (hordered e hevt).1
      · have hcount : r.1.follow.syncCount = (afterReport (slots s.ble) _).1 :=
          congrArg Prod.fst hslots
        rw [hcount]
        exact afterReport_le _ _
      · obtain ⟨hnot, hbefore | ⟨hkind, hjoined⟩⟩ := taken_afterReport hslots h.one k hk
        · exact ⟨hnot, .inl hbefore⟩
        · exact ⟨hnot, .inr ⟨hkind, hjoined, (hordered e hevt).2 hjoined⟩⟩
  · cases hstep

/-- The tests of the worker have passed with the slot free. -/
theorem takeRequest_worker (s : State) (queue : List SyncReq) :
    (takeRequest s queue).worker = .idle ∨
      (takeRequest s queue).worker = .ready .train ∧ s.ble.follow.syncCount = 0 := by
  unfold takeRequest
  cases hmay : mayCreateSync s.ble with
  | false => exact .inl rfl
  | true =>
      simp only [mayCreateSync, Bool.and_eq_true] at hmay
      exact .inr ⟨rfl, Nat.lt_one_iff.mp (of_decide_eq_true hmay.2)⟩

theorem takeJoin_worker (s : State) :
    (takeJoin s).worker = .ready .broadcast ∨ (takeJoin s).worker = .returned .broadcast false := by
  unfold takeJoin
  cases s.ble.running with
  | true => exact .inl rfl
  | false => exact .inr rfl

/-- The worker notes the outcome, and takes the slot for a command accepted. -/
theorem Inv.tally {s : State} (h : Inv s) {k : Kind} {ok : Bool} (uptime : Int)
    (hworker : s.worker = .returned k ok) :
    Inv { s with ble := tallied s.ble k ok uptime, worker := .idle } := by
  have hmine : ok = true → s.Accepted k := fun hok => .inr (hok ▸ hworker)
  refine h.aside rfl ⟨rfl, rfl, rfl⟩ ?_ (by rintro (hw | hw | hw) <;> cases hw) ?_
    (.inr fun _ => ⟨nofun, nofun⟩)
  · cases k with
    | train =>
        cases ok with
        | true =>
            have hzero := h.free (.inr (.inr hworker))
            exact Nat.le_of_eq (congrArg (· + 1) hzero)
        | false => exact h.one
    | broadcast =>
        cases ok with
        | true => exact h.one
        | false => exact h.one
  · intro k' hk'
    cases k with
    | train =>
        cases ok with
        | true =>
            cases k' with
            | train => exact .inr (hmine rfl)
            | broadcast => exact .inl hk'
        | false => exact .inl hk'
    | broadcast =>
        cases ok with
        | true =>
            cases k' with
            | train => exact .inl hk'
            | broadcast => exact .inr (hmine rfl)
        | false =>
            cases k' with
            | train => exact .inl hk'
            | broadcast => exact .inl hk'

theorem Inv.stepWorker {s t : State} {l : Label} (h : Inv s) (hstep : stepWorker s l = some t) :
    Inv t := by
  unfold Slots.stepWorker at hstep
  split at hstep
  -- `.request`
  · split at hstep
    · next queue hqueue =>
        cases hstep
        refine h.aside rfl ⟨rfl, rfl, rfl⟩ h.one ?_ (fun k hk => .inl hk) (.inr fun k => ?_)
        · intro hw
          rcases takeRequest_worker s queue with hidle | ⟨-, hzero⟩
          · rw [hidle] at hw
            rcases hw with hw | hw | hw <;> cases hw
          · exact hzero
        · rcases takeRequest_worker s queue with hidle | ⟨hready, -⟩
          · rw [hidle]
            exact ⟨nofun, nofun⟩
          · rw [hready]
            exact ⟨nofun, nofun⟩
    · cases hstep
  -- `.join`
  · split at hstep
    · cases hstep
      refine h.aside rfl ⟨rfl, rfl, rfl⟩ h.one ?_ (fun k hk => .inl hk) (.inr fun k => ?_)
      · intro hw
        rcases takeJoin_worker s with hready | hback
        · rw [hready] at hw
          rcases hw with hw | hw | hw <;> cases hw
        · rw [hback] at hw
          rcases hw with hw | hw | hw <;> cases hw
      · rcases takeJoin_worker s with hready | hback
        · rw [hready]
          exact ⟨nofun, nofun⟩
        · rw [hback]
          exact ⟨nofun, nofun⟩
    · cases hstep
  -- `.issue`
  · next k hworker =>
      obtain ⟨p, hp, rfl⟩ := Option.map_eq_some_iff.mp hstep
      exact h.call hp (.calling k) s.control (.inr ⟨k, rfl, hworker, rfl⟩)
  -- `.tally`
  · next k ok uptime hworker =>
      cases hstep
      exact h.tally uptime hworker
  · cases hstep

/-- `scan_started`, uninterrupted. -/
theorem run_opening {s : State} (hopening : s.control = .opening .syncCount) :
    machine.run s (List.replicate 6 .write)
      = some { s with ble := scanStarted s.ble, control := .idle } := by
  simp [Machine.run, machine, step, stepControl, hopening, Control.after, ScanStore.next,
    ScanStore.write, scanStarted]

theorem Inv.stepControl {s t : State} {l : Label} (h : Inv s) (hstep : stepControl s l = some t) :
    Inv t := by
  -- Each slot is left as it is, or freed.
  have haside : ∀ (ble : BleRadio) (control : Control),
      ble.follow.syncCount = s.ble.follow.syncCount ∨ ble.follow.syncCount = 0 →
      ble.follow.bigSynced = s.ble.follow.bigSynced ∨ ble.follow.bigSynced = false →
      Inv { s with ble, control } := by
    intro ble control htrain hbroadcast
    refine h.aside rfl ⟨rfl, rfl, rfl⟩ ?_ (fun hw => ?_) (fun k hk => .inl ?_) (.inl rfl)
    · rcases htrain with hsame | hfree
      · exact hsame ▸ h.one
      · exact hfree ▸ Nat.zero_le 1
    · rcases htrain with hsame | hfree
      · exact hsame.trans (h.free hw)
      · exact hfree
    · cases k with
      | train =>
          have hk : (ble.follow.syncCount != 0) = true := hk
          rcases htrain with hsame | hfree
          · rw [hsame] at hk
            exact hk
          · rw [hfree] at hk
            cases hk
      | broadcast =>
          have hk : ble.follow.bigSynced = true := hk
          rcases hbroadcast with hsame | hfree
          · exact hsame.symm.trans hk
          · cases hfree.symm.trans hk
  unfold Slots.stepControl at hstep
  split at hstep
  -- `.stop`
  · cases hstep
    exact haside _ _ (.inl rfl) (.inl rfl)
  -- `.free`
  · cases hstep
    exact haside _ _ (.inr rfl) (.inr rfl)
  -- `.start`
  · split at hstep
    · cases hstep
      exact haside s.ble _ (.inl rfl) (.inl rfl)
    · cases hstep
  -- `.command`
  · next opcode opcodes scan hcontrol =>
      obtain ⟨p, hp, rfl⟩ := Option.map_eq_some_iff.mp hstep
      exact h.call hp s.worker (.calling opcodes scan) (.inl rfl)
  -- `.done`
  · cases hstep
    exact haside s.ble _ (.inl rfl) (.inl rfl)
  -- `.write`
  · next store hcontrol =>
      cases hstep
      cases store with
      | syncCount => exact haside _ _ (.inr rfl) (.inl rfl)
      | bigSynced => exact haside _ _ (.inl rfl) (.inr rfl)
      | _ => exact haside _ _ (.inl rfl) (.inl rfl)
  -- `.setPeriodic`
  · cases hstep
    exact haside _ _ (.inl rfl) (.inl rfl)
  · cases hstep

theorem reportOf_established (k : Kind) (v2 : Bool) (status : UInt8) (rest : List UInt8)
    (hlong : status = 0 → 13 ≤ rest.length) :
    reportOf (k.establishedCode v2) (status :: rest) = some (k, status == 0) := by
  cases k with
  | train => cases v2 <;> rfl
  | broadcast =>
      show some (Kind.broadcast, decide (17 ≤ rest.length + 4) && status == 0) = _
      by_cases hzero : status = 0
      · rw [decide_eq_true (Nat.add_le_add_right (hlong hzero) 4), Bool.true_and]
      · rw [beq_false_of_ne hzero, Bool.and_false]

theorem reportOf_lost (k : Kind) (rest : List UInt8) :
    reportOf k.lostCode rest = some (k, false) := by
  cases k with
  | train => rfl
  | broadcast => rfl

/-- A report of the controller: what it is about stands or is gone. -/
theorem Inv.report {s : State} (h : Inv s) {k : Kind} {standing : Standing} {sub : UInt8}
    {params : List UInt8} {made : Bool} {t : State}
    (hreport : reportOf sub params = some (k, made))
    (hstanding : made = true → standing ≠ .none)
    (hstep : lift (s.stand k standing) (.other h4Event (leMetaEvent sub params)) = some t) :
    Inv t := by
  obtain ⟨p, hp, rfl⟩ := Option.map_eq_some_iff.mp hstep
  have hreports : reports h4Event (leMetaEvent sub params) = some (k, made) := by
    rw [reports_leMetaEvent, hreport]
  refine h.push hp (s.stand k standing).standing (fun k' hk' => ?_) (fun hjoined => ?_)
  · by_cases hkind : k' = k
    · cases made with
      | true =>
          left
          rw [hkind, stand_self]
          exact hstanding rfl
      | false => exact .inr (hkind ▸ hreports)
    · exact .inl (stand_other s standing hkind ▸ hk')
  · rw [hreports] at hjoined
    cases hjoined
    exact stand_self s .broadcast standing ▸ hstanding rfl

theorem Inv.stepController {s t : State} {l : Label} (h : Inv s)
    (hstep : stepController s l = some t) : Inv t := by
  cases l with
  | established k v2 status rest =>
      simp only [Slots.stepController] at hstep
      split at hstep
      · next hpending =>
          refine h.report (reportOf_established k v2 status rest hpending.2) (fun hmade => ?_) hstep
          rw [if_pos (eq_of_beq hmade)]
          exact nofun
      · cases hstep
  | lost k rest =>
      simp only [Slots.stepController] at hstep
      split at hstep
      · exact h.report (reportOf_lost k rest) nofun hstep
      · cases hstep
  | _ => cases hstep

/-- The command in front is carried out and answered. -/
theorem Inv.obey {s s' t : State} (h : Inv s) {form : Protocol.AnswerForm} {status : UInt8}
    {call : Nat} {opcode : UInt16} {controller : List (Nat × UInt16)}
    (hqueue : s.hci.controller = (call, opcode) :: controller)
    (hordered : Ordered s (.hci (.answer form status))) (hobey : obey s opcode status = some s')
    (hstep : lift s' (.answer form status) = some t) : Inv t := by
  obtain ⟨p, hp, rfl⟩ := Option.map_eq_some_iff.mp hstep
  unfold Slots.obey at hobey
  split at hobey
  -- refused
  · next hrefused =>
      cases hobey
      exact h.answer hqueue hp s.standing (fun _ => id) fun hzero => absurd hzero hrefused
  · next hzero =>
      cases Decidable.not_not.mp hzero
      split at hobey
      -- a Reset
      · next hreset =>
          cases hobey
          rw [hreset] at hqueue
          refine h.reset hqueue hp (hordered.2 ?_)
          unfold State.resets
          rw [hqueue]
          rfl
      · split at hobey
        -- a Create Sync
        · next k hkind =>
            split at hobey
            · cases hobey
              refine h.answer hqueue hp (s.stand k .pending).standing (fun k' hk' => ?_)
                fun _ k' hop => ?_
              · by_cases hsame : k' = k
                · rw [hsame, stand_self]
                  exact nofun
                · rw [stand_other s .pending hsame]
                  exact hk'
              · have hsame : k' = k := by
                  rw [hop] at hkind
                  cases k' with
                  | train => exact Option.some.inj hkind
                  | broadcast => exact Option.some.inj hkind
                rw [hsame, stand_self]
                exact nofun
            · cases hobey
        -- any other
        · next hkind =>
            cases hobey
            refine h.answer hqueue hp s.standing (fun _ => id) fun _ k hop => ?_
            rw [hop] at hkind
            cases k with
            | train => cases hkind
            | broadcast => cases hkind

/-- A step of `hci_command` that does not return. -/
theorem Inv.callerStep {s t : State} (h : Inv s) (l : Protocol.Label)
    (htimely : Protocol.Timely s.hci l) (hcall : ∀ op, l ≠ .call op) (hbuffer : l ≠ .noBuffer)
    (hrelease : l ≠ .release) (hcaller : ∀ p, Protocol.step p l = Protocol.stepCaller p l)
    (hstep : lift s l = some t) : Inv t := by
  obtain ⟨p, hp, rfl⟩ := Option.map_eq_some_iff.mp hstep
  have hinv : Protocol.Inv p := Protocol.inv_step s.hci l p h.hci htimely hp
  rw [hcaller] at hp
  exact h.inside hinv (inside_stepCaller hcall hp) s.control
    fun _ _ => busy_stepCaller hbuffer hrelease hp

/-- A write of `note_command_result`. -/
theorem Inv.fwdStep {s t : State} (h : Inv s) (l : Protocol.Label)
    (htimely : Protocol.Timely s.hci l) (hlook : l ≠ .look)
    (hfwd : ∀ p, Protocol.step p l = Protocol.stepFwd p l) (hstep : lift s l = some t) :
    Inv t := by
  obtain ⟨p, hp, rfl⟩ := Option.map_eq_some_iff.mp hstep
  have hinv : Protocol.Inv p := Protocol.inv_step s.hci l p h.hci htimely hp
  rw [hfwd] at hp
  exact h.inside hinv (inside_stepFwd hlook hp) s.control
    fun k hk => stepFwd_caller hp ▸ (h.own k hk).busy

theorem Inv.stepHci {s t : State} {l : Protocol.Label} (h : Inv s) (hordered : Ordered s (.hci l))
    (hstep : stepHci s l = some t) : Inv t := by
  cases l with
  | call opcode => cases hstep
  | look =>
      simp only [Slots.stepHci] at hstep
      split at hstep
      · next e fifo hhand hfifo =>
          obtain ⟨p, hp, rfl⟩ := Option.map_eq_some_iff.mp hstep
          exact h.look hhand hfifo hordered.1 hp
      · cases hstep
  | answer form status =>
      simp only [Slots.stepHci] at hstep
      split at hstep
      · next call opcode controller hqueue =>
          obtain ⟨s', hobey, hlift⟩ := Option.bind_eq_some_iff.mp hstep
          exact h.obey hqueue hordered hobey hlift
      · cases hstep
  | other h4 data =>
      simp only [Slots.stepHci] at hstep
      split at hstep
      · next hnone =>
          obtain ⟨p, hp, rfl⟩ := Option.map_eq_some_iff.mp hstep
          refine h.push hp s.standing (fun _ => .inl) fun hjoined => ?_
          cases hnone.symm.trans hjoined
      · cases hstep
  | noBuffer =>
      obtain ⟨s', hlift, rfl⟩ := Option.map_eq_some_iff.mp hstep
      obtain ⟨p, hp, rfl⟩ := Option.map_eq_some_iff.mp hlift
      have hinv := Protocol.inv_step s.hci .noBuffer p h.hci hordered.1 hp
      have hinside := inside_stepCaller (l := .noBuffer) (fun _ => nofun) hp
      exact h.settle hinv hinside fun herr => by cases herr
  | release =>
      simp only [Slots.stepHci] at hstep
      split at hstep
      · next err hcaller =>
          obtain ⟨s', hlift, rfl⟩ := Option.map_eq_some_iff.mp hstep
          obtain ⟨p, hp, rfl⟩ := Option.map_eq_some_iff.mp hlift
          have hinv := Protocol.inv_step s.hci .release p h.hci hordered.1 hp
          have hinside := inside_stepCaller (l := .release) (fun _ => nofun) hp
          refine h.settle hinv hinside ?_
          rintro rfl
          have hphase := h.hci.phase
          unfold Protocol.State.Phase at hphase
          rw [hcaller] at hphase
          refine ⟨?_, hphase.1 rfl⟩
          unfold failed
          rw [hcaller]
          rfl
      · cases hstep
  | reset =>
      exact h.callerStep .reset hordered.1 (fun _ => nofun) nofun nofun (fun _ => rfl) hstep
  | ready =>
      exact h.callerStep .ready hordered.1 (fun _ => nofun) nofun nofun (fun _ => rfl) hstep
  | arm => exact h.callerStep .arm hordered.1 (fun _ => nofun) nofun nofun (fun _ => rfl) hstep
  | sent => exact h.callerStep .sent hordered.1 (fun _ => nofun) nofun nofun (fun _ => rfl) hstep
  | notSent err =>
      exact h.callerStep (.notSent err) hordered.1 (fun _ => nofun) nofun nofun (fun _ => rfl) hstep
  | take => exact h.callerStep .take hordered.1 (fun _ => nofun) nofun nofun (fun _ => rfl) hstep
  | timeOut => exact h.callerStep .timeOut hordered.1 (fun _ => nofun) nofun nofun (fun _ => rfl) hstep
  | check => exact h.callerStep .check hordered.1 (fun _ => nofun) nofun nofun (fun _ => rfl) hstep
  | store => exact h.fwdStep .store hordered.1 nofun (fun _ => rfl) hstep
  | clear => exact h.fwdStep .clear hordered.1 nofun (fun _ => rfl) hstep
  | give => exact h.fwdStep .give hordered.1 nofun (fun _ => rfl) hstep

theorem inv_step (s : State) (l : Label) (t : State) (h : Inv s) (hordered : Ordered s l)
    (hstep : machine.step s l = some t) : Inv t := by
  change step s l = some t at hstep
  unfold step at hstep
  split at hstep
  · exact h.stepHci hordered hstep
  · exact h.stepWorker hstep
  · exact h.stepWorker hstep
  · exact h.stepWorker hstep
  · exact h.stepWorker hstep
  · exact h.stepFwd hordered hstep
  · exact h.stepFwd hordered hstep
  · exact h.stepController hstep
  · exact h.stepController hstep
  · exact h.stepControl hstep

/-- **No leak.** Along every run whose steps are in order, a slot is free
whenever nothing is left to free it. -/
theorem noLeak_of_ordered (ls : List Label) (t : State)
    (hordered : machine.RunMeets Ordered initial ls) (hrun : machine.run initial ls = some t) :
    NoLeak t :=
  (machine.run_invariant_of inv_step inv_initial hordered hrun).noLeak

/-- A command of the control thread, answered at once. -/
def promptly : List Label :=
  [.command, .hci .reset, .hci .ready, .hci .arm, .hci .sent, .hci (.answer .brief 0), .hci .look,
    .hci .store, .hci .clear, .hci .give, .test, .hci .take, .hci .check, .hci .release]

/-- An advertisement of a periodic train. -/
def trainReport : List UInt8 :=
  [0x3E, 0x1A, 0x0D, 0x01, 0x00, 0x00, 0x00, 1, 2, 3, 4, 5, 6, 0x01, 0x01, 0x07, 0x7F, 0xC4, 0x40,
    0x00, 0x00, 0, 0, 0, 0, 0, 0, 0x00]

/-- START with periodic following on, then the report of a train, and a Create
Sync that the controller accepts and at once reports as failed. The forwarding
thread has just credited the acceptance. -/
def acceptedThenFailed : List Label :=
  [.setPeriodic true, .start 1] ++ (List.replicate 9 promptly).flatten ++
  .done :: List.replicate 6 .write ++
  [.hci (.other h4Event trainReport), .hci .look, .test, .count ⟨0, 0, 0⟩, .request, .issue,
    .hci .reset, .hci .ready, .hci .arm, .hci .sent, .hci (.answer .brief 0),
    .established .train true 0x3E [], .hci .look, .hci .store, .hci .clear, .hci .give, .test]

/-- The failure waits until the worker has counted the sync. -/
def countedFirst : List Label :=
  acceptedThenFailed ++
    [.hci .take, .hci .check, .hci .release, .tally 0, .hci .look, .test, .count ⟨0, 0, 0⟩]

theorem noLeak_of_ordered_failure :
    ∃ t, machine.run initial countedFirst = some t ∧ Quiet t .train ∧ NoLeak t := by
  obtain ⟨t, ht⟩ := Option.isSome_iff_exists.mp
    (by decide +kernel : (machine.run initial countedFirst).isSome = true)
  refine ⟨t, ht, ?_, noLeak_of_ordered countedFirst t (by decide +kernel) ht⟩
  have hget : t = (machine.run initial countedFirst).get (by decide +kernel) := by simp [ht]
  rw [hget]
  decide +kernel

/-- The forwarding thread comes to the failure before the worker counts. -/
def failedFirst : List Label :=
  acceptedThenFailed ++
    [.hci .look, .test, .count ⟨0, 0, 0⟩, .hci .take, .hci .check, .hci .release, .tally 0]

/-- The slot stays taken with nothing left to free it. -/
theorem failure_before_count : ∃ t, machine.run initial failedFirst = some t ∧
    Quiet t .train ∧ t.ble.follow.syncCount = 1 ∧ ¬ NoLeak t := by
  refine ⟨(machine.run initial failedFirst).get (by decide +kernel), (Option.some_get _).symm, ?_⟩
  decide +kernel

end Nrf54Sniffer.Ble.Slots
