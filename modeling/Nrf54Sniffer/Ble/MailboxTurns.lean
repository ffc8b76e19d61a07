/-
Nrf54Sniffer.Ble.MailboxTurns — a BIG request always has its turn, and a refused
one is not made again at once.

`big_pending` shuts the mailbox, so a request that got stuck would end every
later join. `turns` counts what a state is still good for: each step of the two
threads uses one up, only a report that is looked at adds some, and while the
mailbox is shut some step is left to take.

A failed join puts `big_retry_at` five seconds on. That holds back the reports
looked at from then on. One the forwarding thread has already looked at may
still be posted, and no more than that one.
-/
import Nrf54Sniffer.Ble.MailboxTheorems
import Nrf54Sniffer.Lib.Potential

namespace Nrf54Sniffer.Ble.Mailbox

open Nrf54Sniffer.Lib

/-! ## What a step does -/

/-- The steps, each with what it was taken on: one for each outcome. -/
inductive Takes (s : State) : Label → State → Prop
  | ignored {report : List UInt8} {uptime : Int} (hidle : s.poster = .idle) :
      Takes s (.look report uptime) s
  | looked {report block : List UInt8} {uptime : Int} (hidle : s.poster = .idle)
      (hdue : s.retryAt ≤ uptime) (hjoins : Joins report block) :
      Takes s (.look report uptime) { s with poster := .built report block }
  | shut {report block : List UInt8} (hposter : s.poster = .built report block)
      (hpending : s.pending = true) : Takes s .post { s with poster := .idle }
  | won {report block : List UInt8} (hposter : s.poster = .built report block)
      (hpending : s.pending = false) :
      Takes s .post { s with pending := true, poster := .copying block 0
                             wins := s.wins ++ [report] }
  | copied {block : List UInt8} {i : Nat} {byte : UInt8} (hposter : s.poster = .copying block i)
      (hbyte : block[i]? = some byte) :
      Takes s .post { s with params := s.params.set i byte, poster := .copying block (i + 1) }
  | stored {block : List UInt8} {i : Nat} (hposter : s.poster = .copying block i)
      (hend : block.length ≤ i) : Takes s .post { s with len := block.length, poster := .stored }
  | handedOn (hposter : s.poster = .stored) :
      Takes s .post { s with submitted := true, poster := .idle }
  | took (hworker : s.worker = .idle) (hsubmitted : s.submitted = true) :
      Takes s .work { s with submitted := false, worker := .took }
  | tested (hworker : s.worker = .took) :
      Takes s .work { s with worker := if s.running then .reading s.len [] else .returned false }
  | read {len : Nat} {bytes : List UInt8} {byte : UInt8} (hworker : s.worker = .reading len bytes)
      (hlt : bytes.length < len) :
      Takes s .work { s with worker := .reading len (bytes ++ [byte]) }
  | cleared (hworker : s.worker = .noted) :
      Takes s .work { s with pending := false, worker := .idle }
  | sent {len : Nat} {bytes : List UInt8} (hworker : s.worker = .reading len bytes)
      (hread : len ≤ bytes.length) :
      Takes s .send { s with worker := .awaiting
                             sent := s.sent ++ [⟨s.wins.length - 1, bytes⟩] }
  | failed {len : Nat} {bytes : List UInt8} (hworker : s.worker = .reading len bytes) :
      Takes s .fail { s with worker := .returned false }
  | answered {joined : Bool} (hworker : s.worker = .awaiting) :
      Takes s (.answer joined) { s with worker := .returned joined }
  | joined {uptime : Int} (hworker : s.worker = .returned true) :
      Takes s (.note uptime) { s with synced := true, worker := .noted }
  | refused {uptime : Int} (hworker : s.worker = .returned false) :
      Takes s (.note uptime) { s with retryAt := uptime + bigRetryMs, worker := .noted }
  | elsewhere {running synced : Bool} {retryAt : Int} :
      Takes s (.elsewhere running synced retryAt) { s with running, synced, retryAt }

/-- A report looked at while the retry is not due is not posted. -/
theorem joinBlock_due {synced : Bool} {retryAt uptime : Int} {hci block : List UInt8}
    (h : joinBlock synced retryAt hci uptime = some (some block)) : retryAt ≤ uptime := by
  refine Decidable.byContradiction fun hearly => ?_
  simp only [joinBlock, Int.not_le.mp hearly, or_true, if_true] at h
  split at h
  · cases h
  · simp only [Option.bind_eq_bind, Option.bind_eq_some_iff] at h
    obtain ⟨code, -, sub, -, h⟩ := h
    split at h <;> cases h

theorem look_takes {s t : State} {report : List UInt8} {uptime : Int} (hidle : s.poster = .idle)
    (h : look s report uptime = some t) : Takes s (.look report uptime) t := by
  unfold look at h
  obtain ⟨r, hr, hjoins⟩ := joinBlock_spec s.synced s.retryAt report uptime
  rw [hr] at h
  cases r with
  | none =>
      cases h
      exact .ignored hidle
  | some block =>
      cases h
      exact .looked hidle (joinBlock_due hr) (hjoins block rfl)

theorem post_takes {s t : State} (h : post s = some t) : Takes s .post t := by
  unfold post at h
  split at h
  · cases h
  · rename_i hposter
    split at h
    · rename_i hpending
      cases h
      exact .shut hposter hpending
    · rename_i hpending
      cases h
      exact .won hposter (by simpa using hpending)
  · rename_i hposter
    split at h
    · rename_i hbyte
      cases h
      exact .copied hposter hbyte
    · rename_i hend
      cases h
      exact .stored hposter (by simpa using hend)
  · rename_i hposter
    cases h
    exact .handedOn hposter

theorem work_takes {s t : State} (h : work s = some t) : Takes s .work t := by
  unfold work at h
  split at h
  · rename_i hworker
    split at h
    · rename_i hsubmitted
      cases h
      exact .took hworker hsubmitted
    · cases h
  · rename_i hworker
    cases h
    exact .tested hworker
  · rename_i hworker
    split at h
    · rename_i hlt
      obtain ⟨byte, -, heq⟩ := Option.map_eq_some_iff.mp h
      cases heq
      exact .read hworker hlt
    · cases h
  · rename_i hworker
    cases h
    exact .cleared hworker
  · cases h

theorem step_takes {s t : State} {l : Label} (h : step s l = some t) : Takes s l t := by
  cases l with
  | look report uptime =>
      obtain ⟨hidle, h⟩ := Option.ite_none_right_eq_some.mp h
      exact look_takes hidle h
  | post => exact post_takes h
  | work => exact work_takes h
  | send =>
      simp only [step] at h
      split at h
      · rename_i hworker
        split at h
        · cases h
        · rename_i hread
          cases h
          exact .sent hworker (Nat.le_of_not_lt hread)
      · cases h
  | fail =>
      simp only [step] at h
      split at h
      · rename_i hworker
        cases h
        exact .failed hworker
      · cases h
  | answer joined =>
      simp only [step] at h
      split at h
      · rename_i hworker
        cases h
        exact .answered hworker
      · cases h
  | note uptime =>
      simp only [step] at h
      split at h
      · rename_i hworker
        cases h
        exact .joined hworker
      · rename_i hworker
        cases h
        exact .refused hworker
      · cases h
  | elsewhere running synced retryAt =>
      cases h
      exact .elsewhere

/-! ## The turns there are -/

/-- The steps of the two threads on a request, and the outcome of its command. -/
def Label.works : Label → Bool
  | .post | .work | .send | .fail | .answer _ | .note _ => true
  | .look .. | .elsewhere .. => false

def Label.looks : Label → Bool
  | .look .. => true
  | _ => false

/-- The turns of the work item from here to `atomic_clear`. -/
def Worker.turns (len : Nat) : Worker → Nat
  | .idle => 0
  | .took => len + 5
  | .reading n bytes => (n - bytes.length) + 4
  | .awaiting => 3
  | .returned _ => 2
  | .noted => 1

/-- Those of a request the forwarding thread is still to hand on. -/
def Poster.turns (len : Nat) : Poster → Nat
  | .idle => 0
  | .built _ block => 2 * block.length + 9
  | .copying block i => (block.length - i) + block.length + 8
  | .stored => len + 7

def turns (s : State) : Nat :=
  s.poster.turns s.len + (if s.submitted then s.len + 6 else 0) + s.worker.turns s.len

/-- A report that is looked at adds no more. -/
def lookTurns : Nat := 2 * (25 + maxBis) + 9

/-- **One step** uses up a turn, or looks at a report. -/
theorem turns_step {s t : State} {l : Label} (h : Held s) (hstep : step s l = some t) :
    turns t + (if l.works then 1 else 0) ≤ turns s + (if l.looks then lookTurns else 0) := by
  cases step_takes hstep with
  | ignored _ => simp [Label.works, Label.looks]
  | looked hidle _ hjoins =>
      have hfits := hjoins.fits
      simp only [Label.works, Label.looks, turns, hidle, Poster.turns, lookTurns]
      simp
      omega
  | shut hposter _ =>
      simp only [Label.works, Label.looks, turns, hposter, Poster.turns, Bool.false_eq_true,
        if_true, if_false]
      omega
  | won hposter _ =>
      simp only [Label.works, Label.looks, turns, hposter, Poster.turns, Bool.false_eq_true,
        if_true, if_false]
      omega
  | copied hposter hbyte =>
      obtain ⟨hlt, -⟩ := List.getElem?_eq_some_iff.mp hbyte
      simp only [Label.works, Label.looks, turns, hposter, Poster.turns, Bool.false_eq_true,
        if_true, if_false]
      omega
  | stored hposter _ =>
      -- the length is stored for a work item that is neither queued nor at work
      obtain ⟨-, hsubmitted, hbusy⟩ := h.owner (by rw [hposter]; rfl)
      have hworker : s.worker = .idle := by
        cases hw : s.worker with
        | idle => rfl
        | _ => rw [hw] at hbusy; cases hbusy
      simp [Label.works, Label.looks, turns, hposter, Poster.turns, hsubmitted, hworker,
        Worker.turns]
  | handedOn hposter =>
      obtain ⟨-, hsubmitted, -⟩ := h.owner (by rw [hposter]; rfl)
      simp only [Label.works, Label.looks, turns, hposter, Poster.turns, hsubmitted,
        Bool.false_eq_true, if_true, if_false]
      omega
  | took hworker hsubmitted =>
      simp only [Label.works, Label.looks, turns, hworker, hsubmitted, Worker.turns,
        Bool.false_eq_true, if_true, if_false]
      omega
  | tested hworker =>
      cases hrunning : s.running with
      | false =>
          simp only [Label.works, Label.looks, turns, hworker, Worker.turns, Bool.false_eq_true,
            if_true, if_false]
          omega
      | true =>
          simp only [Label.works, Label.looks, turns, hworker, Worker.turns, Bool.false_eq_true,
            if_true, if_false, List.length_nil]
          omega
  | read hworker hlt =>
      simp only [Label.works, Label.looks, turns, hworker, Worker.turns, Bool.false_eq_true,
        if_true, if_false, List.length_append, List.length_singleton]
      omega
  | cleared hworker => simp [Label.works, Label.looks, turns, hworker, Worker.turns]
  | sent hworker _ =>
      simp only [Label.works, Label.looks, turns, hworker, Worker.turns, Bool.false_eq_true,
        if_true, if_false]
      omega
  | failed hworker =>
      simp only [Label.works, Label.looks, turns, hworker, Worker.turns, Bool.false_eq_true,
        if_true, if_false]
      omega
  | answered hworker => simp [Label.works, Label.looks, turns, hworker, Worker.turns]
  | joined hworker => simp [Label.works, Label.looks, turns, hworker, Worker.turns]
  | refused hworker => simp [Label.works, Label.looks, turns, hworker, Worker.turns]
  | elsewhere => simp [Label.works, Label.looks, turns]

/-! ## No request is left lying -/

/-- A request at work is no longer than the mailbox. -/
theorem reading_fits {s : State} {len : Nat} {bytes : List UInt8} (h : Kept s)
    (hworker : s.worker = .reading len bytes) : len ≤ s.params.length := by
  obtain ⟨hlen, -, -⟩ := h.carried.reads len bytes hworker
  have hrequested : s.Requested := .inr (by rw [hworker]; simp)
  obtain ⟨report, -, hjoins⟩ := h.carried.mail hrequested
  obtain ⟨numBis, -, hblock⟩ := hjoins.length
  have hsize := h.carried.size
  have hle := Nat.min_le_right numBis.toNat maxBis
  rw [List.length_take] at hblock
  rw [hlen]
  omega

/-- Where no step but a failed `bt_send` is left, nobody holds the mailbox. -/
theorem stuck_free {s : State} (h : Kept s)
    (hstuck : machine.Stuck (fun l => l.works = true ∧ l ≠ .fail) s) :
    s.poster = .idle ∧ s.submitted = false ∧ s.worker = .idle := by
  have hposter : s.poster = .idle := by
    have hpost := hstuck .post ⟨rfl, by simp⟩
    simp only [machine, step, post] at hpost
    split at hpost
    · assumption
    · split at hpost <;> cases hpost
    · split at hpost <;> cases hpost
    · cases hpost
  have hwork := hstuck .work ⟨rfl, by simp⟩
  simp only [machine, step, work] at hwork
  have hworker : s.worker = .idle := by
    cases hw : s.worker with
    | idle => rfl
    | took => simp [hw] at hwork
    | reading len bytes =>
        -- it has another byte to read, or all of them to send
        have hsend := hstuck .send ⟨rfl, by simp⟩
        have hfits := reading_fits h hw
        simp only [machine, step, hw] at hsend
        simp only [hw] at hwork
        split at hsend
        · rename_i hlt
          simp [hlt] at hwork
          omega
        · cases hsend
    | awaiting =>
        have hanswer := hstuck (.answer true) ⟨rfl, by simp⟩
        simp [machine, step, hw] at hanswer
    | returned joined =>
        have hnote := hstuck (.note 0) ⟨rfl, by simp⟩
        cases joined <;> simp [machine, step, hw] at hnote
    | noted => simp [hw] at hwork
  refine ⟨hposter, ?_, hworker⟩
  cases hsubmitted : s.submitted with
  | false => rfl
  | true => simp [hworker, hsubmitted] at hwork

/-- **The mailbox never sticks.** However the forwarding thread and the work item
are interleaved, and whatever the other threads write meanwhile: the turns taken
are bounded by the reports looked at; while `big_pending` is set a turn is left
to take; and once none is left, `big_pending` is clear and every report that
won the mailbox has had its command, or its turn refused. -/
theorem mailbox_never_sticks {running synced : Bool} {retryAt : Int} {labels : List Label}
    {s : State} (hrun : machine.run (initial running synced retryAt) labels = some s) :
    labels.countP Label.works ≤ lookTurns * labels.countP Label.looks ∧
    (s.pending = true → ¬ machine.Stuck (fun l => l.works = true ∧ l ≠ .fail) s) ∧
    (machine.Stuck (fun l => l.works = true ∧ l ≠ .fail) s →
      s.pending = false ∧ s.settled = s.wins.length) := by
  have hkept := kept_run hrun
  have hfree : machine.Stuck (fun l => l.works = true ∧ l ≠ .fail) s →
      s.pending = false ∧ s.settled = s.wins.length := by
    intro hstuck
    obtain ⟨hposter, hsubmitted, hworker⟩ := stuck_free hkept hstuck
    have hheld := hkept.held
    constructor
    · cases hpending : s.pending with
      | false => rfl
      | true =>
          simp [Held, holders, hposter, hsubmitted, hworker, hpending, Poster.owns, Worker.busy]
            at hheld
    · simp [State.settled, State.unsent, hposter, hsubmitted, hworker, Poster.owns, Worker.unsent]
  refine ⟨?_, ?_, hfree⟩
  · have hbound := machine.run_potential (fun _ _ _ h hstep => held_step h hstep)
      (fun _ _ _ h hstep => Nat.add_le_add_right (turns_step h hstep) 0)
      (kept_initial running synced retryAt).held hrun
    rw [Machine.total_countP, Machine.total_countP] at hbound
    have hstart : turns (initial running synced retryAt) = 0 := rfl
    omega
  · intro hpending hstuck
    rw [(hfree hstuck).1] at hpending
    cases hpending

/-- Of two reports the second finds the mailbox shut. -/
theorem mailbox_never_sticks_two_reports :
    twoReports.countP Label.works ≤ lookTurns * 2 ∧
    ∃ s, machine.run (initial true false 0) twoReports = some s ∧ s.settled = 1 := by
  have hruns : ((machine.run (initial true false 0) twoReports).any fun s => s.settled == 1)
      = true := by decide +kernel
  obtain ⟨s, hrun, hone⟩ := (Option.any_eq_true _ _).mp hruns
  exact ⟨(mailbox_never_sticks hrun).1, s, hrun, beq_iff_eq.mp hone⟩

/-! ## A refused join waits -/

/-- The forwarding thread has looked at a report it is to post. -/
def Poster.looked : Poster → Bool
  | .built .. => true
  | _ => false

/-- The commands a state is still good for. -/
def commands (s : State) : Nat := s.unsent.toNat + s.poster.looked.toNat

/-- A report looked at five seconds after `now`, or later. -/
def Label.late (now : Int) : Label → Bool
  | .look _ uptime => decide (now + bigRetryMs ≤ uptime)
  | _ => false

/-- A step after `now` that is none of a START's: the clock does not go back, and
`big_retry_at` is put further on if it is put at all. -/
def Since (now : Int) (_ : State) : Label → Prop
  | .note uptime => now ≤ uptime
  | .elsewhere _ _ retryAt => now + bigRetryMs ≤ retryAt
  | _ => True

instance (now : Int) (s : State) : (l : Label) → Decidable (Since now s l)
  | .note uptime => inferInstanceAs (Decidable (now ≤ uptime))
  | .elsewhere _ _ retryAt => inferInstanceAs (Decidable (now + bigRetryMs ≤ retryAt))
  | .look .. | .post | .work | .send | .fail | .answer _ => inferInstanceAs (Decidable True)

/-- The retry stays put off. -/
theorem retryAt_step {now : Int} {s t : State} {l : Label} (h : now + bigRetryMs ≤ s.retryAt)
    (hsince : Since now s l) (hstep : step s l = some t) : now + bigRetryMs ≤ t.retryAt := by
  cases step_takes hstep with
  | refused _ => exact Int.add_le_add_right hsince _
  | elsewhere => exact hsince
  | _ => exact h

/-- **One step** sends what the state was good for; a report posted again was
looked at five seconds later. -/
theorem commands_step {now : Int} {s t : State} {l : Label} (hheld : Held s)
    (hretry : now + bigRetryMs ≤ s.retryAt) (hstep : step s l = some t) :
    commands t + (if l == .send then 1 else 0) ≤ commands s + (if l.late now then 1 else 0) := by
  cases step_takes hstep with
  | ignored _ => simp
  | looked hidle hdue _ =>
      have hlate : now + bigRetryMs ≤ _ := Int.le_trans hretry hdue
      simp [Label.late, hlate, commands, State.unsent, hidle, Poster.owns, Poster.looked]
  | shut hposter _ =>
      simp [Label.late, commands, State.unsent, hposter, Poster.owns, Poster.looked]
  | won hposter hpending =>
      -- an open mailbox has no request in it
      obtain ⟨-, hsubmitted, hbusy⟩ := hheld.free hpending
      have hunsent : s.worker.unsent = false := by
        cases hw : s.worker with
        | idle => rfl
        | _ => rw [hw] at hbusy; cases hbusy
      simp [Label.late, commands, State.unsent, hposter, hsubmitted, hunsent, Poster.owns,
        Poster.looked]
  | copied hposter _ =>
      simp [Label.late, commands, State.unsent, hposter, Poster.owns, Poster.looked]
  | stored hposter _ =>
      simp [Label.late, commands, State.unsent, hposter, Poster.owns, Poster.looked]
  | handedOn hposter =>
      simp [Label.late, commands, State.unsent, hposter, Poster.owns, Poster.looked]
  | took hworker hsubmitted =>
      simp [Label.late, commands, State.unsent, hworker, hsubmitted, Worker.unsent]
  | tested hworker =>
      cases hrunning : s.running <;>
        simp [Label.late, commands, State.unsent, hworker, Worker.unsent, Bool.toNat_le]
  | read hworker _ => simp [Label.late, commands, State.unsent, hworker, Worker.unsent]
  | cleared hworker => simp [Label.late, commands, State.unsent, hworker, Worker.unsent]
  | sent hworker _ =>
      obtain ⟨-, howns, hsubmitted⟩ := hheld.working (by rw [hworker]; rfl)
      simp only [Label.late, commands, State.unsent, hworker, howns, hsubmitted, Worker.unsent,
        Bool.or_false, Bool.or_true, Bool.toNat_true, Bool.toNat_false, Bool.false_eq_true, if_true,
        if_false, beq_self_eq_true]
      omega
  | failed hworker =>
      simp [Label.late, commands, State.unsent, hworker, Worker.unsent, Bool.toNat_le]
  | answered hworker => simp [Label.late, commands, State.unsent, hworker, Worker.unsent]
  | joined hworker => simp [Label.late, commands, State.unsent, hworker, Worker.unsent]
  | refused hworker => simp [Label.late, commands, State.unsent, hworker, Worker.unsent]
  | elsewhere => simp [Label.late, commands, State.unsent]

/-- **A refused join is not asked again for five seconds**, but for a report the
forwarding thread had already looked at. From the moment a failure is noted,
until a START, and however the two threads are interleaved: the BIG Create Syncs
sent are at most that one and the reports looked at five seconds later or more. -/
theorem refused_join_waits {running synced : Bool} {retryAt now : Int} {before ls : List Label}
    {s t u : State} (hbefore : machine.run (initial running synced retryAt) before = some s)
    (hrefused : s.worker = .returned false) (hnote : step s (.note now) = some t)
    (hsince : machine.RunMeets (Since now) t ls) (hrun : machine.run t ls = some u) :
    ls.countP (· == .send) ≤ t.poster.looked.toNat + ls.countP (Label.late now) := by
  have hheld : Held t := held_step (kept_run hbefore).held hnote
  have hnoted : t.worker = .noted ∧ t.retryAt = now + bigRetryMs := by
    cases step_takes hnote with
    | joined hworker => rw [hworker] at hrefused; cases hrefused
    | refused _ => exact ⟨rfl, rfl⟩
  -- the request that failed is through, and no other is in the mailbox yet
  have hthrough : t.unsent = false := by
    obtain ⟨-, howns, hsubmitted⟩ := hheld.working (by rw [hnoted.1]; rfl)
    simp [State.unsent, howns, hsubmitted, hnoted.1, Worker.unsent]
  have hbound := machine.run_potential_of (I := fun s => Held s ∧ now + bigRetryMs ≤ s.retryAt)
    (fun _ _ _ h hcond hstep => ⟨held_step h.1 hstep, retryAt_step h.2 hcond hstep⟩)
    (fun _ _ _ h _ hstep => Nat.add_le_add_right (commands_step h.1 h.2 hstep) 0)
    ⟨hheld, Int.le_of_eq hnoted.2.symm⟩ hsince hrun
  rw [Machine.total_countP, Machine.total_countP] at hbound
  simp only [commands, hthrough, Bool.toNat_false] at hbound
  omega

/-- A join is refused at 100 ms. One report had been looked at by then, and is
sent; one at 5000 ms is not posted. -/
def refusedJoin : List Label :=
  [.look threeStreams 0] ++ List.replicate 29 .post ++ List.replicate 28 .work ++
    [.send, .answer false, .look oneStream 50]

def afterRefusal : List Label :=
  [.work] ++ List.replicate 28 .post ++ List.replicate 27 .work ++
    [.send, .answer true, .note 120, .work, .look threeStreams 5000]

theorem refused_join_waits_two_reports :
    afterRefusal.countP (· == .send) = 1 ∧
    ∃ s t u, machine.run (initial true false 0) refusedJoin = some s ∧
      step s (.note 100) = some t ∧ machine.run t afterRefusal = some u ∧
      afterRefusal.countP (· == .send)
        ≤ t.poster.looked.toNat + afterRefusal.countP (Label.late 100) := by
  have hruns : ((machine.run (initial true false 0) refusedJoin).any fun s =>
      s.worker == .returned false && (step s (.note 100)).any fun t =>
        decide (machine.RunMeets (Since 100) t afterRefusal) &&
          (machine.run t afterRefusal).isSome) = true := by decide +kernel
  obtain ⟨s, hs, hruns⟩ := (Option.any_eq_true _ _).mp hruns
  obtain ⟨hrefused, hruns⟩ := Bool.and_eq_true_iff.mp hruns
  obtain ⟨t, ht, hruns⟩ := (Option.any_eq_true _ _).mp hruns
  obtain ⟨hsince, hruns⟩ := Bool.and_eq_true_iff.mp hruns
  obtain ⟨u, hu⟩ := Option.isSome_iff_exists.mp hruns
  exact ⟨by decide, s, t, u, hs, ht, hu,
    refused_join_waits hs (beq_iff_eq.mp hrefused) ht (of_decide_eq_true hsince) hu⟩

end Nrf54Sniffer.Ble.Mailbox
