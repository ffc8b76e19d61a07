/-
Nrf54Sniffer.Ble.RequestTheorems — which capture a request is sent in.

Along every run whose steps are `Separate` each request is sent in the capture
of the packet that caused it (`contained_of_separate`). Not along every run: a
work item past its test of `running` waits for the lock that STOP holds, and
sends after STOP's Reset (`request_after_stop`).

What waits in the three places is of the capture that runs, if one runs, or of the
one that `scan_started` is about to begin (`Waiting`), and a work item that passes its test keeps that capture from ending
until it has sent (`Inv.bound`).
-/
import Nrf54Sniffer.Ble.RequestTurns

namespace Nrf54Sniffer.Ble.Requests

open Nrf54Sniffer.Lib
open Nrf54Sniffer.Wire

/-! ## The invariant -/

/-- What waits is of the capture that runs, if one runs; in a place `scan_started`
has emptied, of the one about to begin; and the mailbox is taken until the outcome
of its request is noted. -/
structure Waiting (s : State) : Prop where
  queue : ∀ cause ∈ s.causes.sync, s.Fits s.control.emptiedQueue cause
  handles : s.ble.follow.bisHandles ≠ [] → s.Fits s.control.emptiedHandles s.causes.paths
  mail : s.ble.follow.bigWork = true → s.Current s.causes.big
  held : ∀ job ∈ s.worker.untested, s.Current (s.cause job)
  pending : s.ble.follow.bigWork = true ∨ s.worker.job = some .broadcast →
    s.ble.follow.bigPending = true
  single : s.worker.job = some .broadcast → s.ble.follow.bigWork = false

structure Inv (s : State) : Prop where
  waiting : Waiting s
  bound : ∀ job ∈ s.worker.bound, s.capture = some (s.cause job)
  exclusive : s.worker.holds = true → s.control.holds = false
  started : ∀ opcodes ∈ s.control.starting, opReset ∈ opcodes ∨ s.capture = none
  contained : Contained s

theorem inv_initial : Inv initial where
  waiting :=
    { queue := by simp [initial]
      handles := by simp [initial]
      mail := by simp [initial]
      held := by simp [initial, Worker.untested]
      pending := by simp [initial, Worker.job]
      single := by simp [initial] }
  bound := by simp [initial, Worker.bound]
  exclusive := by simp [initial, Control.holds]
  started := by simp [initial]
  contained := by simp [initial, Contained]

/-- What the invariant reads of a state. -/
def State.view (s : State) :
    (Bool × List UInt16 × Bool × Bool) × Causes × Nat × Option Nat × Worker × Control ×
      List Sent :=
  ((s.ble.running, s.ble.follow.bisHandles, s.ble.follow.bigWork, s.ble.follow.bigPending),
    s.causes, s.session, s.capture, s.worker, s.control, s.sent)

theorem Inv.of_view {s t : State} (h : Inv s) (hview : t.view = s.view) : Inv t := by
  simp only [State.view, Prod.mk.injEq] at hview
  obtain ⟨⟨hrunning, hhandles, hwork, hpending⟩, hcauses, hsession, hcapture, hworker, hcontrol,
    hsent⟩ := hview
  have hcurrent : ∀ cause, s.Current cause → t.Current cause :=
    fun _ hc => hc.congr hrunning hcapture
  have hfits : ∀ emptied cause, s.Fits emptied cause → t.Fits emptied cause :=
    fun _ cause hc => ⟨hcurrent cause hc.1, fun he => (hc.2 he).trans hsession.symm⟩
  have hcause : ∀ job, t.cause job = s.cause job := cause_congr (by rw [hcauses])
  exact {
    waiting :=
      { queue := by
          rw [hcauses, hcontrol]
          exact fun cause hc => hfits _ _ (h.waiting.queue cause hc)
        handles := by
          rw [hhandles, hcauses, hcontrol]
          exact fun hne => hfits _ _ (h.waiting.handles hne)
        mail := by
          rw [hwork, hcauses]
          exact fun hw => hcurrent _ (h.waiting.mail hw)
        held := by
          intro job hjob
          rw [hcause job]
          exact hcurrent _ (h.waiting.held job (hworker ▸ hjob))
        pending := by
          rw [hwork, hworker, hpending]
          exact h.waiting.pending
        single := by
          rw [hworker, hwork]
          exact h.waiting.single }
    bound := by
      intro job hjob
      rw [hcause job, hcapture]
      exact h.bound job (hworker ▸ hjob)
    exclusive := by
      rw [hworker, hcontrol]
      exact h.exclusive
    started := by
      rw [hcontrol, hcapture]
      exact h.started
    contained := by
      unfold Contained
      rw [hsent]
      exact h.contained }

/-! ## The worker -/

/-- The worker goes on, and nothing else changes. -/
theorem Inv.goes {s : State} (h : Inv s) (worker : Worker)
    (hheld : ∀ job ∈ worker.untested, s.Current (s.cause job))
    (hbound : ∀ job ∈ worker.bound, s.capture = some (s.cause job))
    (hjob : worker.job = some .broadcast → s.worker.job = some .broadcast)
    (hholds : worker.holds = true → s.control.holds = false) :
    Inv { s with worker } where
  waiting :=
    { queue := h.waiting.queue
      handles := h.waiting.handles
      mail := h.waiting.mail
      held := hheld
      pending := fun hw => h.waiting.pending (hw.imp_right hjob)
      single := fun hw => h.waiting.single (hjob hw) }
  bound := hbound
  exclusive := hholds
  started := h.started
  contained := h.contained

/-- The worker goes where it has no request. -/
theorem Inv.leaves {s : State} (h : Inv s) (worker : Worker) (hjob : worker.job = none) :
    Inv { s with worker } := by
  cases worker with
  | idle => exact h.goes .idle nofun nofun nofun nofun
  | syncing => exact h.goes .syncing nofun nofun nofun nofun
  | pathing i => exact h.goes (.pathing i) nofun nofun nofun nofun
  | _ => cases hjob

theorem Inv.stepIdle {s t : State} {l : Label} (h : Inv s) (hstep : stepIdle s l = some t) :
    Inv t := by
  unfold Requests.stepIdle at hstep
  split at hstep
  -- `.runSync`
  · obtain ⟨-, hstep⟩ := Option.ite_none_right_eq_some.mp hstep
    cases hstep
    have hflag : Inv { s with
        ble := { s.ble with follow := { s.ble.follow with syncWork := false } } } :=
      h.of_view rfl
    exact hflag.leaves .syncing rfl
  -- `.runBig`
  · obtain ⟨hwork, hstep⟩ := Option.ite_none_right_eq_some.mp hstep
    cases hstep
    have hmail := h.waiting.mail hwork
    exact {
      waiting :=
        { queue := h.waiting.queue
          handles := h.waiting.handles
          mail := nofun
          held := by
            intro job hjob
            cases hjob
            exact hmail
          pending := fun _ => h.waiting.pending (.inl hwork)
          single := fun _ => rfl }
      bound := nofun
      exclusive := nofun
      started := h.started
      contained := h.contained }
  -- `.runPaths`
  · obtain ⟨-, hstep⟩ := Option.ite_none_right_eq_some.mp hstep
    cases hstep
    have hflag : Inv { s with ble := beginIsoPathWork s.ble } := h.of_view rfl
    exact hflag.leaves (.pathing 0) rfl
  · cases hstep

theorem Inv.takeReq {s : State} (h : Inv s) : Inv (takeReq s) := by
  unfold Requests.takeReq
  split
  · next req syncQ cause sync hqueue hcauses =>
      have hmem : ∀ c ∈ cause :: sync, s.Fits s.control.emptiedQueue c :=
        hcauses ▸ h.waiting.queue
      exact {
        waiting :=
          { queue := fun c hc => hmem c (List.mem_cons_of_mem _ hc)
            handles := h.waiting.handles
            mail := h.waiting.mail
            held := by
              intro job hjob
              cases hjob
              exact (hmem cause List.mem_cons_self).1
            pending := fun hw => h.waiting.pending (.inl (hw.resolve_right nofun))
            single := nofun }
        bound := nofun
        exclusive := nofun
        started := h.started
        contained := h.contained }
  · exact h.leaves .idle rfl

theorem Inv.takeHandle {s : State} (h : Inv s) (i : Nat) : Inv (takeHandle s i) := by
  unfold Requests.takeHandle
  split
  · next handle hhandle =>
      have hsome : s.ble.follow.bisHandles ≠ [] := by
        intro hnil
        simp [hnil] at hhandle
      refine h.goes _ ?_ nofun nofun nofun
      intro job hjob
      cases hjob
      exact (h.waiting.handles hsome).1
  · exact h.leaves .idle rfl

/-- A test passed has found `running` set. -/
theorem may_running {s : BleRadio} {job : Job} (h : may s job = true) : s.running = true := by
  cases job with
  | train req cause =>
      simp only [may, mayCreateSync, Bool.and_eq_true] at h
      exact h.1.1
  | broadcast => exact h
  | path i handle cause => exact h

/-- The test: a request that passes is of the capture that runs. -/
theorem Inv.test {s : State} (h : Inv s) {job : Job} (htook : s.worker = .took job)
    (hseparate : may s.ble job = true → s.capture ≠ none) :
    Inv { s with worker := if may s.ble job then .ready job else job.refused } := by
  split
  · next hmay =>
      obtain ⟨n, hn⟩ := Option.ne_none_iff_exists'.mp (hseparate hmay)
      have hheld : s.Current (s.cause job) := h.waiting.held job (by rw [htook]; rfl)
      have hcause : s.cause job = n := hheld (may_running hmay) n hn
      refine h.goes (.ready job) nofun ?_ (fun hjob => by rw [htook]; exact hjob) nofun
      intro job' hjob'
      cases hjob'
      rw [hcause, hn]
  · cases job with
    | train req cause => exact h.leaves .syncing rfl
    | broadcast =>
        exact h.goes (.returned .broadcast false) nofun nofun (fun _ => by rw [htook]; rfl) nofun
    | path i handle cause => exact h.leaves .idle rfl

/-- The command goes out in the capture its request is of. -/
theorem Inv.issue {s : State} (h : Inv s) {job : Job} (hlocked : s.worker = .locked job) :
    Inv (s.issue job) := by
  have hcapture : s.capture = some (s.cause job) := h.bound job (by rw [hlocked]; rfl)
  have hgone : Inv { s with worker := .awaiting job } := by
    refine h.goes (.awaiting job) nofun nofun (fun hjob => by rw [hlocked]; exact hjob) fun _ => ?_
    exact h.exclusive (by rw [hlocked]; rfl)
  exact { hgone with
    waiting := { hgone.waiting with }
    contained := by
      intro r hr
      rcases List.mem_append.mp hr with hr | hr
      · exact h.contained r hr
      · cases List.mem_singleton.mp hr
        exact hcapture }

/-- The outcome is noted, and the mailbox freed. -/
theorem Inv.note {s : State} (h : Inv s) {job : Job} {ok : Bool} (uptime : Int)
    (hreturned : s.worker = .returned job ok) :
    Inv { s with ble := noted s.ble ok uptime job, worker := job.next } := by
  cases job with
  | train req cause =>
      have hcounted : Inv { s with ble := noted s.ble ok uptime (.train req cause) } := by
        cases ok with
        | true => exact h.of_view rfl
        | false => exact h
      exact hcounted.leaves .syncing rfl
  | path i handle cause => exact h.leaves (.pathing (i + 1)) rfl
  | broadcast =>
      have hsingle : s.ble.follow.bigWork = false := h.waiting.single (by rw [hreturned]; rfl)
      have hnoted : (noted s.ble ok uptime .broadcast).running = s.ble.running ∧
          (noted s.ble ok uptime .broadcast).follow.bisHandles = s.ble.follow.bisHandles ∧
          (noted s.ble ok uptime .broadcast).follow.bigWork = s.ble.follow.bigWork := by
        cases ok with
        | true => exact ⟨rfl, rfl, rfl⟩
        | false => exact ⟨rfl, rfl, rfl⟩
      obtain ⟨hrunning, hhandles, hwork⟩ := hnoted
      have hcurrent : ∀ cause, s.Current cause → State.Current
          { s with ble := noted s.ble ok uptime .broadcast, worker := .idle } cause :=
        fun _ hc => hc.congr hrunning rfl
      have hidle : ¬ (noted s.ble ok uptime .broadcast).follow.bigWork = true := by
        simp [hwork, hsingle]
      exact {
        waiting :=
          { queue := fun cause hc => (h.waiting.queue cause hc).imp_left (hcurrent cause)
            handles := fun hne => (h.waiting.handles (hhandles ▸ hne)).imp_left (hcurrent _)
            mail := fun hw => absurd hw hidle
            held := nofun
            pending := fun hw => absurd (hw.resolve_right nofun) hidle
            single := nofun }
        bound := nofun
        exclusive := nofun
        started := h.started
        contained := h.contained }

theorem Inv.stepWorker {s t : State} {l : Label} (h : Inv s)
    (hseparate : Separate s l) (hstep : stepWorker s l = some t) : Inv t := by
  unfold Requests.stepWorker at hstep
  split at hstep
  · exact h.stepIdle hstep
  -- `.take`
  · cases hstep
    exact h.takeReq
  · cases hstep
    exact h.takeHandle _
  -- `.test`
  · next job htook =>
      cases hstep
      exact h.test htook (hseparate job (by rw [htook]; rfl))
  -- `.work .lock`
  · next job hready =>
      split at hstep
      · cases hstep
      · next hfree =>
          cases hstep
          refine h.goes (.locked job) nofun ?_ (fun hjob => by rw [hready]; exact hjob) ?_
          · intro job' hjob'
            cases hjob'
            exact h.bound job (by rw [hready]; rfl)
          · intro _
            simpa using hfree
  -- `.work .send`
  · next job hlocked =>
      cases hstep
      exact h.issue hlocked
  -- `.work .fail`
  · next job hlocked =>
      cases hstep
      exact h.goes _ nofun nofun (fun hjob => by rw [hlocked]; exact hjob) nofun
  -- `.work (.answer ok)`
  · next job ok hawaiting =>
      obtain ⟨-, hstep⟩ := Option.ite_none_right_eq_some.mp hstep
      cases hstep
      exact h.goes _ nofun nofun (fun hjob => by rw [hawaiting]; exact hjob) nofun
  -- `.note`
  · next job ok uptime hreturned =>
      cases hstep
      exact h.note uptime hreturned
  · cases hstep

/-! ## The forwarding thread -/

/-- Handles that come in are of the capture that runs. -/
theorem Inv.counted {s : State} (h : Inv s) {p : Packet} {ble : BleRadio} {now : Readings}
    (hcount : countPacket s.ble p now = some ble)
    (hseparate : p.joins = true → ble.follow.bisHandles ≠ [] →
      s.Fits s.control.emptiedHandles p.session) :
    Inv (s.counted p ble) := by
  obtain ⟨hmail, hhandles⟩ := countPacket_places hcount
  have hcurrent : ∀ cause, s.Current cause → (s.counted p ble).Current cause :=
    fun _ hc => hc.congr (countPacket_sameBut hcount).running rfl
  have hcauses : (s.counted p ble).causes.sync = s.causes.sync ∧
      (s.counted p ble).causes.big = s.causes.big := by
    unfold State.counted
    cases p.joins with
    | true => exact ⟨rfl, rfl⟩
    | false => exact ⟨rfl, rfl⟩
  have hcause : ∀ job, (s.counted p ble).cause job = s.cause job := cause_congr hcauses.2
  exact {
    waiting :=
      { queue := fun cause hc => (h.waiting.queue cause (hcauses.1 ▸ hc)).imp_left (hcurrent cause)
        handles := by
          intro hne
          refine And.imp_left (hcurrent _) ?_
          cases hjoins : p.joins with
          | true =>
              simp only [State.counted, hjoins]
              exact hseparate hjoins hne
          | false =>
              simp only [State.counted, hjoins]
              refine h.waiting.handles ?_
              rw [← hhandles.resolve_right (by simp [hjoins])]
              exact hne
        mail := by
          rw [hcauses.2]
          exact fun hw => hcurrent _ (h.waiting.mail (hmail.work ▸ hw))
        held := fun job hjob => hcurrent _ (hcause job ▸ h.waiting.held job hjob)
        pending := fun hw => hmail.pending.trans (h.waiting.pending (hmail.work ▸ hw))
        single := fun hw => hmail.work.trans (h.waiting.single hw) }
    bound := fun job hjob => hcause job ▸ h.bound job hjob
    exclusive := h.exclusive
    started := h.started
    contained := h.contained }

/-- A request that goes into `sync_q` is of the capture that runs. -/
theorem Inv.sought {s : State} (h : Inv s) {p : Packet} {ble : BleRadio}
    (hseek : notePeriodic s.ble (peekCopy p.data) = some ble)
    (hseparate : ble.follow.syncQ ≠ s.ble.follow.syncQ →
      s.Fits s.control.emptiedQueue p.session) :
    Inv (s.sought p ble) := by
  obtain ⟨hrunning, hhandles, hwork, hpending, -⟩ := notePeriodic_places hseek
  by_cases hsame : ble.follow.syncQ = s.ble.follow.syncQ
  · refine h.of_view ?_
    simp [State.view, State.sought, hsame, hrunning, hhandles, hwork, hpending]
  · have hput : Inv { s with
        causes := { s.causes with sync := s.causes.sync ++ [p.session] } } := by
      have hcause : ∀ job, State.cause
          { s with causes := { s.causes with sync := s.causes.sync ++ [p.session] } } job
            = s.cause job := cause_congr rfl
      exact {
        waiting :=
          { h.waiting with
            queue := by
              intro cause hc
              rcases List.mem_append.mp hc with hc | hc
              · exact h.waiting.queue cause hc
              · rw [List.mem_singleton.mp hc]
                exact hseparate hsame
            held := fun job hjob => hcause job ▸ h.waiting.held job hjob }
        bound := fun job hjob => hcause job ▸ h.bound job hjob
        exclusive := h.exclusive
        started := h.started
        contained := h.contained }
    refine hput.of_view ?_
    simp [State.view, State.sought, hsame, hrunning, hhandles, hwork, hpending]

/-- A request that goes into the mailbox is of the capture that runs, and finds
no work item at work on the last one. -/
theorem Inv.asked {s : State} (h : Inv s) {p : Packet} {ble : BleRadio} {uptime : Int}
    (hask : noteBigInfo s.ble (peekCopy p.data) uptime = some ble)
    (hseparate : ble.follow.bigPending ≠ s.ble.follow.bigPending → s.Current p.session) :
    Inv (s.asked p ble) := by
  rcases noteBigInfo_cases hask with rfl | ⟨hfree, bigParams, hble⟩
  · refine h.of_view ?_
    simp [State.view, State.asked]
  · have hrunning : ble.running = s.ble.running := by rw [hble]
    have hhandles : ble.follow.bisHandles = s.ble.follow.bisHandles := by rw [hble]
    have hpending : ble.follow.bigPending = true := by rw [hble]
    have hdiffers : ble.follow.bigPending ≠ s.ble.follow.bigPending := by simp [hfree, hpending]
    have hidle : s.worker.job ≠ some .broadcast := by
      intro hjob
      have := h.waiting.pending (.inr hjob)
      simp [hfree] at this
    have hcurrent : ∀ cause, s.Current cause → (s.asked p ble).Current cause :=
      fun _ hc => hc.congr hrunning rfl
    have hcauses : (s.asked p ble).causes = { s.causes with big := p.session } := by
      simp [State.asked, hdiffers]
    have hcause : ∀ job, s.worker.job = some job → (s.asked p ble).cause job = s.cause job := by
      intro job hjob
      cases job with
      | broadcast => exact absurd hjob hidle
      | _ => rfl
    exact {
      waiting :=
        { queue := by
            rw [hcauses]
            exact fun cause hc => (h.waiting.queue cause hc).imp_left (hcurrent cause)
          handles := by
            rw [hcauses]
            exact fun hne => (h.waiting.handles (hhandles ▸ hne)).imp_left (hcurrent _)
          mail := by
            rw [hcauses]
            exact fun _ => hcurrent _ (hseparate hdiffers)
          held := by
            intro job hjob
            rw [hcause job (Worker.job_of_untested hjob)]
            exact hcurrent _ (h.waiting.held job hjob)
          pending := fun _ => hpending
          single := fun hjob => absurd hjob hidle }
      bound := by
        intro job hjob
        rw [hcause job (Worker.job_of_bound hjob)]
        exact h.bound job hjob
      exclusive := h.exclusive
      started := h.started
      contained := h.contained }

theorem Inv.stepFwd {s t : State} {l : Label} (h : Inv s) (hseparate : Separate s l)
    (hstep : stepFwd s l = some t) : Inv t := by
  unfold Requests.stepFwd at hstep
  split at hstep
  -- `.fetch`
  · split at hstep
    · cases hstep
      exact h.of_view rfl
    · cases hstep
  -- `.screen`
  · cases hstep
    exact h.of_view rfl
  -- `.count`
  · next p now hhand =>
      obtain ⟨ble, hcount, rfl⟩ := Option.map_eq_some_iff.mp hstep
      exact h.counted hcount fun hjoins => hseparate p (by rw [hhand]; rfl) hjoins ble hcount
  -- `.seek`
  · next p hhand =>
      split at hstep
      · obtain ⟨ble, hseek, rfl⟩ := Option.map_eq_some_iff.mp hstep
        exact h.sought hseek (hseparate p (by rw [hhand]; rfl) ble hseek)
      · cases hstep
        exact h.of_view rfl
  -- `.ask`
  · next p now hhand =>
      obtain ⟨ble, hask, rfl⟩ := Option.map_eq_some_iff.mp hstep
      exact h.asked hask (hseparate p (by rw [hhand]; rfl) ble hask)
  · cases hstep

/-! ## The control thread -/

/-- The control thread goes on where no place is emptied, and nothing else changes. -/
theorem Inv.turns {s : State} (h : Inv s) (control : Control)
    (hemptied : control.emptiedHandles = false ∧ control.emptiedQueue = false)
    (hholds : s.worker.holds = true → control.holds = false)
    (hstarted : ∀ opcodes ∈ control.starting, opReset ∈ opcodes ∨ s.capture = none) :
    Inv { s with control } where
  waiting :=
    { h.waiting with
      queue := fun cause hc => ⟨(h.waiting.queue cause hc).1, by simp [hemptied.2]⟩
      handles := fun hne => ⟨(h.waiting.handles hne).1, by simp [hemptied.1]⟩ }
  bound := h.bound
  exclusive := hholds
  started := hstarted
  contained := h.contained

/-- With `running` cleared nothing that waits is of a capture that runs. -/
theorem Inv.stopped {s : State} (h : Inv s) (hbound : s.worker.bound = none) :
    Inv { s with ble := stopCapture s.ble, capture := none } where
  waiting :=
    { queue := fun cause hc => ⟨nofun, (h.waiting.queue cause hc).2⟩
      handles := fun hne => ⟨nofun, (h.waiting.handles hne).2⟩
      mail := fun _ => nofun
      held := fun _ _ => nofun
      pending := h.waiting.pending
      single := h.waiting.single }
  bound := by
    intro job hjob
    rw [show s.worker.bound = none from hbound] at hjob
    cases hjob
  exclusive := h.exclusive
  started := fun _ _ => .inr rfl
  contained := h.contained

/-- A Reset ends the capture, with no request on its way. -/
theorem Inv.reset {s : State} (h : Inv s) (hbound : s.worker.bound = none)
    (hemptied : s.control.emptiedHandles = false ∧ s.control.emptiedQueue = false) :
    Inv { s with session := s.session + 1, capture := none } where
  waiting :=
    { queue := fun _ _ => ⟨fun _ => nofun, by simp [hemptied.2]⟩
      handles := fun _ => ⟨fun _ => nofun, by simp [hemptied.1]⟩
      mail := fun _ _ => nofun
      held := fun _ _ _ => nofun
      pending := h.waiting.pending
      single := h.waiting.single }
  bound := by
    intro job hjob
    rw [show s.worker.bound = none from hbound] at hjob
    cases hjob
  exclusive := h.exclusive
  started := fun _ _ => .inr rfl
  contained := h.contained

/-- A store of `scan_started`: what still waits in a place it has emptied is of the
capture about to begin, and then of the one that has begun. -/
theorem Inv.written {s : State} (h : Inv s) {store : ScanStore}
    (hopening : s.control = .opening store)
    (hseparate : s.control = .opening .running →
      (s.ble.follow.bigWork = true → s.causes.big = s.session) ∧
        ∀ job ∈ s.worker.untested, s.cause job = s.session) :
    Inv (s.written store) := by
  have hclosed : s.capture = none :=
    (h.started [] (by rw [hopening]; rfl)).resolve_left List.not_mem_nil
  have haside : ∀ store,
      Control.emptiedHandles (.opening store) = false →
      Control.emptiedQueue (.opening store) = false →
      Inv { s with control := .opening store } :=
    fun _ hhandles hqueue => h.turns _ ⟨hhandles, hqueue⟩ (fun _ => rfl) fun _ _ => .inr hclosed
  cases store with
  | syncCount => exact (haside .bigSynced rfl rfl).of_view rfl
  | bigSynced => exact (haside .bigRetryAt rfl rfl).of_view rfl
  | bigRetryAt => exact (haside .bisCount rfl rfl).of_view rfl
  | bisCount =>
      exact {
        waiting :=
          { h.waiting with
            queue := fun cause hc => ⟨(h.waiting.queue cause hc).1, nofun⟩
            handles := fun hne => absurd rfl hne }
        bound := h.bound
        exclusive := fun _ => rfl
        started := fun _ _ => .inr hclosed
        contained := h.contained }
  | syncQ =>
      exact {
        waiting :=
          { h.waiting with
            queue := nofun
            handles := fun hne => by
              have hhandles := h.waiting.handles hne
              rw [hopening] at hhandles
              exact hhandles }
        bound := h.bound
        exclusive := fun _ => rfl
        started := fun _ _ => .inr hclosed
        contained := h.contained }
  | running =>
      obtain ⟨hmail, hheld⟩ := hseparate hopening
      have hcause : ∀ job, (s.written .running).cause job = s.cause job := cause_congr rfl
      have hcurrent : ∀ cause, cause = s.session → (s.written .running).Current cause := by
        intro cause hc _ n hn
        cases hn
        exact hc
      exact {
        waiting :=
          { queue := by
              intro cause hc
              have hsession := (h.waiting.queue cause hc).2 (by rw [hopening]; rfl)
              exact ⟨hcurrent cause hsession, nofun⟩
            handles := by
              intro hne
              have hsession := (h.waiting.handles hne).2 (by rw [hopening]; rfl)
              exact ⟨hcurrent _ hsession, nofun⟩
            mail := fun hw => hcurrent _ (hmail hw)
            held := fun job hjob => hcurrent _ (hcause job ▸ hheld job hjob)
            pending := h.waiting.pending
            single := h.waiting.single }
        bound := by
          intro job hjob
          have hnever := h.bound job hjob
          rw [hclosed] at hnever
          cases hnever
        exclusive := fun _ => rfl
        started := nofun
        contained := h.contained }

/-- START begins with a Reset. -/
theorem opReset_mem_startOpcodes (s : BleRadio) (phys : UInt8) : opReset ∈ startOpcodes s phys := by
  simp [startOpcodes]

/-- The control thread takes `cmd_lock`. -/
theorem Inv.locks {s : State} (h : Inv s) {opcode : UInt16} {opcodes : List UInt16} {scan : Bool}
    (htodo : s.control = .todo (opcode :: opcodes) scan) (hfree : ¬ s.worker.holds = true) :
    Inv { s with control := .locked opcode opcodes scan } := by
  refine h.turns _ ⟨rfl, rfl⟩ (fun hholds => absurd hholds hfree) ?_
  cases scan with
  | false => nofun
  | true => exact fun _ hopcodes => h.started _ (by rw [htodo]; exact hopcodes)

/-- A command of the control thread goes out. No work item has one on its way,
because the lock is taken. -/
theorem Inv.commands {s : State} (h : Inv s) {opcode : UInt16} {opcodes : List UInt16}
    {scan : Bool} (hlocked : s.control = .locked opcode opcodes scan)
    (hseparate : s.control.resetting = true → s.worker.bound = none) :
    Inv { s.commanded opcode with control := .awaiting opcodes scan } := by
  have hholds : ¬ s.worker.holds = true := by
    intro hw
    have hfree := h.exclusive hw
    rw [hlocked] at hfree
    cases hfree
  unfold State.commanded
  split
  · next hreset =>
      have hresetting : s.control.resetting = true := by
        simp [hlocked, Control.resetting, hreset]
      have hbound : s.worker.bound = none := hseparate hresetting
      have hreset : Inv { s with session := s.session + 1, capture := none } :=
        h.reset hbound (by rw [hlocked]; exact ⟨rfl, rfl⟩)
      exact hreset.turns _ ⟨rfl, rfl⟩ (fun hw => absurd hw hholds) fun _ _ => .inr rfl
  · next hother =>
      refine h.turns _ ⟨rfl, rfl⟩ (fun hw => absurd hw hholds) ?_
      cases scan with
      | false => nofun
      | true =>
          intro ops hops
          cases hops
          have hstarted := h.started (opcode :: opcodes) (by rw [hlocked]; rfl)
          refine hstarted.imp_left fun hmem => ?_
          exact (List.mem_cons.mp hmem).resolve_left fun heq => hother heq.symm

theorem Inv.stepControl {s t : State} {l : Label} (h : Inv s) (hseparate : Separate s l)
    (hstep : stepControl s l = some t) : Inv t := by
  unfold Requests.stepControl at hstep
  split at hstep
  -- `.stop`
  · cases hstep
    exact (h.stopped hseparate).turns .stopping ⟨rfl, rfl⟩ (fun _ => rfl) nofun
  -- `.free`
  · cases hstep
    have hfreed : Inv { s with ble := freeSlots s.ble } := h.of_view rfl
    exact hfreed.turns _ ⟨rfl, rfl⟩ (fun _ => rfl) nofun
  -- `.start`
  · next phys _ =>
      obtain ⟨-, hstep⟩ := Option.ite_none_right_eq_some.mp hstep
      cases hstep
      refine h.turns _ ⟨rfl, rfl⟩ (fun _ => rfl) ?_
      intro opcodes hopcodes
      cases hopcodes
      exact .inl (opReset_mem_startOpcodes s.ble phys)
  -- `.control .lock`
  · next opcode opcodes scan htodo =>
      split at hstep
      · cases hstep
      · next hfree =>
          cases hstep
          exact h.locks htodo hfree
  -- `.control .send`
  · next opcode opcodes scan hlocked =>
      cases hstep
      exact h.commands hlocked hseparate
  -- `.control .fail`
  · cases hstep
    exact h.turns .idle ⟨rfl, rfl⟩ (fun _ => rfl) nofun
  -- `.control (.answer ok)`
  · next opcodes scan ok hawaiting =>
      obtain ⟨-, hstep⟩ := Option.ite_none_right_eq_some.mp hstep
      cases hstep
      cases ok with
      | false => exact h.turns .idle ⟨rfl, rfl⟩ (fun _ => rfl) nofun
      | true =>
          refine h.turns _ ⟨rfl, rfl⟩ (fun _ => rfl) ?_
          cases scan with
          | false => nofun
          | true => exact fun _ hopcodes => h.started _ (by rw [hawaiting]; exact hopcodes)
  -- `.done`
  · next scan htodo =>
      cases hstep
      cases scan with
      | false => exact h.turns .idle ⟨rfl, rfl⟩ (fun _ => rfl) nofun
      | true =>
          have hclosed : s.capture = none :=
            (h.started [] (by rw [htodo]; rfl)).resolve_left List.not_mem_nil
          exact h.turns (.opening .syncCount) ⟨rfl, rfl⟩ (fun _ => rfl) fun _ _ => .inr hclosed
  -- `.write`
  · next store hopening =>
      cases hstep
      exact h.written hopening hseparate
  -- What the host sets between captures.
  · cases hstep
    exact h.of_view rfl
  · cases hstep
    exact h.of_view rfl
  · cases hstep
    exact h.of_view rfl
  · cases hstep

theorem Inv.stepController {s t : State} {l : Label} (h : Inv s)
    (hstep : stepController s l = some t) : Inv t := by
  unfold Requests.stepController at hstep
  split at hstep
  · cases hstep
    exact h.of_view rfl
  · cases hstep
    exact h.of_view rfl
  · cases hstep

/-! ## The capture and `running` -/

/-- A step that touches neither. -/
def SameCapture (s t : State) : Prop := t.ble.running = s.ble.running ∧ t.capture = s.capture

theorem sameCapture_stepFwd {s t : State} {l : Label} (hstep : stepFwd s l = some t) :
    SameCapture s t := by
  unfold stepFwd at hstep
  split at hstep
  -- `.fetch`
  · split at hstep
    · cases hstep
      exact ⟨rfl, rfl⟩
    · cases hstep
  -- `.screen`
  · cases hstep
    exact ⟨rfl, rfl⟩
  -- `.count`
  · obtain ⟨ble, hcount, rfl⟩ := Option.map_eq_some_iff.mp hstep
    exact ⟨(countPacket_sameBut hcount).running, rfl⟩
  -- `.seek`
  · split at hstep
    · obtain ⟨ble, hseek, rfl⟩ := Option.map_eq_some_iff.mp hstep
      exact ⟨(notePeriodic_places hseek).1, rfl⟩
    · cases hstep
      exact ⟨rfl, rfl⟩
  -- `.ask`
  · obtain ⟨ble, hask, rfl⟩ := Option.map_eq_some_iff.mp hstep
    rcases noteBigInfo_cases hask with rfl | ⟨-, bigParams, hble⟩
    · exact ⟨rfl, rfl⟩
    · exact ⟨by rw [State.asked, hble], rfl⟩
  · cases hstep

theorem sameCapture_stepIdle {s t : State} {l : Label} (hstep : stepIdle s l = some t) :
    SameCapture s t := by
  unfold stepIdle at hstep
  split at hstep
  · obtain ⟨-, hstep⟩ := Option.ite_none_right_eq_some.mp hstep
    cases hstep
    exact ⟨rfl, rfl⟩
  · obtain ⟨-, hstep⟩ := Option.ite_none_right_eq_some.mp hstep
    cases hstep
    exact ⟨rfl, rfl⟩
  · obtain ⟨-, hstep⟩ := Option.ite_none_right_eq_some.mp hstep
    cases hstep
    exact ⟨rfl, rfl⟩
  · cases hstep

theorem noted_running (s : BleRadio) (ok : Bool) (uptime : Int) (job : Job) :
    (noted s ok uptime job).running = s.running := by
  cases job with
  | train req cause =>
      cases ok with
      | true => rfl
      | false => rfl
  | broadcast =>
      cases ok with
      | true => rfl
      | false => rfl
  | path i handle cause => rfl

theorem sameCapture_stepWorker {s t : State} {l : Label} (hstep : stepWorker s l = some t) :
    SameCapture s t := by
  unfold stepWorker at hstep
  split at hstep
  · exact sameCapture_stepIdle hstep
  -- `.take`
  · cases hstep
    unfold takeReq
    split
    · exact ⟨rfl, rfl⟩
    · exact ⟨rfl, rfl⟩
  · cases hstep
    unfold takeHandle
    split
    · exact ⟨rfl, rfl⟩
    · exact ⟨rfl, rfl⟩
  -- `.test`
  · cases hstep
    exact ⟨rfl, rfl⟩
  -- `.work`
  · split at hstep
    · cases hstep
    · cases hstep
      exact ⟨rfl, rfl⟩
  · cases hstep
    exact ⟨rfl, rfl⟩
  · cases hstep
    exact ⟨rfl, rfl⟩
  · obtain ⟨-, hstep⟩ := Option.ite_none_right_eq_some.mp hstep
    cases hstep
    exact ⟨rfl, rfl⟩
  -- `.note`
  · next job ok uptime _ =>
      cases hstep
      exact ⟨noted_running s.ble ok uptime job, rfl⟩
  · cases hstep

/-- The control thread alone ends a capture, or sets `running`. -/
theorem capture_stepControl {s t : State} {l : Label} (hstep : stepControl s l = some t) :
    SameCapture s t ∨ t.capture = none ∨ t.ble.running = true := by
  unfold stepControl at hstep
  split at hstep
  -- `.stop`
  · cases hstep
    exact .inr (.inl rfl)
  -- `.free`
  · cases hstep
    exact .inl ⟨rfl, rfl⟩
  -- `.start`
  · obtain ⟨-, hstep⟩ := Option.ite_none_right_eq_some.mp hstep
    cases hstep
    exact .inl ⟨rfl, rfl⟩
  -- `.control`
  · split at hstep
    · cases hstep
    · cases hstep
      exact .inl ⟨rfl, rfl⟩
  · cases hstep
    unfold State.commanded
    split
    · exact .inr (.inl rfl)
    · exact .inl ⟨rfl, rfl⟩
  · cases hstep
    exact .inl ⟨rfl, rfl⟩
  · obtain ⟨-, hstep⟩ := Option.ite_none_right_eq_some.mp hstep
    cases hstep
    exact .inl ⟨rfl, rfl⟩
  -- `.done`
  · cases hstep
    exact .inl ⟨rfl, rfl⟩
  -- `.write`
  · next store _ =>
      cases hstep
      cases store with
      | running => exact .inr (.inr rfl)
      | _ => exact .inl ⟨rfl, rfl⟩
  -- What the host sets between captures.
  · cases hstep
    exact .inl ⟨rfl, rfl⟩
  · cases hstep
    exact .inl ⟨rfl, rfl⟩
  · cases hstep
    exact .inl ⟨rfl, rfl⟩
  · cases hstep

theorem sameCapture_stepController {s t : State} {l : Label}
    (hstep : stepController s l = some t) : SameCapture s t := by
  unfold stepController at hstep
  split at hstep
  · cases hstep
    exact ⟨rfl, rfl⟩
  · cases hstep
    exact ⟨rfl, rfl⟩
  · cases hstep

theorem capture_step {s t : State} {l : Label} (hstep : step s l = some t) :
    SameCapture s t ∨ t.capture = none ∨ t.ble.running = true := by
  unfold step at hstep
  split at hstep
  · exact .inl (sameCapture_stepController hstep)
  · exact .inl (sameCapture_stepController hstep)
  · exact .inl (sameCapture_stepFwd hstep)
  · exact .inl (sameCapture_stepFwd hstep)
  · exact .inl (sameCapture_stepFwd hstep)
  · exact .inl (sameCapture_stepFwd hstep)
  · exact .inl (sameCapture_stepFwd hstep)
  · exact capture_stepControl hstep
  · exact capture_stepControl hstep
  · exact capture_stepControl hstep
  · exact capture_stepControl hstep
  · exact capture_stepControl hstep
  · exact capture_stepControl hstep
  · exact capture_stepControl hstep
  · exact capture_stepControl hstep
  · exact capture_stepControl hstep
  · exact .inl (sameCapture_stepWorker hstep)

/-- In every run a capture is on only while `running` is set. -/
theorem running_of_capture (ls : List Label) (t : State) (hrun : machine.run initial ls = some t)
    (hcapture : t.capture ≠ none) : t.ble.running = true := by
  refine machine.run_invariant (I := fun s => s.capture ≠ none → s.ble.running = true)
    ?_ ?_ hrun hcapture
  · intro s l t hs hstep hne
    rcases capture_step hstep with hsame | hnone | hrunning
    · exact hsame.1.trans (hs (hsame.2 ▸ hne))
    · exact absurd hnone hne
    · exact hrunning
  · exact fun hne => absurd rfl hne

/-! ## Every run -/

theorem inv_step (s : State) (l : Label) (t : State) (h : Inv s) (hseparate : Separate s l)
    (hstep : machine.step s l = some t) : Inv t := by
  change step s l = some t at hstep
  unfold step at hstep
  split at hstep
  · exact h.stepController hstep
  · exact h.stepController hstep
  · exact h.stepFwd hseparate hstep
  · exact h.stepFwd hseparate hstep
  · exact h.stepFwd hseparate hstep
  · exact h.stepFwd hseparate hstep
  · exact h.stepFwd hseparate hstep
  · exact h.stepControl hseparate hstep
  · exact h.stepControl hseparate hstep
  · exact h.stepControl hseparate hstep
  · exact h.stepControl hseparate hstep
  · exact h.stepControl hseparate hstep
  · exact h.stepControl hseparate hstep
  · exact h.stepControl hseparate hstep
  · exact h.stepControl hseparate hstep
  · exact h.stepControl hseparate hstep
  · exact h.stepWorker hseparate hstep

/-- **No request crosses.** Along every run whose steps keep captures apart, every
request was sent in the capture of the packet that caused it, which runs when it is
sent. -/
theorem contained_of_separate (ls : List Label) (t : State)
    (hseparate : machine.RunMeets Separate initial ls) (hrun : machine.run initial ls = some t) :
    Contained t :=
  (machine.run_invariant_of inv_step inv_initial hseparate hrun).contained

/-! ## Where a step does not -/

/-- A request of another session than the capture, found with `cmd_lock` free and
its test about to pass, can be sent. -/
theorem crosses_test {s : State} {job : Job} (htook : s.worker = .took job)
    (hmay : may s.ble job = true) (hlock : s.control.holds = false)
    (hother : s.capture ≠ some (s.cause job)) :
    ∃ t, machine.run s [.test, .work .lock, .work .send] = some t ∧ ¬ Contained t := by
  refine ⟨s.issue job, ?_, fun hcontained => hother ?_⟩
  · simp [Machine.run, machine, step, stepWorker, htook, hmay, hlock, State.issue]
    exact cause_congr rfl job
  · exact hcontained _ (List.mem_append_right _ List.mem_cons_self)

/-- A work item past its test, with STOP about to clear `running`. -/
theorem crosses_stop {s : State} {job : Job} (hready : s.worker = .ready job)
    (hidle : s.control = .idle) :
    ∃ t, machine.run s [.stop, .work .lock, .work .send] = some t ∧ ¬ Contained t := by
  let t : State :=
    { s with ble := stopCapture s.ble, capture := none, control := .stopping }
  refine ⟨t.issue job, ?_, fun hcontained => ?_⟩
  · simp [t, Machine.run, machine, step, stepControl, stepWorker, hready, hidle, Control.holds,
      State.issue]
    exact cause_congr rfl job
  · have hlast := hcontained _ (List.mem_append_right _ List.mem_cons_self)
    cases hlast

/-- A work item past its test, with a Reset about to be sent. -/
theorem crosses_reset {s : State} {job : Job} {opcodes : List UInt16} {scan : Bool}
    (hready : s.worker = .ready job) (hreset : s.control = .locked opReset opcodes scan) :
    ∃ t, machine.run s [.control .send, .obey, .control (.answer true), .work .lock, .work .send]
        = some t ∧ ¬ Contained t := by
  let t : State :=
    { s with session := s.session + 1, heard := s.session + 1, capture := none,
             control := .todo opcodes scan }
  refine ⟨t.issue job, ?_, fun hcontained => ?_⟩
  · simp [t, Machine.run, machine, step, stepControl, stepController, stepWorker, hready, hreset,
      State.commanded, State.answers, Control.holds, State.issue]
    exact cause_congr rfl job
  · have hlast := hcontained _ (List.mem_append_right _ List.mem_cons_self)
    cases hlast

/-- A BIG request of another session in the mailbox as `scan_started` sets
`running`. -/
theorem crosses_start {s : State} (hidle : s.worker = .idle)
    (hwork : s.ble.follow.bigWork = true) (hopening : s.control = .opening .running)
    (hold : s.causes.big ≠ s.session) :
    ∃ t, machine.run s ([.write, .runBig] ++ [.test, .work .lock, .work .send]) = some t ∧
      ¬ Contained t := by
  obtain ⟨t, ht, hcross⟩ := @crosses_test
    { s.written .running with
      ble := beginBigWork { s.ble with running := true }
      worker := .took .broadcast } .broadcast rfl rfl rfl
    fun hsame => hold (Option.some.inj hsame).symm
  refine ⟨t, ?_, hcross⟩
  rw [machine.run_append, ← ht]
  simp [Machine.run, machine, step, stepControl, stepWorker, stepIdle, hidle, hopening,
    State.written, ScanStore.write, hwork]

/-- A train of another session, put into `sync_q` after `scan_started` has emptied
it. -/
theorem crosses_seek {s : State} {p : Packet} {ble : BleRadio} (hidle : s.worker = .idle)
    (hopening : s.control = .opening .running) (hhand : s.hand = .counted p)
    (hlooks : s.ble.periodicEnabled = true ∧ p.h4 = h4Event) (hfree : s.ble.follow.syncCount = 0)
    (hqueue : s.ble.follow.syncQ = []) (hcauses : s.causes.sync = [])
    (hseek : notePeriodic s.ble (peekCopy p.data) = some ble) (hput : ble.follow.syncQ ≠ [])
    (hold : p.session ≠ s.session) :
    ∃ t, machine.run s ([.seek, .write, .runSync, .take] ++ [.test, .work .lock, .work .send])
        = some t ∧ ¬ Contained t := by
  rcases notePeriodic_cases hseek with rfl | ⟨req, rfl⟩
  · exact absurd hqueue hput
  · have hroom : putSyncReq s.ble.follow req
        = { s.ble.follow with syncQ := [req], syncWork := true } := by
      simp [putSyncReq, hqueue, syncQueueDepth]
    rw [hroom] at hseek
    let stats := { s.ble.stats with periodicSeen := s.ble.stats.periodicSeen + 1 }
    obtain ⟨t, ht, hcross⟩ := @crosses_test
      { s with
        ble := { s.ble with
          stats
          follow := { s.ble.follow with syncQ := [], syncWork := false }
          running := true }
        causes := { s.causes with sync := [] }
        capture := some s.session
        hand := .sought p
        control := .idle
        worker := .took (.train req p.session) } (.train req p.session) rfl
      (by simp [may, mayCreateSync, hlooks.1, hfree, maxSyncs]) rfl
      fun hsame => hold (Option.some.inj hsame).symm
    refine ⟨t, ?_, hcross⟩
    rw [machine.run_append, ← ht]
    simp [stats, Machine.run, machine, step, stepControl, stepFwd, stepWorker, stepIdle, hidle,
      hopening, hhand, hlooks, hseek, State.sought, State.written, Control.after, ScanStore.next,
      ScanStore.write, takeReq, hqueue, hcauses]

/-- A BIGInfo of another session, noted while a capture runs. -/
theorem crosses_ask {s : State} {p : Packet} {ble : BleRadio} {now : Readings} {n : Nat}
    (hidle : s.worker = .idle) (hlock : s.control.holds = false) (hhand : s.hand = .sought p)
    (hrunning : s.ble.running = true) (hcapture : s.capture = some n)
    (hask : noteBigInfo s.ble (peekCopy p.data) now.uptimeBigInfo = some ble)
    (hasked : ble.follow.bigPending ≠ s.ble.follow.bigPending) (hold : p.session ≠ n) :
    ∃ t, machine.run s ([.ask now, .runBig] ++ [.test, .work .lock, .work .send]) = some t ∧
      ¬ Contained t := by
  rcases noteBigInfo_cases hask with rfl | ⟨-, bigParams, hble⟩
  · exact absurd rfl hasked
  · have hsame : ble.running = s.ble.running := by rw [hble]
    have hwork : ble.follow.bigWork = true := by rw [hble]
    obtain ⟨t, ht, hcross⟩ := @crosses_test
      { s.asked p ble with
        ble := beginBigWork ble
        worker := .took .broadcast } .broadcast rfl (hsame.trans hrunning) hlock (by
          intro hother
          rw [show (s.asked p ble).capture = some n from hcapture] at hother
          simp only [State.cause, State.asked, if_neg hasked, Option.some.injEq] at hother
          exact hold hother.symm)
    refine ⟨t, ?_, hcross⟩
    rw [machine.run_append, ← ht]
    simp [Machine.run, machine, step, stepFwd, stepWorker, stepIdle, hhand, hidle, hask, hwork,
      State.asked]

/-! ## Two runs -/

/-- A command of the control thread, accepted. -/
def accepted : List Label := [.control .lock, .control .send, .obey, .control (.answer true)]

/-- An extended advertising report, of an advertiser with a periodic train. -/
def trainReport : List UInt8 :=
  [0x3E, 0x1A, 0x0D, 0x01, 0x00, 0x00, 0x00, 1, 2, 3, 4, 5, 6, 0x01, 0x01, 0x07, 0x7F, 0xC4, 0x40,
    0x00, 0x00, 0, 0, 0, 0, 0, 0, 0x00]

/-- START with periodic following on, the report of a train, and its request past
the test of `sync_work_fn`. -/
def trainAsked : List Label :=
  [.setPeriodic true, .start 1] ++ (List.replicate 9 accepted).flatten ++
  .done :: List.replicate 6 .write ++
  [.deliver h4Event trainReport, .fetch, .screen, .count ⟨0, 0, 0⟩, .seek,
    .ask ⟨0, 0, 0⟩, .runSync, .take, .test]

/-- The request is sent, and then the capture stopped. -/
def sentFirst : List Label :=
  trainAsked ++ [.work .lock, .work .send, .work (.answer true), .note 0, .take, .stop, .free] ++
    accepted ++ [.done]

theorem contained_of_separate_train :
    ∃ t, machine.run initial sentFirst = some t ∧ t.sent ≠ [] ∧ Contained t := by
  obtain ⟨t, ht⟩ := Option.isSome_iff_exists.mp
    (by decide +kernel : (machine.run initial sentFirst).isSome = true)
  refine ⟨t, ht, ?_, contained_of_separate sentFirst t (by decide +kernel) ht⟩
  have hget : t = (machine.run initial sentFirst).get (by decide +kernel) := by simp [ht]
  rw [hget]
  decide +kernel

/-- STOP's Reset goes first. -/
def stoppedFirst : List Label :=
  trainAsked ++ [.stop, .free] ++ accepted ++ [.work .lock, .work .send]

/-- Create Sync is sent after STOP's Reset, in no capture. -/
theorem request_after_stop : ∃ t, machine.run initial stoppedFirst = some t ∧
    t.sent.map Sent.during = [none] ∧
    t.sent.map (fun r => r.command.opcode) = [opLePerAdvCreateSync] ∧ ¬ Contained t := by
  refine ⟨(machine.run initial stoppedFirst).get (by decide +kernel), (Option.some_get _).symm, ?_⟩
  decide +kernel

end Nrf54Sniffer.Ble.Requests
