/-
Nrf54Sniffer.Link.TxThread — `tx_thread` asleep and awake.

The machine of `Link/Transmit.lean` lets the transmit thread claim whenever the
ring has bytes. Here it sleeps as the code does: a claim that comes back empty
sends it to `k_sem_take(&tx_ready)`, and only a give wakes it. The give is the
last thing `sn_link_send` does, after it has let go of `encode_lock`, so any
number of calls may have unlocked and not given yet (`owed`). The semaphore
counts to one: gives to a thread that is awake run together.

`Awake` is why no give is lost, and `potential` why the thread neither spins nor
stops: each byte accepted is good for seven steps, each frame for five more, a
`uart_tx` that fails for two. `turnsLeft` reads off a state how many are left when
no call begins.
-/
import Nrf54Sniffer.Lib.Potential
import Nrf54Sniffer.Link.TransmitTheorems

namespace Nrf54Sniffer.Link.TxThread

open Nrf54Sniffer.Lib
open Nrf54Sniffer.Wire

variable {encode : Encode}

/-! ## The machine -/

/-- The link, and where the thread sleeps. `asleep`: the last claim was empty
and `tx_ready` has not been taken since. -/
structure State where
  link : Link.State := {}
  asleep : Bool := false
  txReady : Bool := false
  owed : Nat := 0

/-- A step of the link, or of the semaphore `tx_ready`. -/
inductive Label where
  | link (l : Link.Label)
  | empty
  | wake
  | give
  deriving DecidableEq, Repr

/-- `ring_buf_get_claim`, with bytes to hand out. -/
def claims : Link.Label → Bool
  | .claim _ => true
  | _ => false

/-- One step. The unlock comes with the reading of the high-water mark; from
there the call owes its give. -/
def step (encode : Encode) (s : State) : Label → Option State
  | .link l =>
      if claims l && s.asleep then none
      else (Link.step encode s.link l).map fun link =>
        { s with link, owed := if l = .measure then s.owed + 1 else s.owed }
  | .empty =>
      if s.link.phase = .idle ∧ s.asleep = false ∧ s.link.link.txRing.size = 0 then
        some { s with asleep := true }
      else none
  | .wake =>
      if s.asleep ∧ s.txReady then some { s with asleep := false, txReady := false } else none
  | .give => if 0 < s.owed then some { s with owed := s.owed - 1, txReady := true } else none

/-- The link with its transmit thread, as a machine. -/
def machine (encode : Encode) : Machine State Label := ⟨step encode⟩

/-- The steps that do not depend on anyone else: all but a call that begins, a
counter reset and a `uart_tx` that fails. -/
def Label.works : Label → Bool
  | .link (.send _) | .link .resetCounters | .link .uartFail => false
  | _ => true

/-! ## It refines the link -/

/-- The link's step inside a label. -/
def Label.inner : Label → List Link.Label
  | .link l => [l]
  | _ => []

/-- A step is one of the link, or none of it. -/
theorem step_link {s t : State} {l : Label} (h : step encode s l = some t) :
    (Link.machine encode).run s.link l.inner = some t.link := by
  cases l with
  | link a =>
      obtain ⟨_, h⟩ := Option.ite_none_left_eq_some.mp h
      obtain ⟨link, hstep, rfl⟩ := Option.map_eq_some_iff.mp h
      simp [Label.inner, Machine.run, Link.machine, hstep]
  | empty =>
      obtain ⟨_, heq⟩ := Option.ite_none_right_eq_some.mp h
      cases heq
      rfl
  | wake =>
      obtain ⟨_, heq⟩ := Option.ite_none_right_eq_some.mp h
      cases heq
      rfl
  | give =>
      obtain ⟨_, heq⟩ := Option.ite_none_right_eq_some.mp h
      cases heq
      rfl

theorem run_link {s t : State} {ls : List Label} (h : (machine encode).run s ls = some t) :
    (Link.machine encode).run s.link (ls.flatMap Label.inner) = some t.link := by
  induction ls generalizing s with
  | nil =>
      cases h
      rfl
  | cons l ls ih =>
      obtain ⟨s', hfirst, hrest⟩ := (machine encode).run_cons_eq_some.mp h
      rw [List.flatMap_cons, Machine.run_append, step_link hfirst]
      exact ih hrest

/-! ## No give is lost -/

/-- Someone will give `tx_ready`: a call has put its frame and not given yet. -/
def State.WakerComing (s : State) : Prop := 0 < s.owed ∨ s.link.sender = .measuring

/-- The link's invariant, a thread that sleeps only where it may, a claim that
is never empty, and a `tx_done` that is out only while the DMA has the span. -/
structure Awake (encode : Encode) (s : State) : Prop where
  link : Inv encode s.link
  asleep : s.asleep = true → s.link.phase = .idle ∧
    (s.link.link.txRing.content ≠ [] → s.txReady = true ∨ s.WakerComing)
  idle : s.link.phase = .idle → s.link.link.txRing.claimed = []
  busy : s.link.phase ≠ .idle → s.link.link.txRing.claimed ≠ []
  done : s.link.phase = .ready ∨ (∃ k, s.link.phase = .sending k) ∨ s.link.txDone = true

theorem awake_initial : Awake encode {} where
  link := inv_initial
  asleep := by simp
  idle := fun _ => rfl
  busy := by simp
  done := by simp

/-- One step of the link keeps the claim and its phase together. -/
theorem claimed_step {s t : Link.State} {l : Link.Label} (ht : Takes encode s l t)
    (hidle : s.phase = .idle → s.link.txRing.claimed = [])
    (hbusy : s.phase ≠ .idle → s.link.txRing.claimed ≠ []) :
    (t.phase = .idle → t.link.txRing.claimed = []) ∧
      (t.phase ≠ .idle → t.link.txRing.claimed ≠ []) := by
  cases ht with
  | inval _ _ => exact ⟨hidle, hbusy⟩
  | noMem _ _ => exact ⟨hidle, hbusy⟩
  | accept _ _ => exact ⟨hidle, hbusy⟩
  | put _ => exact ⟨hidle, hbusy⟩
  | measure _ => exact ⟨hidle, hbusy⟩
  | @claim n hp hpos _ hsize =>
      refine ⟨by simp, fun _ hnil => ?_⟩
      have hlen := congrArg List.length hnil
      simp only [ClaimRing.claim, List.length_append, List.length_take, List.length_nil] at hlen
      simp only [ClaimRing.size] at hsize
      omega
  | takeDone hp _ => exact ⟨by simp, fun _ => hbusy (by simp [hp])⟩
  | uartFail _ => exact ⟨fun _ => rfl, by simp⟩
  | uartOk hp => exact ⟨by simp, fun _ => hbusy (by simp [hp])⟩
  | dmaByte hp _ => exact ⟨by simp, fun _ => hbusy (by simp [hp])⟩
  | dmaDone hp => exact ⟨by simp, fun _ => hbusy (by simp [hp])⟩
  | finish _ _ => exact ⟨fun _ => rfl, by simp⟩
  | resetCounters => exact ⟨hidle, hbusy⟩

/-- `tx_done` is given back before the span is. -/
theorem done_step {s t : Link.State} {l : Link.Label} (ht : Takes encode s l t)
    (h : s.phase = .ready ∨ (∃ k, s.phase = .sending k) ∨ s.txDone = true) :
    t.phase = .ready ∨ (∃ k, t.phase = .sending k) ∨ t.txDone = true := by
  cases ht with
  | claim hp _ _ _ => simpa [hp] using h
  | takeDone _ _ => simp
  | uartFail _ => simp
  | uartOk _ => simp
  | dmaByte _ _ => simp
  | dmaDone _ => simp
  | finish hp _ => simpa [hp] using h
  | _ => exact h

/-- While the thread sleeps, bytes come into the ring with a put alone, and the
call that put them goes on to its give. -/
theorem asleep_step {s : State} {l : Link.Label} {link : Link.State}
    (hnot : ¬(claims l && s.asleep) = true) (ht : Takes encode s.link l link)
    (h : s.asleep = true → s.link.phase = .idle ∧
      (s.link.link.txRing.content ≠ [] → s.txReady = true ∨ s.WakerComing))
    (hasleep : s.asleep = true) :
    link.phase = .idle ∧ (link.link.txRing.content ≠ [] → s.txReady = true ∨
      0 < (if l = .measure then s.owed + 1 else s.owed) ∨ link.sender = .measuring) := by
  obtain ⟨hphase, hbytes⟩ := h hasleep
  have hgoes : ∀ {sender : Sender}, (s.link.sender = .measuring → sender = .measuring) →
      s.link.link.txRing.content ≠ [] →
      s.txReady = true ∨ 0 < s.owed ∨ sender = .measuring := fun hsender hne =>
    (hbytes hne).imp_right fun hwaker => hwaker.imp_right hsender
  cases ht with
  | inval _ _ => exact ⟨hphase, hgoes id⟩
  | noMem _ _ => exact ⟨hphase, hgoes id⟩
  | accept hfree _ =>
      refine ⟨hphase, hgoes fun hsender => ?_⟩
      rw [hfree] at hsender
      cases hsender
  | put _ => exact ⟨hphase, fun _ => .inr (.inr rfl)⟩
  | measure _ => exact ⟨hphase, fun _ => .inr (.inl (by simp))⟩
  | claim _ _ _ _ => exact absurd (by simp [claims, hasleep]) hnot
  | takeDone hp _ => rw [hphase] at hp; cases hp
  | uartFail hp => rw [hphase] at hp; cases hp
  | uartOk hp => rw [hphase] at hp; cases hp
  | dmaByte hp _ => rw [hphase] at hp; cases hp
  | dmaDone hp => rw [hphase] at hp; cases hp
  | finish hp _ => rw [hphase] at hp; cases hp
  | resetCounters => exact ⟨hphase, hgoes id⟩

/-- **No give is lost**, step by step. -/
theorem awake_step (s : State) (l : Label) (t : State) (h : Awake encode s)
    (hstep : step encode s l = some t) : Awake encode t := by
  cases l with
  | link a =>
      obtain ⟨hnot, hstep⟩ := Option.ite_none_left_eq_some.mp hstep
      obtain ⟨link, hlink, rfl⟩ := Option.map_eq_some_iff.mp hstep
      have ht := step_takes hlink
      obtain ⟨hidle, hbusy⟩ := claimed_step ht h.idle h.busy
      exact ⟨step_inv a h.link hlink, asleep_step hnot ht h.asleep, hidle, hbusy, done_step ht h.done⟩
  | empty =>
      obtain ⟨⟨hphase, _, hsize⟩, heq⟩ := Option.ite_none_right_eq_some.mp hstep
      cases heq
      refine ⟨h.link, fun _ => ⟨hphase, fun hne => absurd ?_ hne⟩, h.idle, h.busy, h.done⟩
      rw [ClaimRing.content, h.idle hphase, List.nil_append]
      exact List.length_eq_zero_iff.mp hsize
  | wake =>
      obtain ⟨_, heq⟩ := Option.ite_none_right_eq_some.mp hstep
      cases heq
      exact ⟨h.link, by simp, h.idle, h.busy, h.done⟩
  | give =>
      obtain ⟨_, heq⟩ := Option.ite_none_right_eq_some.mp hstep
      cases heq
      exact ⟨h.link, fun hasleep => ⟨(h.asleep hasleep).1, fun _ => .inl rfl⟩, h.idle, h.busy,
        h.done⟩

theorem awake_run {s : State} {ls : List Label} (hrun : (machine encode).run {} ls = some s) :
    Awake encode s :=
  (machine encode).run_invariant awake_step awake_initial hrun

/-! ## The steps there are -/

/-- What a phase is still good for, beside the bytes not sent. -/
def phasePotential : TxPhase → Nat
  | .idle => 3
  | .claimed => 2
  | .ready => 1
  | .sending 0 => 0
  | .sending (_ + 1) => 6
  | .signalled => 5

/-- And a call that has put its frame. -/
def senderPotential : Sender → Nat
  | .measuring => 4
  | _ => 0

def linkPotential (s : Link.State) : Nat :=
  7 * s.unsent.length + phasePotential s.phase + senderPotential s.sender

/-- The steps a state is still good for, when no call begins and no `uart_tx`
fails. -/
def potential (s : State) : Nat :=
  linkPotential s.link + 3 * s.owed + (if s.txReady then 2 else 0) + (if s.asleep then 0 else 1)

/-- What the frames accepted are good for: seven steps a byte and five a
frame. -/
def budget (encode : Encode) (s : Link.State) : Nat :=
  7 * (encodings encode 0 s.accepted).length + 5 * s.accepted.length

/-- One for each step the code can take on its own. -/
def Label.gain (l : Label) : Nat := if l.works then 1 else 0

/-- What a `uart_tx` that fails costs. -/
def Label.cost : Label → Nat
  | .link .uartFail => 2
  | _ => 0

/-- The bytes not sent are one fewer with each the DMA sends. -/
theorem unsent_dmaByte {s : Link.State} {k : Nat} {byte : UInt8} (hp : s.phase = .sending k)
    (hbyte : s.link.txRing.claimed[k]? = some byte) :
    s.unsent.length = (Link.State.unsent
      { s with wire := s.wire ++ [byte], phase := .sending (k + 1) }).length + 1 := by
  obtain ⟨hlt, _⟩ := List.getElem?_eq_some_iff.mp hbyte
  simp only [State.unsent, hp, List.length_drop, ClaimRing.content, List.length_append]
  omega

/-- **One step of the link** takes from the potential what it gains. The
reading of the high-water mark leaves three for the give. -/
theorem link_potential {s t : Link.State} {l : Link.Label} (hinv : Inv encode s)
    (hbusy : s.phase ≠ .idle → s.link.txRing.claimed ≠ []) (ht : Takes encode s l t) :
    linkPotential t + (Label.link l).gain + (if l = .measure then 3 else 0) + budget encode s
      ≤ linkPotential s + (Label.link l).cost + budget encode t := by
  cases ht with
  | inval _ _ => simp [Label.gain, Label.works]
  | noMem _ _ => simp [Label.gain, Label.works, linkPotential, State.unsent, countDropped, budget]
  | accept hfree _ =>
      simp [Label.gain, Label.works, linkPotential, State.unsent, budget, senderPotential, hfree]
  | @put f bytes hs =>
      obtain ⟨hbytes, hfit⟩ := hinv.fits f bytes hs
      have hsent : (encodings encode 0 (s.accepted ++ [f])).length
          = (encodings encode 0 s.accepted).length + bytes.length := by
        rw [encodings_append_singleton, List.length_append, Nat.zero_add, ← hinv.seq, hbytes]
        rfl
      simp only [Label.gain, Label.works, linkPotential, unsent_put hinv hfit, budget, hsent, hs,
        senderPotential, Label.cost, List.length_append, List.length_singleton]
      simp
      omega
  | measure hs =>
      simp [Label.gain, Label.works, linkPotential, State.unsent, noteHighWater, budget,
        senderPotential, hs]
  | claim hp _ _ _ =>
      simp [Label.gain, Label.works, linkPotential, State.unsent, hp, budget, phasePotential]
      omega
  | takeDone hp _ =>
      simp [Label.gain, Label.works, linkPotential, State.unsent, hp, budget, phasePotential]
      omega
  | uartFail hp =>
      simp [Label.gain, Label.works, Label.cost, linkPotential, State.unsent, hp, budget,
        phasePotential, ClaimRing.finish_content]
      omega
  | uartOk hp =>
      simp [Label.gain, Label.works, linkPotential, State.unsent, hp, budget, phasePotential]
      omega
  | @dmaByte k byte hp hbyte =>
      have hunsent := unsent_dmaByte hp hbyte
      simp only [Label.gain, Label.works, linkPotential, budget, Label.cost, hunsent, hp]
      cases k with
      | zero =>
          simp only [phasePotential, reduceCtorEq, if_true, if_false]
          omega
      | succ k =>
          simp only [phasePotential, reduceCtorEq, if_true, if_false]
          omega
  | dmaDone hp =>
      have hne := hbusy (by simp [hp])
      obtain ⟨b, bs, hclaimed⟩ := List.exists_cons_of_ne_nil hne
      simp [Label.gain, Label.works, linkPotential, State.unsent, hp, budget, hclaimed,
        phasePotential, ClaimRing.content]
      omega
  | finish hp _ =>
      simp [Label.gain, Label.works, linkPotential, State.unsent, hp, budget, phasePotential,
        ClaimRing.finish_all_content]
      omega
  | resetCounters =>
      simp [Label.gain, Label.works, linkPotential, State.unsent, snLinkResetCounters, budget]

/-- **One step** takes from the potential what it gains. -/
theorem step_potential (s : State) (l : Label) (t : State) (h : Awake encode s)
    (hstep : step encode s l = some t) :
    potential t + l.gain + budget encode s.link ≤ potential s + l.cost + budget encode t.link := by
  cases l with
  | link a =>
      obtain ⟨_, hstep⟩ := Option.ite_none_left_eq_some.mp hstep
      obtain ⟨link, hlink, rfl⟩ := Option.map_eq_some_iff.mp hstep
      have hstep := link_potential h.link h.busy (step_takes hlink)
      simp only [potential]
      split at hstep <;> simp_all <;> omega
  | empty =>
      obtain ⟨⟨_, hawake, _⟩, heq⟩ := Option.ite_none_right_eq_some.mp hstep
      cases heq
      simp [potential, Label.gain, Label.works, Label.cost, hawake]
  | wake =>
      obtain ⟨⟨hasleep, hready⟩, heq⟩ := Option.ite_none_right_eq_some.mp hstep
      cases heq
      simp [potential, Label.gain, Label.works, Label.cost, hasleep, hready]
  | give =>
      obtain ⟨howed, heq⟩ := Option.ite_none_right_eq_some.mp hstep
      cases heq
      simp only [potential, Label.gain, Label.works, Label.cost, if_true]
      split <;> split <;> omega

/-- A call that has still to put its frame is good for what the frame is. -/
def heldPotential : Sender → Nat
  | .accepted _ bytes => 7 * bytes.length + 5
  | _ => 0

/-- The turns a state has left, as long as no call begins and no `uart_tx`
fails: seven for each byte in the ring and in the claim, and what the phase of the
transmit thread, the call under way and the semaphore are good for. -/
def turnsLeft (s : State) : Nat := potential s + heldPotential s.link.sender

/-- A call of `sn_link_send` begins. -/
def Label.begins : Label → Bool
  | .link (.send _) => true
  | _ => false

/-- Without a new call the budget grows by what a call holds. -/
theorem held_budget {s t : Link.State} {l : Link.Label} (hinv : Inv encode s)
    (hbegins : (Label.link l).begins = false) (ht : Takes encode s l t) :
    budget encode t + heldPotential t.sender ≤ budget encode s + heldPotential s.sender := by
  cases ht with
  | inval _ _ => cases hbegins
  | noMem _ _ => cases hbegins
  | accept _ _ => cases hbegins
  | @put f bytes hs =>
      obtain ⟨hbytes, -⟩ := hinv.fits f bytes hs
      have hsent : (encodings encode 0 (s.accepted ++ [f])).length
          = (encodings encode 0 s.accepted).length + bytes.length := by
        rw [encodings_append_singleton, List.length_append, Nat.zero_add, ← hinv.seq, hbytes]
        rfl
      simp only [budget, hsent, hs, heldPotential, List.length_append, List.length_singleton]
      omega
  | measure hs => simp only [budget, heldPotential, hs, Nat.le_refl]
  | _ => exact Nat.le_refl _

/-- **One turn** more is one fewer left. -/
theorem step_turnsLeft (s : State) (l : Label) (t : State) (h : Awake encode s)
    (hbegins : l.begins = false) (hstep : step encode s l = some t) :
    turnsLeft t + l.gain ≤ turnsLeft s + l.cost := by
  have hpotential := step_potential s l t h hstep
  have hheld : budget encode t.link + heldPotential t.link.sender
      ≤ budget encode s.link + heldPotential s.link.sender := by
    cases l with
    | link a =>
        obtain ⟨_, hstep⟩ := Option.ite_none_left_eq_some.mp hstep
        obtain ⟨link, hlink, rfl⟩ := Option.map_eq_some_iff.mp hstep
        exact held_budget h.link hbegins (step_takes hlink)
    | empty =>
        obtain ⟨_, heq⟩ := Option.ite_none_right_eq_some.mp hstep
        cases heq
        exact Nat.le_refl _
    | wake =>
        obtain ⟨_, heq⟩ := Option.ite_none_right_eq_some.mp hstep
        cases heq
        exact Nat.le_refl _
    | give =>
        obtain ⟨_, heq⟩ := Option.ite_none_right_eq_some.mp hstep
        cases heq
        exact Nat.le_refl _
  unfold turnsLeft
  omega

theorem total_gain (ls : List Label) : Machine.total Label.gain ls = ls.countP Label.works :=
  (Machine.total_countP Label.works 1 ls).trans (Nat.one_mul _)

theorem total_cost (ls : List Label) :
    Machine.total Label.cost ls = 2 * ls.count (.link .uartFail) := by
  induction ls with
  | nil => rfl
  | cons l ls ih =>
      rw [Machine.total_cons, ih, List.count_cons]
      by_cases hl : l = .link .uartFail
      · subst hl
        simp [Label.cost]
        omega
      · have hcost : l.cost = 0 := by
          unfold Label.cost
          split
          · exact absurd rfl hl
          · rfl
        simp [hcost, hl]

/-! ## Where the steps end -/

/-- With nothing left to do the thread sleeps on an empty ring, and no call is
under way. -/
theorem stuck_drained {s : State} (h : Awake encode s)
    (hstuck : (machine encode).Stuck (fun l => l.works = true) s) :
    s.link.sender = .none ∧ s.owed = 0 ∧ s.asleep = true ∧ s.link.unsent = [] := by
  have hsender : s.link.sender = .none := by
    cases hs : s.link.sender with
    | none => rfl
    | accepted f bytes =>
        have hput := hstuck (.link .put) rfl
        simp [machine, step, claims, Link.step, hs] at hput
    | measuring =>
        have hmeasure := hstuck (.link .measure) rfl
        simp [machine, step, claims, Link.step, hs] at hmeasure
  have howed : s.owed = 0 := by
    have hgive := hstuck .give rfl
    simpa [machine, step] using hgive
  have hidle : s.link.phase = .idle := by
    cases hp : s.link.phase with
    | idle => rfl
    | claimed =>
        have hdone : s.link.txDone = true := by simpa [hp] using h.done
        have htake := hstuck (.link .takeDone) rfl
        simp [machine, step, claims, Link.step, hp, hdone] at htake
    | ready =>
        have hok := hstuck (.link .uartOk) rfl
        simp [machine, step, claims, Link.step, hp] at hok
    | sending k =>
        -- the DMA either has another byte of the span or is at its end
        have hk := h.link.span k hp
        have hbyte := hstuck (.link .dmaByte) rfl
        have hdone := hstuck (.link .dmaDone) rfl
        simp [machine, step, claims, Link.step, hp] at hbyte hdone
        omega
    | signalled =>
        have hdone : s.link.txDone = true := by simpa [hp] using h.done
        have hfinish := hstuck (.link .finish) rfl
        simp [machine, step, claims, Link.step, hp, hdone] at hfinish
  have hasleep : s.asleep = true := by
    cases ha : s.asleep with
    | true => rfl
    | false =>
        have hempty := hstuck .empty rfl
        have hclaim := hstuck (.link (.claim 1)) rfl
        simp [machine, step, claims, Link.step, hidle, ha, txDmaChunk] at hempty hclaim
        omega
  refine ⟨hsender, howed, hasleep, ?_⟩
  have hwake := hstuck .wake rfl
  simp only [State.unsent, hidle]
  refine Decidable.byContradiction fun hne => ?_
  rcases (h.asleep hasleep).2 hne with hready | howes | hmeasuring
  · simp [machine, step, hasleep, hready] at hwake
  · omega
  · rw [hsender] at hmeasuring
    cases hmeasuring

/-- **The transmit thread neither sleeps over bytes nor spins.** From every state
that some interleaving of calls, transmit thread, DMA, gives and failed starts
reaches, through every further one: while bytes are in the ring the thread is
awake, or `tx_ready` is there for it to take, or a call is about to give it; as
long as no call begins, the turns taken are at most those the state has left and
two for each start that failed; and once none is left to take, every byte accepted
is on the wire. -/
theorem tx_thread_drains (encode : Encode) (before ls : List Label) (s t : State)
    (hbefore : (machine encode).run {} before = some s)
    (hrun : (machine encode).run s ls = some t) :
    (t.link.unsent ≠ [] → t.asleep = true → t.txReady = true ∨ t.WakerComing) ∧
    ((∀ l ∈ ls, l.begins = false) →
      ls.countP Label.works ≤ turnsLeft s + 2 * ls.count (.link .uartFail)) ∧
    ((machine encode).Stuck (fun l => l.works = true) t →
      t.asleep = true ∧ t.link.sender = .none ∧ t.owed = 0 ∧
        t.link.wire = encodings encode 0 t.link.accepted) := by
  have hreached := awake_run hbefore
  have hawake := (machine encode).run_invariant awake_step hreached hrun
  refine ⟨fun hne hasleep => ?_, fun hquiet => ?_, fun hstuck => ?_⟩
  · obtain ⟨hidle, hbytes⟩ := hawake.asleep hasleep
    refine hbytes fun hnil => hne ?_
    simpa only [State.unsent, hidle] using hnil
  · have hmeets : (machine encode).RunMeets (fun _ l => l.begins = false) s ls :=
      (machine encode).runMeets_of_forall s fun l hl _ => hquiet l hl
    have hbound := @Machine.run_potential_of State Label (machine encode) (Awake encode)
      (fun _ l => l.begins = false) turnsLeft (fun _ => 0) Label.gain Label.cost
      (fun s l t h _ => awake_step s l t h) step_turnsLeft s t ls hreached hmeets hrun
    rw [total_gain, total_cost] at hbound
    omega
  · obtain ⟨hsender, howed, hasleep, hunsent⟩ := stuck_drained hawake hstuck
    have hwire := hawake.link.wire
    rw [hunsent, List.append_nil] at hwire
    exact ⟨hasleep, hsender, howed, hwire⟩

/-- A frame put while the thread goes to sleep: the give finds it there, and the
turns it brings are read off the call that has still to put it. -/
theorem tx_thread_drains_late_put :
    let encode : Encode := fun _ seq payload => seq.toUInt8 :: payload
    let before : List Label := [.link (.send ⟨.packet, [7]⟩), .empty]
    let ls : List Label :=
      [.link .put, .link .measure, .give, .wake, .link (.claim 2), .link .takeDone,
       .link .uartFail, .link (.claim 2), .link .takeDone, .link .uartOk, .link .dmaByte,
       .link .dmaByte, .link .dmaDone, .link .finish, .empty]
    ∃ s t, (machine encode).run {} before = some s ∧ (machine encode).run s ls = some t ∧
      ls.countP Label.works ≤ turnsLeft s + 2 * ls.count (.link .uartFail) := by
  intro encode before ls
  have hbefore : ((machine encode).run {} before).isSome = true := by decide +kernel
  obtain ⟨s, hs⟩ := Option.isSome_iff_exists.mp hbefore
  have hruns : (((machine encode).run {} before).bind fun s =>
      (machine encode).run s ls).isSome = true := by decide +kernel
  rw [hs, Option.bind_some] at hruns
  obtain ⟨t, ht⟩ := Option.isSome_iff_exists.mp hruns
  exact ⟨s, t, hs, ht, (tx_thread_drains encode before ls s t hs ht).2.1 (by decide)⟩

end Nrf54Sniffer.Link.TxThread
