/-
Nrf54Sniffer.Lib.LockOrder — threads that take their mutexes in one order do not
deadlock.

`Code` is what is left of a call, seen by the other threads: the mutexes it
takes and gives back, what it does to the signals, where it waits for one with
or without a limit, and where the data decide. Threads take turns, one act of
one call at a time.

`Code.obeys` is a check of a call by itself: each mutex ranks above those held,
mutexes come back in the reverse order, nothing is held at the end, nor where
the call waits with no limit. Where every call passes, what the threads hold is
in order in every state reached (`orderly_run`), so a thread that cannot get its
mutex waits, at the end of the chain, for a thread that either can move or hopes
for a signal (`chain_ends`). What is left when no turn can be taken is in
`stuck_stands`, and `turn_load` says that there are only so many turns.
-/
import Mathlib.Algebra.Order.BigOperators.Group.Finset
import Nrf54Sniffer.Lib.Potential

namespace Nrf54Sniffer.Lib

/-- What is left of a call. -/
inductive Code (μ ω α : Type) where
  | ret
  | lock (m : μ) (next : Code μ ω α)
  | unlock (m : μ) (next : Code μ ω α)
  | act (a : α) (next : Code μ ω α)
  | await (w : ω) (next : Code μ ω α)
  | awaitFor (w : ω) (next late : Code μ ω α)
  | branch (this that : Code μ ω α)
  deriving DecidableEq, Repr

/-- The longest way through. -/
def Code.depth {μ ω α : Type} : Code μ ω α → Nat
  | .ret => 0
  | .lock _ next | .unlock _ next | .act _ next | .await _ next => next.depth + 1
  | .awaitFor _ next late => max next.depth late.depth + 1
  | .branch this that => max this.depth that.depth + 1

/-- What a thread does at one point of a call. -/
inductive Code.Deed (μ ω α : Type) where
  | locked (m : μ)
  | unlocked (m : μ)
  | did (a : α)
  | got (w : ω)
  | gaveUp (w : ω)
  | chose (first : Bool)
  deriving DecidableEq, Repr

/-- What is left of a call after a deed, where the call can go on by it. -/
def Code.next {μ ω α : Type} [DecidableEq μ] [DecidableEq ω] [DecidableEq α] :
    Code μ ω α → Deed μ ω α → Option (Code μ ω α)
  | .lock m rest, .locked m' => if m' = m then some rest else none
  | .unlock m rest, .unlocked m' => if m' = m then some rest else none
  | .act a rest, .did a' => if a' = a then some rest else none
  | .await w rest, .got w' => if w' = w then some rest else none
  | .awaitFor w rest _, .got w' => if w' = w then some rest else none
  | .awaitFor w _ late, .gaveUp w' => if w' = w then some late else none
  | .branch this that, .chose first => some (if first then this else that)
  | _, _ => none

/-- A call by itself, as a machine. -/
def Code.alone {μ ω α : Type} [DecidableEq μ] [DecidableEq ω] [DecidableEq α] :
    Machine (Code μ ω α) (Deed μ ω α) := ⟨Code.next⟩

/-- A way through a call. -/
def Code.Goes {μ ω α : Type} [DecidableEq μ] [DecidableEq ω] [DecidableEq α] (c : Code μ ω α)
    (way : List (Deed μ ω α)) : Prop := Code.alone.run c way = some .ret

/-- The calls each thread makes, and what is done to the signals: by waiting for
one, by a thread, and from outside. -/
structure ThreadSystem (ι μ ω α β σ : Type) where
  calls : ι → List (Code μ ω α)
  take : σ → ω → Option σ
  perform : σ → α → σ
  happen : σ → β → σ

namespace ThreadSystem

variable {ι μ ω α β σ : Type}

/-- Where each thread is, who holds each mutex, and the signals. -/
structure State (ι μ ω α σ : Type) where
  code : ι → Code μ ω α
  owner : μ → Option ι
  signals : σ

/-- A thread makes its `i`-th call, takes a turn, or gives up waiting; or
something happens outside. At a branch the turn says which way. -/
inductive Label (ι β : Type) where
  | call (t : ι) (i : Nat)
  | turn (t : ι) (first : Bool)
  | late (t : ι)
  | happen (b : β)

/-- All threads at rest. -/
def initial (signals : σ) : State ι μ ω α σ := ⟨fun _ => .ret, fun _ => none, signals⟩

def State.hand [DecidableEq μ] (s : State ι μ ω α σ) (m : μ) (who : Option ι) : State ι μ ω α σ :=
  { s with owner := Function.update s.owner m who }

@[simp] theorem hand_code [DecidableEq μ] (s : State ι μ ω α σ) (m : μ) (who : Option ι) :
    (s.hand m who).code = s.code := rfl

variable [DecidableEq ι]

def State.goto (s : State ι μ ω α σ) (t : ι) (c : Code μ ω α) : State ι μ ω α σ :=
  { s with code := Function.update s.code t c }

@[simp] theorem goto_signals (s : State ι μ ω α σ) (t : ι) (c : Code μ ω α) :
    (s.goto t c).signals = s.signals := rfl

@[simp] theorem goto_self (s : State ι μ ω α σ) (t : ι) (c : Code μ ω α) :
    (s.goto t c).code t = c := by
  simp [State.goto]

theorem goto_other (s : State ι μ ω α σ) {t u : ι} (c : Code μ ω α) (h : u ≠ t) :
    (s.goto t c).code u = s.code u := by
  simp [State.goto, h]

/-- What is left of all the calls. -/
def load [Fintype ι] (s : State ι μ ω α σ) : Nat := ∑ t, (s.code t).depth

theorem load_goto [Fintype ι] (s : State ι μ ω α σ) (t : ι) (c : Code μ ω α) :
    load (s.goto t c) + (s.code t).depth = load s + c.depth := by
  have hnew := Finset.add_sum_erase Finset.univ (fun u => ((s.goto t c).code u).depth)
    (Finset.mem_univ t)
  have hold := Finset.add_sum_erase Finset.univ (fun u => (s.code u).depth) (Finset.mem_univ t)
  have hothers : ∑ u ∈ Finset.univ.erase t, ((s.goto t c).code u).depth
      = ∑ u ∈ Finset.univ.erase t, (s.code u).depth := by
    refine Finset.sum_congr rfl fun u hu => ?_
    rw [goto_other s c (Finset.ne_of_mem_erase hu)]
  simp only [goto_self] at hnew
  unfold load
  omega

theorem load_shrinks [Fintype ι] {s : State ι μ ω α σ} {t : ι} {c : Code μ ω α}
    (h : c.depth < (s.code t).depth) : load (s.goto t c) < load s := by
  have := load_goto s t c
  omega

variable [DecidableEq μ] (S : ThreadSystem ι μ ω α β σ)

/-- A turn of a thread. -/
def turn (s : State ι μ ω α σ) (t : ι) (first : Bool) : Option (State ι μ ω α σ) :=
  match s.code t with
  | .ret => none
  | .lock m next => if s.owner m = none then some ((s.goto t next).hand m (some t)) else none
  | .unlock m next => if s.owner m = some t then some ((s.goto t next).hand m none) else none
  | .act a next => some { s.goto t next with signals := S.perform s.signals a }
  | .await w next | .awaitFor w next _ =>
      (S.take s.signals w).map fun signals => { s.goto t next with signals }
  | .branch this that => some (s.goto t (if first then this else that))

def step (s : State ι μ ω α σ) : Label ι β → Option (State ι μ ω α σ)
  | .call t i =>
      match s.code t with
      | .ret => (S.calls t)[i]?.map (s.goto t)
      | _ => none
  | .turn t first => S.turn s t first
  | .late t =>
      match s.code t with
      | .awaitFor _ _ late => some (s.goto t late)
      | _ => none
  | .happen b => some { s with signals := S.happen s.signals b }

def machine : Machine (State ι μ ω α σ) (Label ι β) := ⟨S.step⟩

/-! ## What a turn does -/

/-- The turns, each with where the thread was. -/
inductive Turns (s : State ι μ ω α σ) (t : ι) : State ι μ ω α σ → Prop
  | lock {m : μ} {next : Code μ ω α} (hcode : s.code t = .lock m next) (hfree : s.owner m = none) :
      Turns s t ((s.goto t next).hand m (some t))
  | unlock {m : μ} {next : Code μ ω α} (hcode : s.code t = .unlock m next)
      (howner : s.owner m = some t) : Turns s t ((s.goto t next).hand m none)
  | act {a : α} {next : Code μ ω α} (hcode : s.code t = .act a next) :
      Turns s t { s.goto t next with signals := S.perform s.signals a }
  | await {w : ω} {next : Code μ ω α} {signals : σ} (hcode : s.code t = .await w next)
      (htake : S.take s.signals w = some signals) : Turns s t { s.goto t next with signals }
  | awaitFor {w : ω} {next late : Code μ ω α} {signals : σ}
      (hcode : s.code t = .awaitFor w next late) (htake : S.take s.signals w = some signals) :
      Turns s t { s.goto t next with signals }
  | this {this that : Code μ ω α} (hcode : s.code t = .branch this that) : Turns s t (s.goto t this)
  | that {this that : Code μ ω α} (hcode : s.code t = .branch this that) : Turns s t (s.goto t that)

/-- The steps that are not turns of a thread. -/
inductive Others (s : State ι μ ω α σ) : Label ι β → State ι μ ω α σ → Prop
  | call {t : ι} {i : Nat} {c : Code μ ω α} (hcode : s.code t = .ret) (hcall : c ∈ S.calls t) :
      Others s (.call t i) (s.goto t c)
  | late {t : ι} {w : ω} {next late : Code μ ω α} (hcode : s.code t = .awaitFor w next late) :
      Others s (.late t) (s.goto t late)
  | happen {b : β} : Others s (.happen b) { s with signals := S.happen s.signals b }

variable {S}

theorem turn_turns {s s' : State ι μ ω α σ} {t : ι} {first : Bool}
    (h : S.turn s t first = some s') : S.Turns s t s' := by
  unfold turn at h
  split at h
  · cases h
  · rename_i hcode
    obtain ⟨hfree, h⟩ := Option.ite_none_right_eq_some.mp h
    cases h
    exact .lock hcode hfree
  · rename_i hcode
    obtain ⟨howner, h⟩ := Option.ite_none_right_eq_some.mp h
    cases h
    exact .unlock hcode howner
  · rename_i hcode
    cases h
    exact .act hcode
  · rename_i hcode
    obtain ⟨signals, htake, h⟩ := Option.map_eq_some_iff.mp h
    cases h
    exact .await hcode htake
  · rename_i hcode
    obtain ⟨signals, htake, h⟩ := Option.map_eq_some_iff.mp h
    cases h
    exact .awaitFor hcode htake
  · rename_i hcode
    cases h
    cases first with
    | true => exact .this hcode
    | false => exact .that hcode

/-- A step is a turn or one of the others. -/
theorem step_cases {s s' : State ι μ ω α σ} {l : Label ι β} (h : S.step s l = some s') :
    (∃ t first, l = .turn t first ∧ S.Turns s t s') ∨ S.Others s l s' := by
  cases l with
  | call t i =>
      simp only [step] at h
      split at h
      · rename_i hcode
        obtain ⟨c, hc, h⟩ := Option.map_eq_some_iff.mp h
        cases h
        exact .inr (.call hcode (List.mem_of_getElem? hc))
      · cases h
  | turn t first => exact .inl ⟨t, first, rfl, turn_turns h⟩
  | late t =>
      simp only [step] at h
      split at h
      · rename_i hcode
        cases h
        exact .inr (.late hcode)
      · cases h
  | happen b =>
      cases h
      exact .inr .happen

end ThreadSystem

/-! ## The order -/

/-- In which order mutexes are taken, which thread may take which, and where a
thread may wait: with no limit, and with one while it holds these. -/
structure Discipline (ι μ ω : Type) where
  rank : μ → Nat
  mayLock : ι → μ → Bool
  mayAwait : ι → ω → Bool
  mayHope : ι → List μ → ω → Bool

variable {ι μ ω α β σ : Type} [DecidableEq μ]

/-- A call keeps to the discipline, from where it holds `held`, the last taken
first. -/
def Code.obeys (D : Discipline ι μ ω) (t : ι) : List μ → Code μ ω α → Bool
  | held, .ret => held.isEmpty
  | held, .lock m next =>
      D.mayLock t m && held.all (fun h => D.rank h < D.rank m) && next.obeys D t (m :: held)
  | [], .unlock _ _ => false
  | h :: held, .unlock m next => h == m && next.obeys D t held
  | held, .act _ next => next.obeys D t held
  | held, .await w next => held.isEmpty && D.mayAwait t w && next.obeys D t held
  | held, .awaitFor w next late =>
      D.mayHope t held w && next.obeys D t held && late.obeys D t held
  | held, .branch this that => this.obeys D t held && that.obeys D t held

namespace ThreadSystem

/-- What each thread holds is in order, and fits what is left of its call. -/
structure Orderly (D : Discipline ι μ ω) (s : State ι μ ω α σ) (held : ι → List μ) : Prop where
  obeys : ∀ t, (s.code t).obeys D t (held t) = true
  sorted : ∀ t, (held t).Pairwise fun m m' => D.rank m' < D.rank m
  owns : ∀ m t, s.owner m = some t ↔ m ∈ held t

variable {D : Discipline ι μ ω} {S : ThreadSystem ι μ ω α β σ} {s s' : State ι μ ω α σ}
  {held : ι → List μ}

theorem orderly_initial (D : Discipline ι μ ω) (signals : σ) :
    Orderly D (initial signals : State ι μ ω α σ) (fun _ => []) where
  obeys _ := rfl
  sorted _ := .nil
  owns _ _ := by simp [initial]

/-- Signals are nobody's. -/
theorem Orderly.signals (h : Orderly D s held) (signals : σ) :
    Orderly D { s with signals } held :=
  ⟨h.obeys, h.sorted, h.owns⟩

/-- Nothing is held at the end of a call. -/
theorem Orderly.at_rest (h : Orderly D s held) {t : ι} (hcode : s.code t = .ret) :
    held t = [] := by
  have hobeys := h.obeys t
  rw [hcode] at hobeys
  simpa [Code.obeys] using hobeys

/-! ## Who waits for whom -/

/-- It waits for a mutex somebody holds. -/
def Queues (s : State ι μ ω α σ) (t : ι) : Prop :=
  ∃ m next u, s.code t = .lock m next ∧ s.owner m = some u

/-- **Nobody waits in a ring.** Behind every mutex held is a thread that waits
for none, and holds one no lower. -/
theorem chain_ends {bound : Nat} (hbound : ∀ m, D.rank m < bound) (h : Orderly D s held) {m : μ}
    {t : ι} (howner : s.owner m = some t) :
    ∃ m' u, s.owner m' = some u ∧ D.rank m ≤ D.rank m' ∧ ¬ Queues s u := by
  -- the rank of what is waited for goes up along the chain
  induction hleft : bound - D.rank m using Nat.strong_induction_on generalizing m t with
  | _ left ih =>
      by_cases hqueues : Queues s t
      · obtain ⟨m₁, next, u, hcode, howner₁⟩ := hqueues
        have hobeys := h.obeys t
        rw [hcode] at hobeys
        simp only [Code.obeys, Bool.and_eq_true, List.all_eq_true, decide_eq_true_eq] at hobeys
        have habove := hobeys.1.2 m ((h.owns m t).mp howner)
        have hroom := hbound m₁
        obtain ⟨m', v, howner', hle, hfree⟩ := ih (bound - D.rank m₁) (by omega) howner₁ rfl
        exact ⟨m', v, howner', by omega, hfree⟩
      · exact ⟨m, t, howner, Nat.le_refl _, hqueues⟩

/-! ## A step -/

variable [DecidableEq ι]

/-- A thread goes on with what it holds. -/
theorem Orderly.goto (h : Orderly D s held) {t : ι} {c : Code μ ω α}
    (hc : c.obeys D t (held t) = true) : Orderly D (s.goto t c) held where
  obeys u := by
    by_cases hu : u = t
    · subst hu
      rw [goto_self]
      exact hc
    · rw [goto_other s c hu]
      exact h.obeys u
  sorted := h.sorted
  owns := h.owns

/-- It goes on with others, and one mutex changes hands. -/
theorem Orderly.handed (h : Orderly D s held) {t : ι} {next : Code μ ω α} {mine : List μ} {m : μ}
    {who : Option ι} (hobeys : next.obeys D t mine = true)
    (hsorted : mine.Pairwise fun m m' => D.rank m' < D.rank m)
    (howns : ∀ m' u, Function.update s.owner m who m' = some u
      ↔ m' ∈ Function.update held t mine u) :
    Orderly D ((s.goto t next).hand m who) (Function.update held t mine) := by
  refine ⟨fun u => ?_, fun u => ?_, howns⟩
  · rw [hand_code]
    by_cases hu : u = t
    · subst hu
      simpa using hobeys
    · rw [goto_other s next hu, Function.update_of_ne hu]
      exact h.obeys u
  · by_cases hu : u = t
    · subst hu
      simpa using hsorted
    · rw [Function.update_of_ne hu]
      exact h.sorted u

/-- It takes a mutex nobody holds. -/
theorem Orderly.take (h : Orderly D s held) {t : ι} {m : μ} {next : Code μ ω α}
    (hcode : s.code t = .lock m next) (hfree : s.owner m = none) :
    Orderly D ((s.goto t next).hand m (some t)) (Function.update held t (m :: held t)) := by
  have hobeys := h.obeys t
  rw [hcode] at hobeys
  simp only [Code.obeys, Bool.and_eq_true, List.all_eq_true, decide_eq_true_eq] at hobeys
  obtain ⟨⟨-, habove⟩, hnext⟩ := hobeys
  refine h.handed hnext (.cons habove (h.sorted t)) fun m' u => ?_
  have howns := h.owns m' u
  by_cases hm : m' = m
  · subst hm
    rw [hfree] at howns
    by_cases hu : u = t
    · subst hu
      simp
    · simp [Function.update_of_ne hu, ← howns, Ne.symm hu]
  · by_cases hu : u = t
    · subst hu
      simp [hm, howns]
    · simp [hm, Function.update_of_ne hu, howns]

/-- It gives back the one it took last. -/
theorem Orderly.give (h : Orderly D s held) {t : ι} {m : μ} {next : Code μ ω α}
    (hcode : s.code t = .unlock m next) :
    ∃ rest, held t = m :: rest ∧
      Orderly D ((s.goto t next).hand m none) (Function.update held t rest) := by
  have hobeys := h.obeys t
  have hsorted := h.sorted t
  rw [hcode] at hobeys
  cases hheld : held t with
  | nil =>
      rw [hheld] at hobeys
      simp [Code.obeys] at hobeys
  | cons m₀ rest =>
      rw [hheld] at hobeys hsorted
      simp only [Code.obeys, Bool.and_eq_true, beq_iff_eq] at hobeys
      obtain ⟨rfl, hnext⟩ := hobeys
      obtain ⟨habove, hrest⟩ := List.pairwise_cons.mp hsorted
      have hmine : s.owner m₀ = some t := (h.owns m₀ t).mpr (by simp [hheld])
      -- it was taken once, and nobody else has it
      have hgone : m₀ ∉ rest := fun hmem => Nat.lt_irrefl _ (habove m₀ hmem)
      refine ⟨rest, rfl, h.handed hnext hrest fun m' u => ?_⟩
      have howns := h.owns m' u
      by_cases hm : m' = m₀
      · subst hm
        by_cases hu : u = t
        · subst hu
          simp [hgone]
        · rw [hmine] at howns
          simp [Function.update_of_ne hu, ← howns, Ne.symm hu]
      · by_cases hu : u = t
        · subst hu
          rw [hheld] at howns
          simp [hm, howns]
        · simp [hm, Function.update_of_ne hu, howns]

/-- Every call keeps to the discipline. -/
def Keeps (S : ThreadSystem ι μ ω α β σ) (D : Discipline ι μ ω) : Prop :=
  ∀ t, ∀ c ∈ S.calls t, c.obeys D t [] = true

/-- **One step** keeps what is held in order. -/
theorem orderly_step (hkeeps : S.Keeps D) {l : Label ι β} (h : ∃ held, Orderly D s held)
    (hstep : S.step s l = some s') : ∃ held, Orderly D s' held := by
  obtain ⟨held, h⟩ := h
  rcases step_cases hstep with ⟨t, first, rfl, hturn⟩ | hother
  · have hobeys := h.obeys t
    cases hturn with
    | lock hcode hfree => exact ⟨_, h.take hcode hfree⟩
    | unlock hcode _ =>
        obtain ⟨rest, -, h⟩ := h.give hcode
        exact ⟨_, h⟩
    | act hcode =>
        rw [hcode, Code.obeys] at hobeys
        exact ⟨held, (h.goto hobeys).signals _⟩
    | await hcode _ =>
        rw [hcode] at hobeys
        simp only [Code.obeys, Bool.and_eq_true] at hobeys
        exact ⟨held, (h.goto hobeys.2).signals _⟩
    | awaitFor hcode _ =>
        rw [hcode] at hobeys
        simp only [Code.obeys, Bool.and_eq_true] at hobeys
        exact ⟨held, (h.goto hobeys.1.2).signals _⟩
    | this hcode =>
        rw [hcode] at hobeys
        simp only [Code.obeys, Bool.and_eq_true] at hobeys
        exact ⟨held, h.goto hobeys.1⟩
    | that hcode =>
        rw [hcode] at hobeys
        simp only [Code.obeys, Bool.and_eq_true] at hobeys
        exact ⟨held, h.goto hobeys.2⟩
  · cases hother with
    | @call t i c hcode hcall =>
        have hc := hkeeps t c hcall
        rw [← h.at_rest hcode] at hc
        exact ⟨held, h.goto hc⟩
    | @late t w next late hcode =>
        have hobeys := h.obeys t
        rw [hcode] at hobeys
        simp only [Code.obeys, Bool.and_eq_true] at hobeys
        exact ⟨held, h.goto hobeys.2⟩
    | happen => exact ⟨held, h.signals _⟩

/-- In every state reached it is. -/
theorem orderly_run (hkeeps : S.Keeps D) {signals : σ} {ls : List (Label ι β)}
    (hrun : S.machine.run (initial signals) ls = some s) : ∃ held, Orderly D s held :=
  S.machine.run_invariant (fun _ _ _ h hstep => orderly_step hkeeps h hstep)
    ⟨_, orderly_initial D signals⟩ hrun

/-! ## Where no turn can be taken -/

/-- Why a thread does not move. -/
inductive Stands (S : ThreadSystem ι μ ω α β σ) (s : State ι μ ω α σ) (t : ι) : Prop
  | rests (hcode : s.code t = .ret)
  | awaits {w : ω} {next : Code μ ω α} (hcode : s.code t = .await w next)
      (hnone : S.take s.signals w = none)
  | hopes {w : ω} {next late : Code μ ω α} (hcode : s.code t = .awaitFor w next late)
      (hnone : S.take s.signals w = none)
  | queues (h : Queues s t)

theorem stuck_stands (h : Orderly D s held) {t : ι} (hstuck : ∀ first, S.turn s t first = none) :
    S.Stands s t := by
  have hturn := hstuck true
  unfold turn at hturn
  cases hcode : s.code t with
  | ret => exact .rests hcode
  | lock m next =>
      cases howner : s.owner m with
      | none => simp [hcode, howner] at hturn
      | some u => exact .queues ⟨m, next, u, hcode, howner⟩
  | unlock m next =>
      obtain ⟨rest, hheld, -⟩ := h.give hcode
      have hmine : s.owner m = some t := (h.owns m t).mpr (by simp [hheld])
      simp [hcode, hmine] at hturn
  | act a next => simp [hcode] at hturn
  | await w next => exact .awaits hcode (by simpa [hcode] using hturn)
  | awaitFor w next late => exact .hopes hcode (by simpa [hcode] using hturn)
  | branch this that => simp [hcode] at hturn

/-- **What a mutex is held for.** Where no turn can be taken, behind every mutex
held is a thread that hopes for a signal, as it may with what it holds. -/
theorem stuck_hopes {bound : Nat} (hbound : ∀ m, D.rank m < bound) (h : Orderly D s held)
    (hstuck : ∀ t first, S.turn s t first = none) {m : μ} {t : ι} (howner : s.owner m = some t) :
    ∃ m' u w next late, s.owner m' = some u ∧ D.rank m ≤ D.rank m' ∧
      s.code u = .awaitFor w next late ∧ S.take s.signals w = none ∧
      D.mayHope u (held u) w = true := by
  obtain ⟨m', u, howner', hle, hfree⟩ := chain_ends hbound h howner
  have hmine := (h.owns m' u).mp howner'
  have hobeys := h.obeys u
  cases stuck_stands h (hstuck u) with
  | rests hcode =>
      rw [h.at_rest hcode] at hmine
      cases hmine
  | awaits hcode _ =>
      rw [hcode] at hobeys
      simp only [Code.obeys, Bool.and_eq_true, List.isEmpty_iff] at hobeys
      rw [hobeys.1.1] at hmine
      cases hmine
  | @hopes w next late hcode hnone =>
      rw [hcode] at hobeys
      simp only [Code.obeys, Bool.and_eq_true] at hobeys
      exact ⟨m', u, w, next, late, howner', hle, hcode, hnone, hobeys.1.1⟩
  | queues hqueues => exact absurd hqueues hfree

/-! ## One thread by itself -/

/-- The label of a deed. -/
def label (t : ι) : Code.Deed μ ω α → Label ι β
  | .gaveUp _ => .late t
  | .chose first => .turn t first
  | _ => .turn t true

/-- The signals after a deed, where there is what it takes. -/
def after (S : ThreadSystem ι μ ω α β σ) (signals : σ) : Code.Deed μ ω α → Option σ
  | .did a => some (S.perform signals a)
  | .got w => S.take signals w
  | _ => some signals

/-- **Nobody is in its way.** Where all the others are at rest, a thread can do
whatever its call goes on by, if the signals are there. -/
theorem step_alone [DecidableEq ω] [DecidableEq α] (h : Orderly D s held) {t : ι}
    (hrest : ∀ u ≠ t, s.code u = .ret) {d : Code.Deed μ ω α} {c : Code μ ω α} {signals : σ}
    (hnext : (s.code t).next d = some c) (hafter : S.after s.signals d = some signals) :
    ∃ s', S.step s (label t d) = some s' ∧ s'.code = Function.update s.code t c ∧
      s'.signals = signals := by
  have hobeys := h.obeys t
  unfold Code.next at hnext
  split at hnext
  · rename_i m rest m' hcode
    obtain ⟨rfl, heq⟩ := Option.ite_none_right_eq_some.mp hnext
    cases heq
    cases hafter
    rw [hcode] at hobeys
    simp only [Code.obeys, Bool.and_eq_true, List.all_eq_true, decide_eq_true_eq] at hobeys
    have hfree : s.owner m' = none := by
      cases howner : s.owner m' with
      | none => rfl
      | some u =>
          have hmine := (h.owns m' u).mp howner
          by_cases hu : u = t
          · subst hu
            exact absurd (hobeys.1.2 m' hmine) (Nat.lt_irrefl _)
          · rw [h.at_rest (hrest u hu)] at hmine
            cases hmine
    refine ⟨(s.goto t c).hand m' (some t), ?_, rfl, rfl⟩
    simp [label, step, turn, hcode, hfree]
  · rename_i m rest m' hcode
    obtain ⟨rfl, heq⟩ := Option.ite_none_right_eq_some.mp hnext
    cases heq
    cases hafter
    obtain ⟨_, hheld, -⟩ := h.give hcode
    have hmine : s.owner m' = some t := (h.owns m' t).mpr (by simp [hheld])
    refine ⟨(s.goto t c).hand m' none, ?_, rfl, rfl⟩
    simp [label, step, turn, hcode, hmine]
  · rename_i a rest a' hcode
    obtain ⟨rfl, heq⟩ := Option.ite_none_right_eq_some.mp hnext
    cases heq
    cases hafter
    refine ⟨{ s.goto t c with signals := S.perform s.signals a' }, ?_, rfl, rfl⟩
    simp [label, step, turn, hcode]
  · rename_i w rest w' hcode
    obtain ⟨rfl, heq⟩ := Option.ite_none_right_eq_some.mp hnext
    cases heq
    have htake : S.take s.signals w' = some signals := hafter
    refine ⟨{ s.goto t c with signals }, ?_, rfl, rfl⟩
    simp [label, step, turn, hcode, htake]
  · rename_i w rest late w' hcode
    obtain ⟨rfl, heq⟩ := Option.ite_none_right_eq_some.mp hnext
    cases heq
    have htake : S.take s.signals w' = some signals := hafter
    refine ⟨{ s.goto t c with signals }, ?_, rfl, rfl⟩
    simp [label, step, turn, hcode, htake]
  · rename_i w rest late w' hcode
    obtain ⟨rfl, heq⟩ := Option.ite_none_right_eq_some.mp hnext
    cases heq
    cases hafter
    refine ⟨s.goto t c, ?_, rfl, rfl⟩
    simp [label, step, hcode]
  · rename_i this that first hcode
    cases hnext
    cases hafter
    refine ⟨s.goto t (if first then this else that), ?_, rfl, rfl⟩
    simp [label, step, turn, hcode]
  · cases hnext

omit [DecidableEq ι] in
/-- With every thread at rest, no mutex is held. -/
theorem Orderly.all_rest (h : Orderly D s held) (hrest : ∀ t, s.code t = .ret) :
    s = initial s.signals := by
  have hcode : s.code = fun _ => .ret := funext hrest
  have howner : s.owner = fun _ => none := by
    funext m
    cases howner : s.owner m with
    | none => rfl
    | some t =>
        have hmine := (h.owns m t).mp howner
        rw [h.at_rest (hrest t)] at hmine
        cases hmine
  obtain ⟨code, owner, signals⟩ := s
  cases hcode
  cases howner
  rfl

/-! ## How many turns there are -/

/-- A turn uses some of it up. -/
theorem turn_load [Fintype ι] {t : ι} (h : S.Turns s t s') : load s' < load s := by
  cases h with
  | lock hcode _ => exact load_shrinks (by simp [hcode, Code.depth])
  | unlock hcode _ => exact load_shrinks (by simp [hcode, Code.depth])
  | act hcode => exact load_shrinks (by simp [hcode, Code.depth])
  | await hcode _ => exact load_shrinks (by simp [hcode, Code.depth])
  | awaitFor hcode _ => exact load_shrinks (by rw [hcode, Code.depth]; omega)
  | this hcode => exact load_shrinks (by rw [hcode, Code.depth]; omega)
  | that hcode => exact load_shrinks (by rw [hcode, Code.depth]; omega)

end ThreadSystem

end Nrf54Sniffer.Lib
