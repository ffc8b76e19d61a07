/-
Nrf54Sniffer.Lib.Machine — labelled machines, their runs, and the induction
rules for what every run preserves.

A machine is a partial step function: `step s a = none` when the label `a` is
not enabled in `s`. A run is a list of labels, and `run` threads the state
through it. Nondeterminism (an interleaving, an outcome of the environment) is
in the choice of the labels, so a statement about every list of labels is a
statement about every interleaving.

`run_invariant` is the usual rule: an invariant that each step keeps holds
after every run. `run_invariant_of` is the same rule relative to a condition
on the steps, for a property that holds of exactly the runs whose steps all
avoid some race. `withGhost` adds what a property wants remembered.
-/

namespace Nrf54Sniffer.Lib

/-- A labelled machine with states `σ` and labels `α`. -/
structure Machine (σ α : Type) where
  step : σ → α → Option σ

namespace Machine

variable {σ α : Type} (m : Machine σ α)

/-- The state after a list of labels, if each was enabled in its turn. -/
def run (s : σ) : List α → Option σ
  | [] => some s
  | a :: as => (m.step s a).bind fun s' => run s' as

/-- Every step of the run, taken in the state before it, meets `cond`. -/
def RunMeets (cond : σ → α → Prop) (s : σ) : List α → Prop
  | [] => True
  | a :: as => cond s a ∧ ∀ s', m.step s a = some s' → RunMeets cond s' as

/-- A condition on the labels alone holds along every run of such labels. -/
theorem runMeets_of_forall {cond : σ → α → Prop} {as : List α} (s : σ)
    (h : ∀ a ∈ as, ∀ s, cond s a) : m.RunMeets cond s as := by
  induction as generalizing s with
  | nil => trivial
  | cons a as ih =>
      refine ⟨h a (by simp) s, fun s' _ => ih s' ?_⟩
      intro b hb
      exact h b (by simp [hb])

/-- Whether a run's steps all meet a condition can be decided where the
condition can. -/
instance decidableRunMeets {cond : σ → α → Prop} [∀ s a, Decidable (cond s a)] :
    (s : σ) → (as : List α) → Decidable (m.RunMeets cond s as)
  | _, [] => isTrue trivial
  | s, a :: as =>
      match h : m.step s a with
      | none => decidable_of_iff (cond s a)
          ⟨fun hc => ⟨hc, fun s' hs' => by rw [h] at hs'; cases hs'⟩, fun hr => hr.1⟩
      | some t =>
          have : Decidable (m.RunMeets cond t as) := decidableRunMeets t as
          decidable_of_iff (cond s a ∧ m.RunMeets cond t as)
            ⟨fun hc => ⟨hc.1, fun s' hs' => by rw [h] at hs'; cases hs'; exact hc.2⟩,
             fun hr => ⟨hr.1, hr.2 t h⟩⟩

@[simp] theorem run_nil (s : σ) : m.run s [] = some s := rfl

theorem run_cons (s : σ) (a : α) (as : List α) :
    m.run s (a :: as) = (m.step s a).bind fun s' => m.run s' as := rfl

/-- A run ends after its first step and a run from there. -/
theorem run_cons_eq_some {s t : σ} {a : α} {as : List α} :
    m.run s (a :: as) = some t ↔ ∃ s', m.step s a = some s' ∧ m.run s' as = some t := by
  rw [run_cons, Option.bind_eq_some_iff]

theorem run_append (s : σ) (as bs : List α) :
    m.run s (as ++ bs) = (m.run s as).bind fun s' => m.run s' bs := by
  induction as generalizing s with
  | nil => rfl
  | cons a as ih =>
      rw [List.cons_append, run_cons, run_cons, Option.bind_assoc]
      exact congrArg _ (funext fun s' => ih s')

/-- **Invariant rule.** What each step keeps, every run keeps. -/
theorem run_invariant {I : σ → Prop}
    (hstep : ∀ s a s', I s → m.step s a = some s' → I s')
    {s t : σ} {as : List α} (hs : I s) (hrun : m.run s as = some t) : I t := by
  induction as generalizing s with
  | nil => cases hrun; exact hs
  | cons a as ih =>
      obtain ⟨s', h1, h2⟩ := m.run_cons_eq_some.mp hrun
      exact ih (hstep s a s' hs h1) h2

/-- **Conditional invariant rule.** What each step that meets the condition
keeps, every run of such steps keeps. -/
theorem run_invariant_of {I : σ → Prop} {cond : σ → α → Prop}
    (hstep : ∀ s a s', I s → cond s a → m.step s a = some s' → I s')
    {s t : σ} {as : List α} (hs : I s) (hmeets : m.RunMeets cond s as)
    (hrun : m.run s as = some t) : I t := by
  induction as generalizing s with
  | nil => cases hrun; exact hs
  | cons a as ih =>
      obtain ⟨s', h1, h2⟩ := m.run_cons_eq_some.mp hrun
      exact ih (hstep s a s' hs hmeets.1 h1) (hmeets.2 s' h1) h2

/-! ## Conditions that are exact -/

/-- A state the run passes through, its first and last among them. -/
def Visits (s : σ) (as : List α) (u : σ) : Prop :=
  ∃ pre post, as = pre ++ post ∧ m.run s pre = some u

theorem visits_first (s : σ) (as : List α) : m.Visits s as s := ⟨[], as, rfl, rfl⟩

theorem visits_cons {s s' u : σ} {a : α} {as : List α} (hstep : m.step s a = some s')
    (h : m.Visits s' as u) : m.Visits s (a :: as) u := by
  obtain ⟨pre, post, rfl, hrun⟩ := h
  exact ⟨a :: pre, post, rfl, m.run_cons_eq_some.mpr ⟨s', hstep, hrun⟩⟩

/-- **Exact condition rule.** Where a step keeps `I` exactly when it meets
`cond`, a run has `I` throughout exactly when all its steps meet it. -/
theorem visits_iff_runMeets {I : σ → Prop} {cond : σ → α → Prop}
    (hstep : ∀ s a s', I s → m.step s a = some s' → (I s' ↔ cond s a))
    {s t : σ} {as : List α} (hs : I s) (hrun : m.run s as = some t) :
    (∀ u, m.Visits s as u → I u) ↔ m.RunMeets cond s as := by
  induction as generalizing s with
  | nil =>
      refine ⟨fun _ => trivial, fun _ u hu => ?_⟩
      obtain ⟨pre, post, heq, hpre⟩ := hu
      obtain ⟨rfl, rfl⟩ := List.nil_eq_append_iff.mp heq
      cases hpre
      exact hs
  | cons a as ih =>
      obtain ⟨s', hfirst, hrest⟩ := m.run_cons_eq_some.mp hrun
      constructor
      · intro hall
        have hs' : I s' := hall s' (m.visits_cons hfirst (m.visits_first s' as))
        refine ⟨(hstep s a s' hs hfirst).mp hs', fun u hu => ?_⟩
        rw [hfirst] at hu
        cases hu
        exact (ih hs' hrest).mp fun u hu => hall u (m.visits_cons hfirst hu)
      · rintro ⟨hcond, hmeets⟩ u ⟨pre, post, heq, hpre⟩
        have hs' : I s' := (hstep s a s' hs hfirst).mpr hcond
        cases pre with
        | nil =>
            cases hpre
            exact hs
        | cons b pre =>
            obtain ⟨rfl, rfl⟩ := List.cons.inj heq
            obtain ⟨s'', hfirst', hpre⟩ := m.run_cons_eq_some.mp hpre
            rw [hfirst] at hfirst'
            cases hfirst'
            exact (ih hs' hrest).mpr (hmeets s' hfirst) u ⟨pre, post, rfl, hpre⟩

/-! ## A ghost beside the state -/

/-- The machine with a ghost kept beside the state, brought up to date by each
step from the state before it. -/
def withGhost {γ : Type} (update : σ → α → γ → γ) : Machine (σ × γ) α where
  step s a := (m.step s.1 a).map fun s' => (s', update s.1 a s.2)

/-- The ghost neither stops a step nor changes one. -/
theorem run_withGhost {γ : Type} (update : σ → α → γ → γ) (s : σ) (g : γ) (as : List α) :
    ((m.withGhost update).run (s, g) as).map Prod.fst = m.run s as := by
  induction as generalizing s g with
  | nil => rfl
  | cons a as ih =>
      rw [run_cons, run_cons]
      cases hstep : m.step s a with
      | none => simp [withGhost, hstep]
      | some s' => simpa [withGhost, hstep] using ih s' (update s a g)

end Machine

end Nrf54Sniffer.Lib
