/-
Nrf54Sniffer.Lib.Gauge — what a high-water mark says about the quantity it
follows.

A machine keeps a mark of some gauge and raises it to the gauge at one kind of
step, the sample. `run_mark` says what the mark is after a run: the most any
sample found, or what it was before. What happened between the samples it cannot
say by itself. `run_below` is the rule for that: a level that never falls, and
never lies below what the quantity has come to.
-/
import Nrf54Sniffer.Lib.Machine

namespace Nrf54Sniffer.Lib

namespace Machine

variable {σ α : Type} (m : Machine σ α)

/-- The run takes a step `a` in the state `u`. -/
def StepsAt (s : σ) (as : List α) (a : α) (u : σ) : Prop :=
  ∃ pre post, as = pre ++ a :: post ∧ m.run s pre = some u

theorem stepsAt_first (s : σ) (a : α) (as : List α) : m.StepsAt s (a :: as) a s :=
  ⟨[], as, rfl, rfl⟩

theorem stepsAt_cons {s s' u : σ} {a b : α} {as : List α} (hstep : m.step s b = some s')
    (h : m.StepsAt s' as a u) : m.StepsAt s (b :: as) a u := by
  obtain ⟨pre, post, rfl, hrun⟩ := h
  exact ⟨b :: pre, post, rfl, m.run_cons_eq_some.mpr ⟨s', hstep, hrun⟩⟩

/-- A beginning of the run is empty, or goes on from where the first step leads. -/
theorem run_beginning {s s' u : σ} {b : α} {as pre rest : List α} (hstep : m.step s b = some s')
    (heq : b :: as = pre ++ rest) (hrun : m.run s pre = some u) :
    (rest = b :: as ∧ u = s) ∨ ∃ pre', as = pre' ++ rest ∧ m.run s' pre' = some u := by
  cases pre with
  | nil =>
      simp only [run_nil, Option.some.injEq] at hrun
      exact .inl ⟨heq.symm, hrun.symm⟩
  | cons c pre =>
      simp only [List.cons_append, List.cons.injEq] at heq
      obtain ⟨rfl, rfl⟩ := heq
      obtain ⟨s'', hfirst, hrest⟩ := m.run_cons_eq_some.mp hrun
      rw [hstep] at hfirst
      cases hfirst
      exact .inr ⟨pre, rfl, hrest⟩

/-- The first step, or one of the rest. -/
theorem stepsAt_cases {s s' u : σ} {a b : α} {as : List α} (hstep : m.step s b = some s')
    (h : m.StepsAt s (b :: as) a u) : (a = b ∧ u = s) ∨ m.StepsAt s' as a u := by
  obtain ⟨pre, post, heq, hrun⟩ := h
  rcases m.run_beginning hstep heq hrun with ⟨hrest, hu⟩ | ⟨pre', has, hrun⟩
  · exact .inl ⟨(List.cons.inj hrest).1, hu⟩
  · exact .inr ⟨pre', post, has, hrun⟩

/-- The first state, or one of the rest. -/
theorem visits_cases {s s' u : σ} {a : α} {as : List α} (hstep : m.step s a = some s')
    (h : m.Visits s (a :: as) u) : u = s ∨ m.Visits s' as u := by
  obtain ⟨pre, post, heq, hrun⟩ := h
  rcases m.run_beginning hstep heq hrun with ⟨-, hu⟩ | ⟨pre', has, hrun⟩
  · exact .inl hu
  · exact .inr ⟨pre', post, has, hrun⟩

/-- **The mark is the greatest sample.** Where a step raises the mark to the
gauge if it is a sample and leaves it alone if not, the mark after a run is no
less than any sample of the run, and is one of them unless it never moved. -/
theorem run_mark (mark gauge : σ → Nat) (sample : α) {s t : σ} {as : List α}
    (hsample : ∀ u u', m.step u sample = some u' → mark u' = max (mark u) (gauge u))
    (hother : ∀ u u' a, a ∈ as → a ≠ sample → m.step u a = some u' → mark u' = mark u)
    (hrun : m.run s as = some t) :
    mark s ≤ mark t ∧ (∀ u, m.StepsAt s as sample u → gauge u ≤ mark t) ∧
    (mark t = mark s ∨ ∃ u, m.StepsAt s as sample u ∧ mark t = gauge u) := by
  induction as generalizing s with
  | nil =>
      cases hrun
      refine ⟨Nat.le_refl _, ?_, .inl rfl⟩
      rintro u ⟨pre, post, heq, _⟩
      simp at heq
  | cons a as ih =>
      obtain ⟨s', hfirst, hrest⟩ := m.run_cons_eq_some.mp hrun
      obtain ⟨hle, hall, hsome⟩ :=
        ih (fun u u' b hb => hother u u' b (List.mem_cons_of_mem a hb)) hrest
      by_cases ha : a = sample
      · subst ha
        have hmark := hsample s s' hfirst
        refine ⟨by omega, ?_, ?_⟩
        · intro u hu
          rcases m.stepsAt_cases hfirst hu with ⟨-, rfl⟩ | hu
          · omega
          · exact hall u hu
        · rcases hsome with heq | ⟨u, hu, heq⟩
          · -- the rest has not moved it: it is the first sample, or older
            rcases Nat.le_total (gauge s) (mark s) with hold | hnew
            · exact .inl (by omega)
            · exact .inr ⟨s, m.stepsAt_first s a as, by omega⟩
          · exact .inr ⟨u, m.stepsAt_cons hfirst hu, heq⟩
      · have hmark := hother s s' a (by simp) ha hfirst
        refine ⟨by omega, ?_, ?_⟩
        · intro u hu
          rcases m.stepsAt_cases hfirst hu with ⟨heq, -⟩ | hu
          · exact absurd heq.symm ha
          · exact hall u hu
        · rcases hsome with heq | ⟨u, hu, heq⟩
          · exact .inl (by omega)
          · exact .inr ⟨u, m.stepsAt_cons hfirst hu, heq⟩

/-- **A level that never falls.** Where no step lowers the level, or lets the
quantity rise past it, the quantity was never past the level the run ends with,
or else was that high from the start. -/
theorem run_below {I : σ → Prop} {cond : σ → α → Prop} (held level : σ → Nat)
    (hkeeps : ∀ s a s', I s → m.step s a = some s' → I s')
    (hlevel : ∀ s a s', I s → cond s a → m.step s a = some s' → level s ≤ level s')
    (hheld : ∀ s a s', I s → cond s a → m.step s a = some s' → held s' ≤ max (held s) (level s'))
    {s t : σ} {as : List α} (hs : I s) (hmeets : m.RunMeets cond s as)
    (hrun : m.run s as = some t) :
    level s ≤ level t ∧ ∀ u, m.Visits s as u → held u ≤ max (held s) (level t) := by
  induction as generalizing s with
  | nil =>
      cases hrun
      refine ⟨Nat.le_refl _, ?_⟩
      rintro u ⟨pre, post, heq, hpre⟩
      obtain ⟨rfl, rfl⟩ := List.nil_eq_append_iff.mp heq
      cases hpre
      exact Nat.le_max_left _ _
  | cons a as ih =>
      obtain ⟨s', hfirst, hrest⟩ := m.run_cons_eq_some.mp hrun
      obtain ⟨hle, hall⟩ := ih (hkeeps s a s' hs hfirst) (hmeets.2 s' hfirst) hrest
      have hone := hlevel s a s' hs hmeets.1 hfirst
      have hrise := hheld s a s' hs hmeets.1 hfirst
      refine ⟨by omega, ?_⟩
      intro u hu
      rcases m.visits_cases hfirst hu with rfl | hu
      · exact Nat.le_max_left _ _
      · have := hall u hu
        omega

end Machine

end Nrf54Sniffer.Lib
