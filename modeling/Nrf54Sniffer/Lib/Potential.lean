/-
Nrf54Sniffer.Lib.Potential — counting the steps of a run against a potential.

Each label gains something and may cost something. Where no step takes more
from the potential than it gains, give or take its cost, a whole run gains at
most the potential it starts with, what the labels cost, and nothing else
(`run_potential_of`, `run_potential`). With a gain of one for each step of a
thread the rule bounds how often the thread can move, however the steps are
interleaved; with a gain for each byte sent it bounds the bytes.

`Stuck` is a state in which none of some labels is enabled: where a bounded run
of them ends.
-/
import Nrf54Sniffer.Lib.Machine

namespace Nrf54Sniffer.Lib

namespace Machine

variable {σ α : Type} (m : Machine σ α)

/-- What the labels of a run come to. -/
def total (f : α → Nat) : List α → Nat
  | [] => 0
  | a :: as => f a + total f as

@[simp] theorem total_nil (f : α → Nat) : total f [] = 0 := rfl

@[simp] theorem total_cons (f : α → Nat) (a : α) (as : List α) :
    total f (a :: as) = f a + total f as := rfl

/-- **Potential rule.** `pot` is what a state is still good for, `spent` what it
has taken in: where each step that meets the condition turns one into the other,
with the gain and the cost of its label, so does a run of such steps. -/
theorem run_potential_of {I : σ → Prop} {cond : σ → α → Prop} {pot spent : σ → Nat}
    {gain cost : α → Nat} (hkeeps : ∀ s a s', I s → cond s a → m.step s a = some s' → I s')
    (hstep : ∀ s a s', I s → cond s a → m.step s a = some s' →
      pot s' + gain a + spent s ≤ pot s + cost a + spent s')
    {s t : σ} {as : List α} (hs : I s) (hmeets : m.RunMeets cond s as)
    (hrun : m.run s as = some t) :
    pot t + total gain as + spent s ≤ pot s + total cost as + spent t := by
  induction as generalizing s with
  | nil =>
      cases hrun
      simp
  | cons a as ih =>
      obtain ⟨s', hfirst, hrest⟩ := m.run_cons_eq_some.mp hrun
      have hone := hstep s a s' hs hmeets.1 hfirst
      have hmore := ih (hkeeps s a s' hs hmeets.1 hfirst) (hmeets.2 s' hfirst) hrest
      simp only [total_cons]
      omega

/-- The rule without a condition. -/
theorem run_potential {I : σ → Prop} {pot spent : σ → Nat} {gain cost : α → Nat}
    (hkeeps : ∀ s a s', I s → m.step s a = some s' → I s')
    (hstep : ∀ s a s', I s → m.step s a = some s' →
      pot s' + gain a + spent s ≤ pot s + cost a + spent s')
    {s t : σ} {as : List α} (hs : I s) (hrun : m.run s as = some t) :
    pot t + total gain as + spent s ≤ pot s + total cost as + spent t :=
  m.run_potential_of (fun s a s' h _ => hkeeps s a s' h) (fun s a s' h _ => hstep s a s' h) hs
    (m.runMeets_of_forall s fun _ _ _ => trivial) hrun

theorem total_add (f g : α → Nat) (as : List α) :
    total (fun a => f a + g a) as = total f as + total g as := by
  induction as with
  | nil => rfl
  | cons a as ih =>
      simp only [total_cons, ih]
      omega

/-- A weight that only some labels have counts them. -/
theorem total_countP (p : α → Bool) (k : Nat) (as : List α) :
    total (fun a => if p a then k else 0) as = k * as.countP p := by
  induction as with
  | nil => rfl
  | cons a as ih =>
      rw [total_cons, ih, List.countP_cons]
      split <;> simp [Nat.mul_add, Nat.add_comm]

/-- None of these labels is enabled. -/
def Stuck (P : α → Prop) (s : σ) : Prop := ∀ a, P a → m.step s a = none

end Machine

end Nrf54Sniffer.Lib
