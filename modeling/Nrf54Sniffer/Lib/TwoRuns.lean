/-
Nrf54Sniffer.Lib.TwoRuns — two runs of one machine, side by side.

A property of two runs (what one input may not influence) is a relation
between their states that each pair of related steps keeps, `none` answered by
`none`. `run_related` carries it along two lists of related labels, and
`run_observed` reads off whatever the related states agree on.

The rules for `Option.Rel` are the ones a step built from binds and maps asks
for. `SameAhead` and `SameSince` are for runs that begin at different times: the
same answers are to come, and the same has been logged since.
-/
import Nrf54Sniffer.Lib.Machine
import Mathlib.Data.List.Forall2

namespace Nrf54Sniffer.Lib

/-! ## Partial functions on related arguments -/

section Partial

variable {α β γ δ : Type} {R : α → β → Prop} {S : γ → δ → Prop}

/-- Related answers, given to related functions. -/
theorem rel_bind {x : Option α} {y : Option β} {f : α → Option γ} {g : β → Option δ}
    (h : Option.Rel R x y) (hfg : ∀ a b, R a b → Option.Rel S (f a) (g b)) :
    Option.Rel S (x.bind f) (y.bind g) := by
  cases h with
  | some hab => exact hfg _ _ hab
  | none => exact .none

/-- The same answer, given to related functions. -/
theorem rel_bind_self {x : Option α} {f : α → Option γ} {g : α → Option δ}
    (hfg : ∀ a, Option.Rel S (f a) (g a)) : Option.Rel S (x.bind f) (x.bind g) := by
  cases x with
  | some a => exact hfg a
  | none => exact .none

theorem rel_map {x : Option α} {y : Option β} {f : α → γ} {g : β → δ}
    (h : Option.Rel R x y) (hfg : ∀ a b, R a b → S (f a) (g b)) :
    Option.Rel S (x.map f) (y.map g) := by
  cases h with
  | some hab => exact .some (hfg _ _ hab)
  | none => exact .none

/-- Related answers agree in what related values agree in. -/
theorem map_eq_of_rel {x : Option α} {y : Option β} {f : α → γ} {g : β → γ}
    (h : Option.Rel R x y) (hfg : ∀ a b, R a b → f a = g b) : x.map f = y.map g := by
  cases h with
  | some hab => exact congrArg some (hfg _ _ hab)
  | none => rfl

end Partial

/-! ## Runs that begin at different times -/

section Since

variable {α : Type}

/-- From the `m`th answer of the one and the `n`th of the other on, both answer
alike. -/
def SameAhead (f g : Nat → α) (m n : Nat) : Prop := ∀ k, f (m + k) = g (n + k)

theorem SameAhead.now {f g : Nat → α} {m n : Nat} (h : SameAhead f g m n) : f m = g n := h 0

theorem SameAhead.next {f g : Nat → α} {m n : Nat} (h : SameAhead f g m n) :
    SameAhead f g (m + 1) (n + 1) := by
  intro k
  rw [Nat.add_assoc, Nat.add_assoc]
  exact h (1 + k)

/-- Past its first `m` entries the one log is the other past its first `n`. -/
structure SameSince (m n : Nat) (xs ys : List α) : Prop where
  left : m ≤ xs.length
  right : n ≤ ys.length
  same : xs.drop m = ys.drop n

theorem SameSince.here (xs ys : List α) : SameSince xs.length ys.length xs ys where
  left := Nat.le_refl _
  right := Nat.le_refl _
  same := by rw [List.drop_length, List.drop_length]

theorem SameSince.push {m n : Nat} {xs ys : List α} (h : SameSince m n xs ys) (a : α) :
    SameSince m n (xs ++ [a]) (ys ++ [a]) where
  left := by rw [List.length_append]; exact Nat.le_add_right_of_le h.left
  right := by rw [List.length_append]; exact Nat.le_add_right_of_le h.right
  same := by
    rw [List.drop_append_of_le_length h.left, List.drop_append_of_le_length h.right, h.same]

end Since

/-! ## Two runs -/

namespace Machine

variable {σ α : Type} (m : Machine σ α)

/-- **Two-run rule.** What every two related steps keep, every two runs along
related labels keep. -/
theorem run_related {R : σ → σ → Prop} {A : α → α → Prop}
    (hstep : ∀ s t a b, R s t → A a b → Option.Rel R (m.step s a) (m.step t b))
    {s t : σ} {as bs : List α} (hst : R s t) (hlabels : List.Forall₂ A as bs) :
    Option.Rel R (m.run s as) (m.run t bs) := by
  induction hlabels generalizing s t with
  | nil => exact .some hst
  | cons hab _ ih => exact rel_bind (hstep s t _ _ hst hab) fun s' t' hst' => ih hst'

/-- What related states agree on is the same after both runs. -/
theorem run_observed {τ : Type} {R : σ → σ → Prop} {A : α → α → Prop} {observe : σ → τ}
    (hstep : ∀ s t a b, R s t → A a b → Option.Rel R (m.step s a) (m.step t b))
    (hobserve : ∀ s t, R s t → observe s = observe t)
    {s t : σ} {as bs : List α} (hst : R s t) (hlabels : List.Forall₂ A as bs) :
    (m.run s as).map observe = (m.run t bs).map observe :=
  map_eq_of_rel (m.run_related hstep hst hlabels) hobserve

end Machine

end Nrf54Sniffer.Lib
