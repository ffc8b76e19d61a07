/-
Nrf54Sniffer.Lib.Script — a script of requests, left at the first that is
refused.

The answers come from outside: `answers k` is the answer to the `k`-th request
ever made, and `ok` says which answers let the script go on. `issued` is what
was really asked for, each request with its answer: a script that gets through
issues itself, and one that does not ends with the refusal.
-/

namespace Nrf54Sniffer.Lib

variable {γ ρ : Type}

/-- The requests a script makes, the first of them the `k`-th ever. -/
def issued (ok : ρ → Bool) (answers : Nat → ρ) : Nat → List γ → List (γ × ρ)
  | _, [] => []
  | k, c :: cs => (c, answers k) :: if ok (answers k) then issued ok answers (k + 1) cs else []

variable {ok : ρ → Bool} {answers : Nat → ρ}

@[simp] theorem issued_nil (k : Nat) : issued ok answers k ([] : List γ) = [] := rfl

theorem issued_cons_ok {k : Nat} (h : ok (answers k) = true) (c : γ) (cs : List γ) :
    issued ok answers k (c :: cs) = (c, answers k) :: issued ok answers (k + 1) cs := by
  simp [issued, h]

theorem issued_cons_refused {k : Nat} (h : ok (answers k) = false) (c : γ) (cs : List γ) :
    issued ok answers k (c :: cs) = [(c, answers k)] := by
  simp [issued, h]

/-- Every request issued was let through exactly when the answers to the whole
script would have let it through. -/
theorem issued_all_ok_iff (k : Nat) (cs : List γ) :
    (∀ x ∈ issued ok answers k cs, ok x.2 = true) ↔
      ∀ i < cs.length, ok (answers (k + i)) = true := by
  induction cs generalizing k with
  | nil => simp
  | cons c cs ih =>
      cases h : ok (answers k) with
      | false =>
          rw [issued_cons_refused h]
          constructor
          · intro hall
            have := hall (c, answers k) (by simp)
            rw [h] at this
            cases this
          · intro hall
            have := hall 0 (by simp)
            rw [Nat.add_zero, h] at this
            cases this
      | true =>
          rw [issued_cons_ok h, List.forall_mem_cons, ih]
          constructor
          · rintro ⟨_, hrest⟩ i hi
            cases i with
            | zero => exact h
            | succ i =>
                have hi' : i < cs.length := by simpa using hi
                have hnext : k + (i + 1) = k + 1 + i := by omega
                rw [hnext]
                exact hrest i hi'
          · intro hall
            refine ⟨h, fun i hi => ?_⟩
            have hnext : k + 1 + i = k + (i + 1) := by omega
            rw [hnext]
            exact hall (i + 1) (by simpa using hi)

/-- A script let through has issued itself. -/
theorem issued_fst_of_all_ok {k : Nat} {cs : List γ}
    (h : ∀ x ∈ issued ok answers k cs, ok x.2 = true) :
    (issued ok answers k cs).map Prod.fst = cs := by
  induction cs generalizing k with
  | nil => rfl
  | cons c cs ih =>
      have hfirst : ok (answers k) = true := h (c, answers k) (by simp [issued])
      rw [issued_cons_ok hfirst] at h ⊢
      rw [List.map_cons, ih (List.forall_mem_cons.mp h).2]

/-- Nothing is issued after a refusal. -/
theorem issued_refused_last {k : Nat} {cs : List γ} {pre post : List (γ × ρ)} {x : γ × ρ}
    (heq : issued ok answers k cs = pre ++ x :: post) (hx : ok x.2 = false) : post = [] := by
  induction cs generalizing k pre with
  | nil => simp at heq
  | cons c cs ih =>
      cases h : ok (answers k) with
      | false =>
          rw [issued_cons_refused h] at heq
          cases pre with
          | nil => exact (List.cons.inj heq).2.symm
          | cons y pre => simp at heq
      | true =>
          rw [issued_cons_ok h] at heq
          cases pre with
          | nil =>
              obtain ⟨hxeq, _⟩ := List.cons.inj heq
              rw [← hxeq, h] at hx
              cases hx
          | cons y pre => exact ih (List.cons.inj heq).2

/-- No more is issued than there is. -/
theorem issued_length_le (k : Nat) (cs : List γ) :
    (issued ok answers k cs).length ≤ cs.length := by
  induction cs generalizing k with
  | nil => exact Nat.le_refl _
  | cons c cs ih =>
      cases h : ok (answers k) with
      | false => simp [issued_cons_refused h]
      | true =>
          have hrest := ih (k + 1)
          simp only [issued_cons_ok h, List.length_cons]
          omega

/-- Only what is in the script is issued. -/
theorem mem_of_mem_issued {k : Nat} {cs : List γ} {x : γ × ρ}
    (h : x ∈ issued ok answers k cs) : x.1 ∈ cs := by
  induction cs generalizing k with
  | nil => cases h
  | cons c cs ih =>
      rcases List.mem_cons.mp h with rfl | h
      · exact List.mem_cons_self
      · split at h
        · exact List.mem_cons_of_mem c (ih h)
        · cases h

/-- A script that gets through goes on to the next. -/
theorem issued_append_ok {k : Nat} {cs : List γ} (ds : List γ)
    (h : ∀ i < cs.length, ok (answers (k + i)) = true) :
    issued ok answers k (cs ++ ds)
      = issued ok answers k cs ++ issued ok answers (k + cs.length) ds := by
  induction cs generalizing k with
  | nil => rfl
  | cons c cs ih =>
      have hfirst : ok (answers k) = true := h 0 (by simp)
      have hrest : ∀ i < cs.length, ok (answers (k + 1 + i)) = true := by
        intro i hi
        have hnext : k + 1 + i = k + (i + 1) := by omega
        rw [hnext]
        exact h (i + 1) (by simpa using hi)
      have hlength : k + (c :: cs).length = k + 1 + cs.length := by
        rw [List.length_cons]
        omega
      rw [List.cons_append, issued_cons_ok hfirst, issued_cons_ok hfirst, ih hrest, hlength]
      rfl

/-- One that does not is all there is. -/
theorem issued_append_refused {k : Nat} {cs : List γ} (ds : List γ)
    (h : ¬ ∀ i < cs.length, ok (answers (k + i)) = true) :
    issued ok answers k (cs ++ ds) = issued ok answers k cs := by
  induction cs generalizing k with
  | nil => exact absurd (fun i hi => by cases hi) h
  | cons c cs ih =>
      cases hfirst : ok (answers k) with
      | false => rw [List.cons_append, issued_cons_refused hfirst, issued_cons_refused hfirst]
      | true =>
          rw [List.cons_append, issued_cons_ok hfirst, issued_cons_ok hfirst, ih]
          intro hrest
          refine h fun i hi => ?_
          cases i with
          | zero => exact hfirst
          | succ i =>
              have hnext : k + (i + 1) = k + 1 + i := by omega
              rw [hnext]
              exact hrest i (by simpa using hi)

end Nrf54Sniffer.Lib
