/-
Nrf54Sniffer.Lib.InDoubt — a receiver some of whose requests got no answer.

The caller sees of each request that it was carried out, that it was refused,
or neither. `MayBe` is what the receiver may then have become: a request in
doubt has been carried out, or has not. A statement about every state that may
be is a statement about every receiver that answers as this one did.

A script left at the first request that is not carried out (`Lib/Script.lean`)
leaves its receiver somewhere along the script (`MayBe.issued_iff`).
-/
import Nrf54Sniffer.Lib.Script

namespace Nrf54Sniffer.Lib

/-- What an answer says of the request. -/
inductive Fate where
  | done
  | refused
  | unknown
  deriving DecidableEq, Repr

variable {σ γ ρ : Type}

/-- What a receiver may be after requests and their answers. -/
inductive MayBe (exec : σ → γ → σ) (fate : ρ → Fate) : σ → List (γ × ρ) → σ → Prop where
  | start (s : σ) : MayBe exec fate s [] s
  | does {s t : σ} {x : γ × ρ} {log : List (γ × ρ)} (h : fate x.2 ≠ .refused)
      (hrest : MayBe exec fate (exec s x.1) log t) : MayBe exec fate s (x :: log) t
  | skips {s t : σ} {x : γ × ρ} {log : List (γ × ρ)} (h : fate x.2 ≠ .done)
      (hrest : MayBe exec fate s log t) : MayBe exec fate s (x :: log) t

namespace MayBe

variable {exec : σ → γ → σ} {fate : ρ → Fate} {s t : σ}

/-- The receiver that carried out all it did not refuse. -/
def eager (exec : σ → γ → σ) (fate : ρ → Fate) (s : σ) (log : List (γ × ρ)) : σ :=
  log.foldl (fun s x => if fate x.2 = .refused then s else exec s x.1) s

/-- There always is one. -/
theorem eager_mayBe (exec : σ → γ → σ) (fate : ρ → Fate) (s : σ) (log : List (γ × ρ)) :
    MayBe exec fate s log (eager exec fate s log) := by
  induction log generalizing s with
  | nil => exact .start s
  | cons x log ih =>
      unfold eager
      rw [List.foldl_cons]
      split
      · rename_i hrefused
        exact .skips (by rw [hrefused]; decide) (ih s)
      · rename_i hgoes
        exact .does hgoes (ih (exec s x.1))

theorem append_iff {log log' : List (γ × ρ)} {u : σ} :
    MayBe exec fate s (log ++ log') u ↔
      ∃ t, MayBe exec fate s log t ∧ MayBe exec fate t log' u := by
  induction log generalizing s with
  | nil =>
      constructor
      · intro h
        exact ⟨s, .start s, h⟩
      · rintro ⟨t, ht, hu⟩
        cases ht
        exact hu
  | cons x log ih =>
      rw [List.cons_append]
      constructor
      · intro h
        cases h with
        | does hfate hrest =>
            obtain ⟨t, ht, hu⟩ := ih.mp hrest
            exact ⟨t, .does hfate ht, hu⟩
        | skips hfate hrest =>
            obtain ⟨t, ht, hu⟩ := ih.mp hrest
            exact ⟨t, .skips hfate ht, hu⟩
      · rintro ⟨t, ht, hu⟩
        cases ht with
        | does hfate hrest => exact .does hfate (ih.mpr ⟨t, hrest, hu⟩)
        | skips hfate hrest => exact .skips hfate (ih.mpr ⟨t, hrest, hu⟩)

/-- One request. -/
theorem single_iff {x : γ × ρ} :
    MayBe exec fate s [x] t ↔
      (fate x.2 ≠ .refused ∧ t = exec s x.1) ∨ (fate x.2 ≠ .done ∧ t = s) := by
  constructor
  · intro h
    cases h with
    | does hfate hrest =>
        cases hrest
        exact .inl ⟨hfate, rfl⟩
    | skips hfate hrest =>
        cases hrest
        exact .inr ⟨hfate, rfl⟩
  · rintro (⟨hfate, rfl⟩ | ⟨hfate, rfl⟩)
    · exact .does hfate (.start _)
    · exact .skips hfate (.start _)

/-- Requests that do nothing to the receiver. -/
theorem of_inert {log : List (γ × ρ)} (h : MayBe exec fate s log t)
    (hinert : ∀ x ∈ log, ∀ s, exec s x.1 = s) : t = s := by
  induction h with
  | start s => rfl
  | @does s t x log hfate hrest ih =>
      rw [ih fun y hy => hinert y (List.mem_cons_of_mem x hy), hinert x List.mem_cons_self]
  | @skips s t x log hfate hrest ih =>
      exact ih fun y hy => hinert y (List.mem_cons_of_mem x hy)

end MayBe

/-! ## Scripts -/

variable {ok : ρ → Bool} {answers : Nat → ρ}

/-- The script is left at its `i`-th request. -/
def LeftAt (ok : ρ → Bool) (answers : Nat → ρ) (k : Nat) (cs : List γ) (i : Nat) : Prop :=
  i < cs.length ∧ (∀ j < i, ok (answers (k + j)) = true) ∧ ok (answers (k + i)) = false

/-- Nowhere: it gets through. -/
def GetsThrough (ok : ρ → Bool) (answers : Nat → ρ) (k : Nat) (cs : List γ) : Prop :=
  ∀ i < cs.length, ok (answers (k + i)) = true

theorem leftAt_zero_iff {k : Nat} {c : γ} {cs : List γ} :
    LeftAt ok answers k (c :: cs) 0 ↔ ok (answers k) = false := by
  simp [LeftAt]

theorem leftAt_succ_iff {k i : Nat} {c : γ} {cs : List γ} :
    LeftAt ok answers k (c :: cs) (i + 1) ↔
      ok (answers k) = true ∧ LeftAt ok answers (k + 1) cs i := by
  have hnext : ∀ j, k + (j + 1) = k + 1 + j := fun j => by omega
  unfold LeftAt
  rw [hnext i, List.length_cons, Nat.add_lt_add_iff_right]
  constructor
  · rintro ⟨hi, hbefore, hat⟩
    refine ⟨hbefore 0 (Nat.succ_pos i), hi, fun j hj => ?_, hat⟩
    rw [← hnext j]
    exact hbefore (j + 1) (Nat.succ_lt_succ hj)
  · rintro ⟨hfirst, hi, hbefore, hat⟩
    refine ⟨hi, fun j hj => ?_, hat⟩
    cases j with
    | zero => exact hfirst
    | succ j =>
        rw [hnext j]
        exact hbefore j (Nat.lt_of_succ_lt_succ hj)

theorem getsThrough_cons_iff {k : Nat} {c : γ} {cs : List γ} :
    GetsThrough ok answers k (c :: cs) ↔
      ok (answers k) = true ∧ GetsThrough ok answers (k + 1) cs := by
  have hnext : ∀ j, k + (j + 1) = k + 1 + j := fun j => by omega
  constructor
  · intro h
    refine ⟨h 0 (by simp), fun i hi => ?_⟩
    rw [← hnext i]
    exact h (i + 1) (by simpa using hi)
  · rintro ⟨hfirst, hrest⟩ i hi
    cases i with
    | zero => exact hfirst
    | succ i =>
        rw [hnext i]
        exact hrest i (by simpa using hi)

/-- It is left at one place only, and then it does not get through. -/
theorem LeftAt.unique {k i j : Nat} {cs : List γ} (h : LeftAt ok answers k cs i)
    (h' : LeftAt ok answers k cs j) : i = j := by
  rcases Nat.lt_trichotomy i j with hlt | heq | hgt
  · have hopen := h.2.2
    rw [h'.2.1 i hlt] at hopen
    cases hopen
  · exact heq
  · have hopen := h'.2.2
    rw [h.2.1 j hgt] at hopen
    cases hopen

theorem LeftAt.not_getsThrough {k i : Nat} {cs : List γ} (h : LeftAt ok answers k cs i) :
    ¬ GetsThrough ok answers k cs := by
  intro hthrough
  have hopen := h.2.2
  rw [hthrough i h.1] at hopen
  cases hopen

/-- It gets through, or is left somewhere. -/
theorem getsThrough_or_leftAt (ok : ρ → Bool) (answers : Nat → ρ) (k : Nat) (cs : List γ) :
    GetsThrough ok answers k cs ∨ ∃ i, LeftAt ok answers k cs i := by
  induction cs generalizing k with
  | nil => exact .inl fun i hi => absurd hi (Nat.not_lt_zero i)
  | cons c cs ih =>
      cases h : ok (answers k) with
      | false => exact .inr ⟨0, leftAt_zero_iff.mpr h⟩
      | true =>
          rcases ih (k + 1) with hthrough | ⟨i, hleft⟩
          · exact .inl (getsThrough_cons_iff.mpr ⟨h, hthrough⟩)
          · exact .inr ⟨i + 1, leftAt_succ_iff.mpr ⟨h, hleft⟩⟩

namespace MayBe

variable {exec : σ → γ → σ} {fate : ρ → Fate} {s t : σ}

/-- **Along the script.** One that gets through has all been carried out. One
that is left has been carried out up to the request it is left at, and that
request too unless it was refused. -/
theorem issued_iff (hok : ∀ r, ok r = true ↔ fate r = .done) {k : Nat} {cs : List γ} :
    MayBe exec fate s (issued ok answers k cs) t ↔
      (GetsThrough ok answers k cs ∧ t = cs.foldl exec s) ∨
      ∃ i, LeftAt ok answers k cs i ∧ (t = (cs.take i).foldl exec s ∨
        fate (answers (k + i)) ≠ .refused ∧ t = (cs.take (i + 1)).foldl exec s) := by
  induction cs generalizing k s with
  | nil =>
      constructor
      · intro h
        cases h
        exact .inl ⟨fun i hi => absurd hi (Nat.not_lt_zero i), rfl⟩
      · rintro (⟨_, rfl⟩ | ⟨i, ⟨hi, _⟩, _⟩)
        · exact .start _
        · exact absurd hi (Nat.not_lt_zero i)
  | cons c cs ih =>
      have hshift : ∀ i, k + 1 + i = k + (i + 1) := fun i => by omega
      cases hgoes : ok (answers k) with
      | false =>
          have hopen : fate (answers k) ≠ .done := fun hdone => by
            rw [(hok _).mpr hdone] at hgoes
            cases hgoes
          rw [issued_cons_refused hgoes, single_iff]
          constructor
          · rintro (⟨hfate, rfl⟩ | ⟨_, rfl⟩)
            · exact .inr ⟨0, leftAt_zero_iff.mpr hgoes, .inr ⟨hfate, rfl⟩⟩
            · exact .inr ⟨0, leftAt_zero_iff.mpr hgoes, .inl rfl⟩
          · rintro (⟨hthrough, _⟩ | ⟨i, hleft, hstate⟩)
            · rw [(getsThrough_cons_iff.mp hthrough).1] at hgoes
              cases hgoes
            · cases i with
              | succ i =>
                  rw [(leftAt_succ_iff.mp hleft).1] at hgoes
                  cases hgoes
              | zero =>
                  rcases hstate with rfl | ⟨hfate, rfl⟩
                  · exact .inr ⟨hopen, rfl⟩
                  · exact .inl ⟨hfate, rfl⟩
      | true =>
          have hdone : fate (answers k) = .done := (hok _).mp hgoes
          have hone : MayBe exec fate s (issued ok answers k (c :: cs)) t ↔
              MayBe exec fate (exec s c) (issued ok answers (k + 1) cs) t := by
            rw [issued_cons_ok hgoes]
            constructor
            · intro h
              cases h with
              | does _ hrest => exact hrest
              | skips hfate _ => exact absurd hdone hfate
            · intro h
              refine .does ?_ h
              show fate (answers k) ≠ .refused
              rw [hdone]
              decide
          rw [hone, ih]
          constructor
          · rintro (⟨hthrough, rfl⟩ | ⟨i, hleft, hstate⟩)
            · exact .inl ⟨getsThrough_cons_iff.mpr ⟨hgoes, hthrough⟩, rfl⟩
            · rw [hshift i] at hstate
              exact .inr ⟨i + 1, leftAt_succ_iff.mpr ⟨hgoes, hleft⟩, hstate⟩
          · rintro (⟨hthrough, rfl⟩ | ⟨i, hleft, hstate⟩)
            · exact .inl ⟨(getsThrough_cons_iff.mp hthrough).2, rfl⟩
            · cases i with
              | zero =>
                  rw [leftAt_zero_iff.mp hleft] at hgoes
                  cases hgoes
              | succ i =>
                  rw [← hshift i] at hstate
                  exact .inr ⟨i, (leftAt_succ_iff.mp hleft).2, hstate⟩

end MayBe

end Nrf54Sniffer.Lib
