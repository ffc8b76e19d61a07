/-
Nrf54Sniffer.Lib.Scanner — scanners over streams that arrive in pieces.

A scanner looks at the bytes it has and either waits for more or consumes some
of them, possibly emitting a result. Its one law is that it never changes its
mind: what it decides on some bytes it decides on any continuation of them.
From the law, `run_append`: scanning a stream in one go emits what scanning a
first part emits and then what scanning the rest behind the unconsumed
remainder emits. So the results depend on the stream and not on how it was cut.

`Bounded` is what a scanner with a finite buffer needs: at no prefix does the
remainder grow past the bound. `bounded_of_next` and `bounded_of_stop` prove it
step by step along a stream.
-/

namespace Nrf54Sniffer.Lib

/-- A scanner: how many elements to consume and what to emit, or `none` to
wait. -/
structure Scanner (α β : Type) where
  next : List α → Option (Nat × Option β)
  next_pos : ∀ {xs r}, next xs = some r → 0 < r.1 ∧ r.1 ≤ xs.length
  next_append : ∀ {xs r} (ys : List α), next xs = some r → next (xs ++ ys) = some r

namespace Scanner

variable {α β : Type} (S : Scanner α β)

/-- Induction along the steps of a scanner. -/
theorem induction {P : List α → Prop} (stop : ∀ xs, S.next xs = none → P xs)
    (step : ∀ xs n out, S.next xs = some (n, out) → P (xs.drop n) → P xs) (xs : List α) : P xs := by
  suffices H : ∀ n, ∀ xs : List α, xs.length ≤ n → P xs from H xs.length xs (Nat.le_refl _)
  intro n
  induction n with
  | zero =>
      intro xs hn
      cases hnext : S.next xs with
      | none => exact stop xs hnext
      | some r =>
          have := S.next_pos hnext
          omega
  | succ n ih =>
      intro xs hn
      cases hnext : S.next xs with
      | none => exact stop xs hnext
      | some r =>
          have := S.next_pos hnext
          exact step xs r.1 r.2 hnext (ih _ (by rw [List.length_drop]; omega))

/-- At most `fuel` steps. -/
def runFuel : Nat → List α → List β × List α
  | 0, xs => ([], xs)
  | fuel + 1, xs =>
      match S.next xs with
      | none => ([], xs)
      | some (n, out) =>
          let (bs, rest) := runFuel fuel (xs.drop n)
          (out.toList ++ bs, rest)

/-- Steps until the scanner waits: what is emitted, and what is left. -/
def run (xs : List α) : List β × List α := S.runFuel xs.length xs

theorem runFuel_stop {fuel : Nat} {xs : List α} (h : S.next xs = none) :
    S.runFuel fuel xs = ([], xs) := by
  cases fuel with
  | zero => rfl
  | succ fuel => simp only [runFuel, h]

theorem runFuel_next {fuel n : Nat} {xs : List α} {out : Option β} (h : S.next xs = some (n, out)) :
    S.runFuel (fuel + 1) xs
      = (out.toList ++ (S.runFuel fuel (xs.drop n)).1, (S.runFuel fuel (xs.drop n)).2) := by
  simp only [runFuel, h]

/-- Every step consumes something, so the length is fuel enough. -/
theorem runFuel_eq {fuel fuel' : Nat} {xs : List α} (h : xs.length ≤ fuel)
    (h' : xs.length ≤ fuel') : S.runFuel fuel xs = S.runFuel fuel' xs := by
  induction xs using S.induction generalizing fuel fuel' with
  | stop xs hnext => rw [S.runFuel_stop hnext, S.runFuel_stop hnext]
  | step xs n out hnext ih =>
      obtain ⟨hpos, hle⟩ := S.next_pos hnext
      simp only at hpos hle
      obtain ⟨fuel, rfl⟩ : ∃ k, fuel = k + 1 := ⟨fuel - 1, by omega⟩
      obtain ⟨fuel', rfl⟩ : ∃ k, fuel' = k + 1 := ⟨fuel' - 1, by omega⟩
      have hlen : (xs.drop n).length = xs.length - n := List.length_drop
      have hsame := @ih fuel fuel' (by omega) (by omega)
      rw [S.runFuel_next hnext, S.runFuel_next hnext, hsame]

/-- A scanner that waits leaves everything. -/
theorem run_of_stop {xs : List α} (h : S.next xs = none) : S.run xs = ([], xs) :=
  S.runFuel_stop h

/-- One step, and the rest. -/
theorem run_of_next {xs : List α} {n : Nat} {out : Option β} (h : S.next xs = some (n, out)) :
    S.run xs = (out.toList ++ (S.run (xs.drop n)).1, (S.run (xs.drop n)).2) := by
  obtain ⟨hpos, hle⟩ := S.next_pos h
  simp only at hpos hle
  have hfuel : S.run xs = S.runFuel (xs.length + 1) xs := S.runFuel_eq (by omega) (by omega)
  have hrest : S.runFuel xs.length (xs.drop n) = S.run (xs.drop n) :=
    S.runFuel_eq (by rw [List.length_drop]; omega) (Nat.le_refl _)
  rw [hfuel, S.runFuel_next h, hrest]

/-- Scanning in two parts is scanning in one. -/
theorem run_append (xs ys : List α) :
    S.run (xs ++ ys)
      = ((S.run xs).1 ++ (S.run ((S.run xs).2 ++ ys)).1, (S.run ((S.run xs).2 ++ ys)).2) := by
  induction xs using S.induction with
  | stop xs hnext => rw [S.run_of_stop hnext]; rfl
  | step xs n out hnext ih =>
      have hdrop : (xs ++ ys).drop n = xs.drop n ++ ys :=
        List.drop_append_of_le_length (S.next_pos hnext).2
      rw [S.run_of_next (S.next_append ys hnext), S.run_of_next hnext, hdrop, ih,
        List.append_assoc]

/-- What is left is no longer than what was scanned. -/
theorem run_rest_length (xs : List α) : (S.run xs).2.length ≤ xs.length := by
  induction xs using S.induction with
  | stop xs hnext => exact Nat.le_of_eq (by rw [S.run_of_stop hnext])
  | step xs n out hnext ih =>
      rw [List.length_drop] at ih
      rw [S.run_of_next hnext]
      simp only
      omega

/-- The scanner waits on what is left. -/
theorem run_rest_stop (xs : List α) : S.next (S.run xs).2 = none := by
  induction xs using S.induction with
  | stop xs hnext => rw [S.run_of_stop hnext, hnext]
  | step xs n out hnext ih => rw [S.run_of_next hnext, ih]

/-- What is left is the end of what was scanned. -/
theorem run_rest_drop (xs : List α) : ∃ k, (S.run xs).2 = xs.drop k := by
  induction xs using S.induction with
  | stop xs hnext => exact ⟨0, by rw [S.run_of_stop hnext]; rfl⟩
  | step xs n out hnext ih =>
      obtain ⟨k, hk⟩ := ih
      exact ⟨n + k, by rw [S.run_of_next hnext, hk, List.drop_drop]⟩

/-- What is emitted is emitted at some point of what was scanned. -/
theorem run_emits {xs : List α} {b : β} (h : b ∈ (S.run xs).1) :
    ∃ k n, S.next (xs.drop k) = some (n, some b) := by
  induction xs using S.induction with
  | stop xs hnext =>
      rw [S.run_of_stop hnext] at h
      cases h
  | step xs n out hnext ih =>
      rw [S.run_of_next hnext] at h
      rcases List.mem_append.mp h with hout | hlater
      · rw [Option.mem_toList] at hout
        cases hout
        exact ⟨0, n, hnext⟩
      · obtain ⟨k, m, hk⟩ := ih hlater
        rw [List.drop_drop] at hk
        exact ⟨n + k, m, hk⟩

/-! ## The remainder along a stream -/

/-- At every prefix of the stream at most `B` elements are left over. -/
def Bounded (B : Nat) (xs : List α) : Prop :=
  ∀ ps qs, ps ++ qs = xs → (S.run ps).2.length ≤ B

variable {S}

/-- A stream the scanner waits on, and that fits. -/
theorem bounded_of_stop {B : Nat} {xs : List α} (h : S.next xs = none) (hlen : xs.length ≤ B) :
    S.Bounded B xs := by
  intro ps qs hsplit
  have hstop : S.next ps = none := by
    cases hnext : S.next ps with
    | none => rfl
    | some r =>
        have := S.next_append qs hnext
        rw [hsplit, h] at this
        cases this
  rw [S.run_of_stop hstop]
  show ps.length ≤ B
  have := congrArg List.length hsplit
  simp only [List.length_append] at this
  omega

/-- A first step that does not have to wait past the bound, and the rest. -/
theorem bounded_of_next {B n : Nat} {xs : List α} {out : Option β}
    (h : S.next xs = some (n, out))
    (hwait : ∀ ps qs, ps ++ qs = xs → S.next ps = none → ps.length ≤ B)
    (hrest : S.Bounded B (xs.drop n)) : S.Bounded B xs := by
  intro ps qs hsplit
  cases hnext : S.next ps with
  | none =>
      rw [S.run_of_stop hnext]
      exact hwait ps qs hsplit hnext
  | some r =>
      have hsame : some r = some (n, out) := by
        rw [← S.next_append qs hnext, hsplit, h]
      cases hsame
      have hle : n ≤ ps.length := (S.next_pos hnext).2
      rw [S.run_of_next hnext]
      apply hrest (ps.drop n) qs
      rw [← hsplit, List.drop_append_of_le_length hle]

end Scanner

end Nrf54Sniffer.Lib
