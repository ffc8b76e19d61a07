/-
Nrf54Sniffer.Lib.SinceMark — totals that are kept beside a log and start again
at the marks in it.

`sinceMark` is the log from its last mark on. `Totals` says that a total is
what that part of the log adds up to: recording an entry keeps it, and so does
starting again with a mark, so whoever has the entries can check the total.
`sinceMark_filter` is the same for a reader who gets only some of the entries,
as long as the marks are among them.
-/

namespace Nrf54Sniffer.Lib

variable {κ τ : Type}

/-- The log from its last mark on; all of it where there is none. -/
def sinceMark (mark : κ → Bool) : List κ → List κ
  | [] => []
  | c :: cs => if cs.any mark then sinceMark mark cs else c :: cs

theorem sinceMark_of_none {mark : κ → Bool} {cs : List κ} (h : cs.any mark = false) :
    sinceMark mark cs = cs := by
  cases cs with
  | nil => rfl
  | cons c cs =>
      have hcs : cs.any mark = false := by
        rw [List.any_cons, Bool.or_eq_false_iff] at h
        exact h.2
      simp [sinceMark, hcs]

/-- What one more entry does. -/
theorem sinceMark_snoc (mark : κ → Bool) (cs : List κ) (c : κ) :
    sinceMark mark (cs ++ [c]) = if mark c then [c] else sinceMark mark cs ++ [c] := by
  induction cs with
  | nil => simp [sinceMark]
  | cons d cs ih =>
      cases hc : mark c with
      | true => simp [sinceMark, hc, ih]
      | false =>
          rw [hc] at ih
          cases hcs : cs.any mark with
          | true => simpa [sinceMark, hc, hcs] using ih
          | false => simp [sinceMark, hc, hcs]

theorem sinceMark_suffix (mark : κ → Bool) (cs : List κ) : sinceMark mark cs <:+ cs := by
  induction cs with
  | nil => exact List.suffix_refl _
  | cons c cs ih =>
      unfold sinceMark
      split
      · exact ih.trans (List.suffix_cons c cs)
      · exact List.suffix_refl _

/-- A reader that gets every mark finds the same part. -/
theorem sinceMark_filter {mark keep : κ → Bool} {cs : List κ}
    (h : ∀ c ∈ cs, mark c = true → keep c = true) :
    (sinceMark mark cs).filter keep = sinceMark mark (cs.filter keep) := by
  induction cs with
  | nil => rfl
  | cons c cs ih =>
      have hrest : ∀ d ∈ cs, mark d = true → keep d = true := fun d hd => h d (by simp [hd])
      -- the marks are the same ones
      have hany : (cs.filter keep).any mark = cs.any mark := by
        rw [Bool.eq_iff_iff, List.any_eq_true, List.any_eq_true]
        constructor
        · rintro ⟨d, hd, hmark⟩
          exact ⟨d, (List.mem_filter.mp hd).1, hmark⟩
        · rintro ⟨d, hd, hmark⟩
          exact ⟨d, List.mem_filter.mpr ⟨hd, hrest d hd hmark⟩, hmark⟩
      cases hmarks : cs.any mark with
      | true =>
          have hlater : sinceMark mark (c :: cs) = sinceMark mark cs := by simp [sinceMark, hmarks]
          rw [hlater, ih hrest]
          cases hc : keep c with
          | true => rw [List.filter_cons_of_pos hc, sinceMark, hany, if_pos hmarks]
          | false => rw [List.filter_cons_of_neg (by simp [hc])]
      | false =>
          have hall : sinceMark mark (c :: cs) = c :: cs := by simp [sinceMark, hmarks]
          rw [hall]
          cases hc : keep c with
          | true =>
              rw [List.filter_cons_of_pos hc, sinceMark, hany, hmarks]
              rfl
          | false =>
              rw [List.filter_cons_of_neg (by simp [hc]), sinceMark_of_none (hany.trans hmarks)]

/-- Marks that go by a part of each entry. -/
theorem sinceMark_map {ι : Type} (mark : ι → Bool) (f : κ → ι) (cs : List κ) :
    (sinceMark (fun c => mark (f c)) cs).map f = sinceMark mark (cs.map f) := by
  induction cs with
  | nil => rfl
  | cons c cs ih =>
      have hany : (cs.map f).any mark = cs.any fun c => mark (f c) := List.any_map
      simp only [List.map_cons, sinceMark, hany]
      split
      · exact ih
      · rfl

/-- The total is what the log since its last mark adds up to. -/
def Totals (account : τ → κ → τ) (zero : τ) (mark : κ → Bool) (log : List κ) (total : τ) : Prop :=
  total = (sinceMark mark log).foldl account zero

namespace Totals

variable {account : τ → κ → τ} {zero total : τ} {mark : κ → Bool} {log : List κ} {c : κ}

theorem start : Totals account zero mark [] zero := rfl

theorem record (h : Totals account zero mark log total) (hc : mark c = false) :
    Totals account zero mark (log ++ [c]) (account total c) := by
  rw [Totals, sinceMark_snoc, hc, if_neg (by simp), List.foldl_append, ← h]
  rfl

theorem restart (hc : mark c = true) :
    Totals account zero mark (log ++ [c]) (account zero c) := by
  rw [Totals, sinceMark_snoc, if_pos hc]
  rfl

end Totals

end Nrf54Sniffer.Lib
