/-
Nrf54Sniffer.Lib.GreedyCut — cutting a list into as few groups as a rule on the
groups allows.

`cutFrom` puts each item into the open group where it still fits there, and
closes the group otherwise. If every item fits alone, and a part of a group
that fits fits too (`Cuttable`), no other cut has fewer groups
(`cutFrom_isLeast`): wherever the greedy cut closes a group, so has every other
cut by then. `Cuts` follows a packer step by step against it.
-/
import Mathlib.Order.Bounds.Defs

namespace Nrf54Sniffer.Lib

variable {α : Type} {Fits : List α → Prop}

/-- The groups are a cut of the items, and each fits. -/
structure IsCut (Fits : List α → Prop) (items : List α) (groups : List (List α)) : Prop where
  whole : groups.flatten = items
  fits : ∀ g ∈ groups, Fits g

/-- Every item fits alone, and a part of what fits fits. -/
structure Cuttable (Fits : List α → Prop) : Prop where
  alone : ∀ x, Fits [x]
  part : ∀ {g h : List α}, g <:+: h → Fits h → Fits g

/-- The greedy cut, with the group `g` open. -/
def cutFrom (Fits : List α → Prop) [DecidablePred Fits] (g : List α) : List α → List (List α)
  | [] => if g.isEmpty then [] else [g]
  | x :: xs => if Fits (g ++ [x]) then cutFrom Fits (g ++ [x]) xs else g :: cutFrom Fits [x] xs

/-- An item of a cut lies in one of the groups. -/
theorem group_of_item {groups : List (List α)} {before after : List α} {x : α}
    (h : groups.flatten = before ++ x :: after) :
    ∃ earlier u v later, groups = earlier ++ (u ++ x :: v) :: later ∧
      before = earlier.flatten ++ u ∧ after = v ++ later.flatten := by
  induction groups generalizing before with
  | nil => simp at h
  | cons g groups ih =>
      rw [List.flatten_cons, List.append_eq_append_iff] at h
      rcases h with ⟨rest, hbefore, hrest⟩ | ⟨rest, hg, hrest⟩
      · obtain ⟨earlier, u, v, later, hgroups, hb, ha⟩ := ih hrest
        refine ⟨g :: earlier, u, v, later, by rw [hgroups]; rfl, ?_, ha⟩
        rw [hbefore, hb, List.flatten_cons, List.append_assoc]
      · cases rest with
        | nil =>
            have hnext : groups.flatten = [] ++ x :: after := hrest.symm
            obtain ⟨earlier, u, v, later, hgroups, hb, ha⟩ := ih hnext
            refine ⟨g :: earlier, u, v, later, by rw [hgroups]; rfl, ?_, ha⟩
            rw [List.flatten_cons, List.append_assoc, ← hb, hg]
            simp
        | cons y rest =>
            obtain ⟨rfl, hafter⟩ := List.cons.inj hrest
            exact ⟨[], before, rest, groups, by rw [hg]; rfl, rfl, hafter⟩

section Greedy

variable [DecidablePred Fits]

theorem cutFrom_whole (g xs : List α) : (cutFrom Fits g xs).flatten = g ++ xs := by
  induction xs generalizing g with
  | nil =>
      cases g with
      | nil => rfl
      | cons y g => simp [cutFrom]
  | cons x xs ih =>
      unfold cutFrom
      split
      · rw [ih, List.append_assoc]
        rfl
      · rw [List.flatten_cons, ih]
        rfl

theorem cutFrom_fits (hrule : Cuttable Fits) {g : List α} (hg : Fits g) (xs : List α) :
    ∀ h ∈ cutFrom Fits g xs, Fits h := by
  induction xs generalizing g with
  | nil =>
      intro h hh
      unfold cutFrom at hh
      split at hh
      · cases hh
      · rw [List.mem_singleton.mp hh]
        exact hg
  | cons x xs ih =>
      unfold cutFrom
      split
      · rename_i hjoin
        exact ih hjoin
      · intro h hh
        rcases List.mem_cons.mp hh with rfl | hh
        · exact hg
        · exact ih (hrule.alone x) h hh

/-- Nothing fits in the open group any more: it may as well be closed at once. -/
theorem cutFrom_full (hrule : Cuttable Fits) {g : List α} (hne : g ≠ [])
    (hfull : ∀ x, ¬ Fits (g ++ [x])) (xs : List α) :
    cutFrom Fits g xs = g :: cutFrom Fits [] xs := by
  cases xs with
  | nil =>
      have hopen : ¬ g.isEmpty = true := fun h => hne (List.isEmpty_iff.mp h)
      rw [cutFrom, if_neg hopen]
      rfl
  | cons x xs =>
      rw [cutFrom, if_neg (hfull x), cutFrom, List.nil_append, if_pos (hrule.alone x)]

/-- The greedy cut stays ahead: a cut of the same items, and of any before
them, has no fewer groups. -/
theorem cutFrom_le (hrule : Cuttable Fits) {groups : List (List α)} {before g xs : List α}
    (hcut : IsCut Fits (before ++ g ++ xs) groups) :
    (cutFrom Fits g xs).length ≤ groups.length := by
  induction xs generalizing before g groups with
  | nil =>
      unfold cutFrom
      split
      · exact Nat.zero_le _
      · rename_i hopen
        cases groups with
        | nil =>
            have hnil : before = [] ∧ g = [] := by simpa using hcut.whole.symm
            exact absurd (List.isEmpty_iff.mpr hnil.2) hopen
        | cons h groups => simp
  | cons x xs ih =>
      unfold cutFrom
      split
      · have hjoined : IsCut Fits (before ++ (g ++ [x]) ++ xs) groups :=
          ⟨by simp [hcut.whole], hcut.fits⟩
        exact ih hjoined
      · rename_i hclose
        -- the group the item lies in cannot be the first: it would hold `g ++ [x]`
        obtain ⟨earlier, u, v, later, rfl, hbefore, hafter⟩ := group_of_item hcut.whole
        have hlater : IsCut Fits (u ++ [x] ++ xs) ((u ++ x :: v) :: later) := by
          refine ⟨by simp [hafter], fun h hh => hcut.fits h ?_⟩
          exact List.mem_append_right _ hh
        have hrest := ih hlater
        cases earlier with
        | nil =>
            rw [List.flatten_nil, List.nil_append] at hbefore
            have hpart : g ++ [x] <:+: u ++ x :: v := ⟨before, v, by simp [← hbefore]⟩
            exact absurd (hrule.part hpart (hcut.fits _ (by simp))) hclose
        | cons h earlier =>
            simp only [List.length_cons, List.length_append] at hrest ⊢
            omega

/-- **The greedy cut has the fewest groups.** -/
theorem cutFrom_isLeast (hrule : Cuttable Fits) (items : List α) :
    IsLeast {n | ∃ groups, IsCut Fits items groups ∧ groups.length = n}
      (cutFrom Fits [] items).length := by
  constructor
  · refine ⟨cutFrom Fits [] items, ⟨cutFrom_whole [] items, ?_⟩, rfl⟩
    cases items with
    | nil => simp [cutFrom]
    | cons x xs => exact cutFrom_fits hrule (hrule.part ⟨[], [x], rfl⟩ (hrule.alone x)) _
  · rintro n ⟨groups, hcut, rfl⟩
    have hall : IsCut Fits ([] ++ [] ++ items) groups := hcut
    exact cutFrom_le hrule hall

/-! ## Packers -/

/-- A packer with the group `g` open took in the items `xs`, closed `n` groups
and left `g'` open, as the greedy cut would. -/
def Cuts (Fits : List α → Prop) [DecidablePred Fits] (g xs : List α) (n : Nat) (g' : List α) :
    Prop :=
  ∀ later, (cutFrom Fits g (xs ++ later)).length = n + (cutFrom Fits g' later).length

namespace Cuts

theorem refl (g : List α) : Cuts Fits g [] 0 g := fun _ => (Nat.zero_add _).symm

theorem trans {g g' g'' xs ys : List α} {m n : Nat} (h : Cuts Fits g xs m g')
    (h' : Cuts Fits g' ys n g'') : Cuts Fits g (xs ++ ys) (m + n) g'' := by
  intro later
  rw [List.append_assoc, h, h', Nat.add_assoc]

/-- An item joins where it fits. -/
theorem join {g : List α} {x : α} (h : Fits (g ++ [x])) : Cuts Fits g [x] 0 (g ++ [x]) := by
  intro later
  rw [List.singleton_append, cutFrom, if_pos h, Nat.zero_add]

/-- Where it does not, the group is closed and the item opens the next. -/
theorem close {g : List α} {x : α} (h : ¬ Fits (g ++ [x])) : Cuts Fits g [x] 1 [x] := by
  intro later
  rw [List.singleton_append, cutFrom, if_neg h, List.length_cons, Nat.add_comm]

/-- A full group may be closed at once. -/
theorem full (hrule : Cuttable Fits) {g : List α} (hne : g ≠ [])
    (hfull : ∀ x, ¬ Fits (g ++ [x])) : Cuts Fits g [] 1 [] := by
  intro later
  rw [List.nil_append, cutFrom_full hrule hne hfull, List.length_cons, Nat.add_comm]

/-- **A packer that cuts as the greedy cut does closes the fewest groups**, the
last one with the final flush. -/
theorem isLeast (hrule : Cuttable Fits) {xs g : List α} {n last : Nat} (h : Cuts Fits [] xs n g)
    (hlast : last = if g.isEmpty then 0 else 1) :
    IsLeast {k | ∃ groups, IsCut Fits xs groups ∧ groups.length = k} (n + last) := by
  have htotal : (cutFrom Fits [] xs).length = n + last := by
    have hall := h []
    rw [List.append_nil] at hall
    rw [hall, hlast, cutFrom]
    split
    · rfl
    · rfl
  rw [← htotal]
  exact cutFrom_isLeast hrule xs

end Cuts

end Greedy

end Nrf54Sniffer.Lib
