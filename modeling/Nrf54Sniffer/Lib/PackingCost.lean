/-
Nrf54Sniffer.Lib.PackingCost — what a packed stream takes on the wire.

A strict reader accounts for every byte it was given: `decodeFrom_length` says
how long a row of entries is that it read, and `decodeAll_weigh` adds up, over
a stream, what every frame costs and saves against its items each on their own.
-/
import Nrf54Sniffer.Lib.DeltaLog
import Nrf54Sniffer.Lib.PackedStream

namespace Nrf54Sniffer.Lib

/-- The weights of a list, added up. -/
def weigh {α : Type} (w : α → Nat) : List α → Nat
  | [] => 0
  | a :: as => w a + weigh w as

section Weigh

variable {α β : Type}

@[simp] theorem weigh_nil (w : α → Nat) : weigh w [] = 0 := rfl

@[simp] theorem weigh_cons (w : α → Nat) (a : α) (as : List α) :
    weigh w (a :: as) = w a + weigh w as := rfl

@[simp] theorem weigh_append (w : α → Nat) (as bs : List α) :
    weigh w (as ++ bs) = weigh w as + weigh w bs := by
  induction as with
  | nil => simp
  | cons a as ih => simp only [List.cons_append, weigh_cons, ih]; omega

theorem weigh_map (w : β → Nat) (f : α → β) (as : List α) :
    weigh w (as.map f) = weigh (fun a => w (f a)) as := by
  induction as with
  | nil => rfl
  | cons a as ih => simp [ih]

/-- A weight that all items have in common. -/
theorem weigh_add (k : Nat) (w : α → Nat) (as : List α) :
    weigh (fun a => k + w a) as = k * as.length + weigh w as := by
  induction as with
  | nil => rfl
  | cons a as ih => simp only [weigh_cons, ih, List.length_cons, Nat.mul_succ]; omega

end Weigh

/-! ## Reading exactly -/

theorem takeExact_length {α : Type} {n : Nat} {xs ys rest : List α}
    (h : takeExact n xs = some (ys, rest)) : ys.length = n ∧ xs.length = n + rest.length := by
  obtain ⟨hle, heq⟩ := Option.ite_none_right_eq_some.mp h
  cases heq
  simp only [List.length_take, List.length_drop]
  omega

theorem readLE_length {k v : Nat} {xs rest : List UInt8} (h : readLE k xs = some (v, rest)) :
    xs.length = k + rest.length := by
  obtain ⟨⟨field, after⟩, htake, heq⟩ := Option.map_eq_some_iff.mp h
  cases heq
  exact (takeExact_length htake).2

/-- The entries read are as many as were asked for, and take their data, two
bytes for each delta, and what every body has beside its data. -/
theorem EntryFormat.decodeFrom_length {α β : Type} {F : EntryFormat α β} {fixed : Nat}
    {data : β → Nat}
    (hparse : ∀ {xs b rest}, F.parse xs = some (b, rest) →
      xs.length = fixed + data b + rest.length)
    {n t : Nat} {xs rest : List UInt8} {items : List (Nat × β)}
    (h : F.decodeFrom n t xs = some (items, rest)) :
    items.length = n ∧
      xs.length = (2 + fixed) * n + weigh (fun item => data item.2) items + rest.length := by
  induction n generalizing t xs items with
  | zero =>
      cases h
      simp
  | succ n ih =>
      simp only [EntryFormat.decodeFrom, Option.bind_eq_bind, Option.bind_eq_some_iff] at h
      obtain ⟨⟨dt, xs₁⟩, hdt, ⟨b, xs₂⟩, hb, ⟨more, xs₃⟩, hmore, heq⟩ := h
      cases heq
      obtain ⟨hcount, hbytes⟩ := ih hmore
      have h₁ := readLE_length hdt
      have h₂ := hparse hb
      dsimp only at hbytes h₁ h₂
      simp only [List.length_cons, weigh_cons, Nat.mul_succ]
      omega

/-! ## A whole stream -/

/-- **Frame by frame.** Where every good frame costs what its items would, each
on its own, less what it saves, so does a stream of them. -/
theorem decodeAll_weigh {φ β : Type} {decode : φ → Option (List β)} {good : φ → Prop}
    {cost saving : φ → Nat} {alone : β → Nat}
    (hframe : ∀ {f items}, good f → decode f = some items →
      cost f + saving f = weigh alone items)
    {fs : List φ} {items : List β} (hgood : ∀ f ∈ fs, good f)
    (h : decodeAll decode fs = some items) :
    weigh cost fs + weigh saving fs = weigh alone items := by
  induction fs generalizing items with
  | nil =>
      cases h
      rfl
  | cons f fs ih =>
      simp only [decodeAll, Option.bind_eq_bind, Option.bind_eq_some_iff] at h
      obtain ⟨first, hfirst, more, hmore, heq⟩ := h
      cases heq
      have hone := hframe (hgood f (by simp)) hfirst
      have hrest := ih (fun g hg => hgood g (by simp [hg])) hmore
      simp only [weigh_cons, weigh_append]
      omega

end Nrf54Sniffer.Lib
