/-
Nrf54Sniffer.Lib.Covered — queues in which every claim is followed by its end.

A producer puts claims and ends into a queue and a consumer takes them out in
order. `Covered present p q l` says that each `p` in the queue still stands:
what it claims is present now, or a `q` that ends it is queued behind it. The
producer keeps this by claiming only what is present and by queueing a `q`
when it is so no longer; the consumer keeps it by taking from the front.
-/

namespace Nrf54Sniffer.Lib

variable {α : Type} {present present' : Prop} {p p' q : α → Prop} {a : α} {l : List α}

/-- Every `p` of the queue is present or followed by a `q`. -/
def Covered (present : Prop) (p q : α → Prop) : List α → Prop
  | [] => True
  | a :: l => (p a → present ∨ ∃ b ∈ l, q b) ∧ Covered present p q l

namespace Covered

theorem head (h : Covered present p q (a :: l)) (ha : p a) : present ∨ ∃ b ∈ l, q b := h.1 ha

theorem tail (h : Covered present p q (a :: l)) : Covered present p q l := h.2

/-- Fewer claims, or more present. -/
theorem mono (h : Covered present p q l) (hpresent : present → present')
    (hp : ∀ a ∈ l, p' a → p a) : Covered present' p' q l := by
  induction l with
  | nil => trivial
  | cons a l ih =>
      refine ⟨fun ha => ?_, ih h.2 fun b hb => hp b (List.mem_cons_of_mem a hb)⟩
      rcases h.1 (hp a List.mem_cons_self ha) with hpr | hq
      · exact .inl (hpresent hpr)
      · exact .inr hq

/-- No claim queued. -/
theorem of_none (h : ∀ a ∈ l, ¬ p a) : Covered present p q l := by
  induction l with
  | nil => trivial
  | cons a l ih =>
      exact ⟨fun ha => absurd ha (h a List.mem_cons_self),
        ih fun b hb => h b (List.mem_cons_of_mem a hb)⟩

/-- A claim of what is present, or no claim, joins the queue. -/
theorem push (h : Covered present p q l) (ha : p a → present) :
    Covered present p q (l ++ [a]) := by
  induction l with
  | nil => exact ⟨fun hp => .inl (ha hp), trivial⟩
  | cons b l ih =>
      refine ⟨fun hb => ?_, ih h.2⟩
      rcases h.1 hb with hpr | ⟨c, hc, hq⟩
      · exact .inl hpr
      · exact .inr ⟨c, List.mem_append_left _ hc, hq⟩

/-- An end joins the queue, and covers all before it. -/
theorem push_end (l : List α) (ha : ¬ p a) (hq : q a) : Covered present p q (l ++ [a]) := by
  induction l with
  | nil => exact ⟨fun hp => absurd hp ha, trivial⟩
  | cons b l ih =>
      exact ⟨fun _ => .inr ⟨a, List.mem_append_right _ List.mem_cons_self, hq⟩, ih⟩

/-- A claim in the queue is present or its end is queued. -/
theorem of_mem (h : Covered present p q l) (hmem : a ∈ l) (ha : p a) :
    present ∨ ∃ b ∈ l, q b := by
  induction l with
  | nil => cases hmem
  | cons b l ih =>
      have hmore : (present ∨ ∃ c ∈ l, q c) → present ∨ ∃ c ∈ b :: l, q c := by
        rintro (hpr | ⟨c, hc, hq⟩)
        · exact .inl hpr
        · exact .inr ⟨c, List.mem_cons_of_mem b hc, hq⟩
      rcases List.mem_cons.mp hmem with rfl | hmem
      · exact hmore (h.1 ha)
      · exact hmore (ih h.2 hmem)

end Covered

end Nrf54Sniffer.Lib
