/-
Nrf54Sniffer.Wire.TwoLinks — the same frames, handed to two links.

What a link refuses shows in the counters, and STATS and LINK carry these. Two
links have been handed the same when the frames agree one by one, those two
types in their type only.
-/
import Nrf54Sniffer.Wire.Frame
import Mathlib.Data.List.Forall2

namespace Nrf54Sniffer.Wire

/-- The payload is made of counters. -/
def FrameType.carriesCounters (t : FrameType) : Bool := t == .stats || t == .link

/-- The same frame, whatever the counters are. -/
def SameFrame (f g : Frame) : Prop :=
  f.type = g.type ∧ (f.type.carriesCounters = false → f = g)

@[simp] theorem SameFrame.refl (f : Frame) : SameFrame f f := ⟨rfl, fun _ => rfl⟩

theorem SameFrame.counters {t : FrameType} (h : t.carriesCounters = true)
    (payload payload' : List UInt8) : SameFrame ⟨t, payload⟩ ⟨t, payload'⟩ :=
  ⟨rfl, fun hdata => by simp [h] at hdata⟩

/-- The same frames were handed to both. -/
def SameHanded (o o' : Outbox) : Prop := List.Forall₂ SameFrame o.frames o'.frames

theorem SameHanded.send {o o' : Outbox} (h : SameHanded o o') {f g : Frame}
    (hf : SameFrame f g) : SameHanded (o.send f).1 (o'.send g).1 := by
  unfold SameHanded
  rw [Outbox.send_frames, Outbox.send_frames]
  exact List.rel_append h (.cons hf .nil)

end Nrf54Sniffer.Wire
