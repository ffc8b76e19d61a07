/-
Nrf54Sniffer.Link.HighWater — what the high-water mark of the LINK frame says.

`queued_high_water` is meant as the worst occupancy of a session. It is raised
to `ring_buf_size_get` after each put, which leaves out what the transmit thread
has claimed, up to one DMA chunk, and what it takes between the put and the
reading. So the mark is the fullest reading since the counters were zeroed
(`mark_is_reading`). Where the transmit thread keeps still between a put and its
reading, the ring was never fuller than the mark and one chunk, or than it was
when the counters were zeroed (`run_below`).
-/
import Nrf54Sniffer.Link.ReserveTheorems
import Nrf54Sniffer.Lib.Gauge

namespace Nrf54Sniffer.Link

open Nrf54Sniffer.Lib
open Nrf54Sniffer.Wire

variable {encode : Encode}

/-- `queued_high_water`. -/
def State.mark (s : State) : Nat := s.link.counters.queuedHighWater

/-- `ring_buf_size_get`: what is claimed is not in it. -/
def State.reading (s : State) : Nat := s.link.txRing.size

/-- The bytes the ring holds. -/
def State.held (s : State) : Nat := s.link.txRing.content.length

theorem held_eq (s : State) : s.held = s.link.txRing.claimed.length + s.reading := by
  simp [State.held, State.reading, ClaimRing.content, ClaimRing.size]

/-! ## Readings -/

/-- A reading raises the mark to what it finds. -/
theorem measure_mark (encode : Encode) {s t : State} (hstep : step encode s .measure = some t) :
    t.mark = max s.mark s.reading := by
  cases step_takes hstep with
  | measure _ =>
      simp only [State.mark, State.reading, noteHighWater]
      split <;> omega

/-- Nothing else moves it, but a reset. -/
theorem other_mark (encode : Encode) {s t : State} {a : Label} (hmeasure : a ≠ .measure)
    (hreset : a ≠ .resetCounters) (hstep : step encode s a = some t) : t.mark = s.mark := by
  cases step_takes hstep with
  | measure _ => exact absurd rfl hmeasure
  | resetCounters => exact absurd rfl hreset
  | _ => rfl

/-- Since the counters were zeroed the mark is the fullest reading. -/
theorem mark_is_reading {s t : State} {ls : List Label} (hzero : s.mark = 0)
    (hls : .resetCounters ∉ ls) (hrun : (machine encode).run s ls = some t) :
    (∀ u, (machine encode).StepsAt s ls .measure u → u.reading ≤ t.mark) ∧
    (t.mark = 0 ∨ ∃ u, (machine encode).StepsAt s ls .measure u ∧ t.mark = u.reading) := by
  obtain ⟨_, hall, hsome⟩ := (machine encode).run_mark State.mark State.reading .measure
    (fun _ _ hstep => measure_mark encode hstep)
    (fun _ _ a ha hmeasure hstep => other_mark encode hmeasure (fun heq => hls (heq ▸ ha)) hstep)
    hrun
  rw [hzero] at hsome
  exact ⟨hall, hsome⟩

/-! ## What the transmit thread has claimed -/

/-- A claim is of one chunk at most, and none is open while the thread is idle. -/
structure OneChunk (s : State) : Prop where
  bound : s.link.txRing.claimed.length ≤ txDmaChunk
  idle : s.phase = .idle → s.link.txRing.claimed = []

theorem oneChunk_step {s t : State} {a : Label} (h : OneChunk s)
    (hstep : step encode s a = some t) : OneChunk t := by
  cases step_takes hstep with
  | inval _ _ => exact h
  | noMem _ _ => exact ⟨h.bound, h.idle⟩
  | accept _ _ => exact ⟨h.bound, h.idle⟩
  | put _ => exact ⟨h.bound, h.idle⟩
  | measure _ => exact ⟨h.bound, h.idle⟩
  | @claim n hp _ hchunk _ =>
      refine ⟨?_, by intro hidle; cases hidle⟩
      simp only [ClaimRing.claim, h.idle hp, List.nil_append, List.length_take]
      omega
  | takeDone _ _ => exact ⟨h.bound, by intro hidle; cases hidle⟩
  | uartFail _ => exact ⟨Nat.zero_le _, fun _ => rfl⟩
  | uartOk _ => exact ⟨h.bound, by intro hidle; cases hidle⟩
  | dmaByte _ _ => exact ⟨h.bound, by intro hidle; cases hidle⟩
  | dmaDone _ => exact ⟨h.bound, by intro hidle; cases hidle⟩
  | finish _ _ => exact ⟨Nat.zero_le _, fun _ => rfl⟩
  | resetCounters => exact ⟨h.bound, h.idle⟩

/-! ## The fullest the ring was -/

/-- Between a put and its reading the transmit thread neither takes bytes from
the ring nor gives some back; and the counters are not zeroed. -/
def Still (s : State) : Label → Prop
  | .claim _ | .uartFail | .finish => s.sender ≠ .measuring
  | .resetCounters => False
  | _ => True

instance (s : State) : (l : Label) → Decidable (Still s l)
  | .claim _ | .uartFail | .finish => inferInstanceAs (Decidable (s.sender ≠ .measuring))
  | .resetCounters => inferInstanceAs (Decidable False)
  | .send _ | .put | .measure | .takeDone | .uartOk | .dmaByte | .dmaDone =>
      inferInstanceAs (Decidable True)

/-- What the mark is about to say, and a chunk. -/
def State.level (s : State) : Nat :=
  (if s.sender = .measuring then max s.mark s.reading else s.mark) + txDmaChunk

theorem level_le {s t : State} {a : Label} (hstill : Still s a)
    (hstep : step encode s a = some t) : s.level ≤ t.level := by
  cases step_takes hstep with
  | inval _ _ => exact Nat.le_refl _
  | noMem hfree _ => simp [State.level, State.mark, countDropped, hfree]
  | accept hfree _ => simp [State.level, State.mark, hfree]
  | put hs =>
      simp only [State.level, hs, if_true]
      exact Nat.add_le_add_right (Nat.le_max_left _ _) _
  | measure hs =>
      have hmark := measure_mark encode hstep
      simp [State.level, hs, hmark]
  | claim _ _ _ _ => simp [State.level, State.mark, show s.sender ≠ .measuring from hstill]
  | takeDone _ _ => exact Nat.le_refl _
  | uartFail _ => simp [State.level, State.mark, show s.sender ≠ .measuring from hstill]
  | uartOk _ => exact Nat.le_refl _
  | dmaByte _ _ => exact Nat.le_refl _
  | dmaDone _ => exact Nat.le_refl _
  | finish _ _ => simp [State.level, State.mark, show s.sender ≠ .measuring from hstill]
  | resetCounters => exact hstill.elim

/-- Only a put fills the ring, and then its reading is to come. -/
theorem held_le {s t : State} {a : Label} (h : OneChunk s) (hstep : step encode s a = some t) :
    t.held ≤ max s.held t.level := by
  cases step_takes hstep with
  | @put f bytes hs =>
      have hclaimed := h.bound
      rw [held_eq]
      simp only [State.level, if_true, putFrame, ClaimRing.put]
      omega
  | claim _ _ _ _ => exact Nat.le_trans (by simp [State.held]) (Nat.le_max_left _ _)
  | uartFail _ =>
      exact Nat.le_trans (s.link.txRing.finish_length_le 0) (Nat.le_max_left _ _)
  | finish _ _ =>
      exact Nat.le_trans (s.link.txRing.finish_length_le _) (Nat.le_max_left _ _)
  | _ => exact Nat.le_max_left _ _

/-- **The high-water mark is the peak, give or take a chunk.** From a moment at
which the counters were zeroed, through any interleaving of calls, transmit
thread and UART: the mark is the fullest of the readings, which lies past the
capacity only where control frames that came after the last data frame make up
the difference; and where the transmit thread keeps still between each put and
its reading, the ring has at no moment held more than the mark and one DMA
chunk, or more than when the counters were zeroed. -/
theorem high_water_is_peak (encode : Encode) {before ls : List Label} {s t : State}
    (hbefore : (machine encode).run {} before = some s) (hzero : s.mark = 0)
    (hls : .resetCounters ∉ ls) (hrun : (machine encode).run s ls = some t) :
    (∀ u, (machine encode).StepsAt s ls .measure u → u.reading ≤ t.mark) ∧
    (t.mark = 0 ∨ ∃ u, (machine encode).StepsAt s ls .measure u ∧ t.mark = u.reading ∧
      t.mark ≤ snLinkCapacity + controlTailBytes encode u.accepted) ∧
    (t.sender ≠ .measuring → (machine encode).RunMeets Still s ls →
      ∀ u, (machine encode).Visits s ls u → u.held ≤ max s.held (t.mark + txDmaChunk)) := by
  obtain ⟨hall, hsome⟩ := mark_is_reading hzero hls hrun
  refine ⟨hall, ?_, ?_⟩
  · rcases hsome with hnone | ⟨u, hu, heq⟩
    · exact .inl hnone
    · refine .inr ⟨u, hu, heq, ?_⟩
      obtain ⟨pre, post, -, hpre⟩ := hu
      have hfromBoot : (machine encode).run {} (before ++ pre) = some u := by
        rw [Machine.run_append, hbefore, Option.bind_some, hpre]
      have hroom := (run_room hfromBoot).bound
      have hheld := held_eq u
      simp only [State.held] at hheld
      omega
  · intro hread hstill u hu
    have hchunk : OneChunk s :=
      (machine encode).run_invariant (fun _ _ _ h hstep => oneChunk_step h hstep)
        ⟨Nat.zero_le _, fun _ => rfl⟩ hbefore
    obtain ⟨_, hbelow⟩ := (machine encode).run_below State.held State.level
      (fun _ _ _ h hstep => oneChunk_step h hstep)
      (fun _ _ _ _ hcond hstep => level_le hcond hstep)
      (fun _ _ _ h _ hstep => held_le h hstep) hchunk hstill hrun
    have := hbelow u hu
    rwa [State.level, if_neg hread] at this

/-- A call and its reading, with three bytes of the ring claimed before. -/
theorem high_water_is_peak_claimed :
    let encode : Encode := fun _ seq payload => seq.toUInt8 :: payload
    let before : List Label := [.send ⟨.packet, [7, 8]⟩, .put, .measure, .resetCounters]
    let ls : List Label := [.claim 3, .send ⟨.log, [9]⟩, .put, .measure, .takeDone]
    ∃ s t, (machine encode).run {} before = some s ∧ (machine encode).run s ls = some t ∧
      t.mark = 2 ∧ t.held = 5 ∧
      ∀ u, (machine encode).Visits s ls u → u.held ≤ max s.held (t.mark + txDmaChunk) := by
  intro encode before ls
  have hruns : (((machine encode).run {} before).any fun s =>
      s.mark == 0 && ((machine encode).run s ls).any fun t =>
        t.mark == 2 && t.held == 5 && t.sender == .none &&
          decide ((machine encode).RunMeets Still s ls)) = true := by decide +kernel
  obtain ⟨s, hs, hruns⟩ := (Option.any_eq_true _ _).mp hruns
  obtain ⟨hzero, hruns⟩ := Bool.and_eq_true_iff.mp hruns
  obtain ⟨t, ht, hends⟩ := (Option.any_eq_true _ _).mp hruns
  simp only [Bool.and_eq_true, beq_iff_eq, decide_eq_true_eq] at hzero hends
  obtain ⟨⟨⟨hmark, hheld⟩, hsender⟩, hstill⟩ := hends
  obtain ⟨-, -, hbelow⟩ := high_water_is_peak encode hs hzero (by decide) ht
  refine ⟨s, t, hs, ht, hmark, hheld, hbelow ?_ hstill⟩
  rw [hsender]
  decide

/-- A frame of 200 bytes of which the transmit thread takes two chunks before
the reading. -/
example :
    let encode : Encode := fun _ _ _ => List.replicate 200 0
    let put : List Label := [.send ⟨.packet, []⟩, .put]
    let chunk : List Label := [.takeDone, .uartOk] ++ List.replicate 64 .dmaByte ++ [.dmaDone]
    ((machine encode).run {} put).map State.held = some 200 ∧
    ((machine encode).run {} (put ++ [.claim 64] ++ chunk ++ [.finish, .claim 64, .measure])).map
      State.mark = some 72 := by decide +kernel

end Nrf54Sniffer.Link
