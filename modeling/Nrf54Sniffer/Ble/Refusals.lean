/-
Nrf54Sniffer.Ble.Refusals — `dropped` goes up by the packets of the frames that
the link refused.

A flush hands over one frame with every open packet in it, and where the link
refuses it charges `dropped` with as many. Nothing else the forwarding thread,
the linger timer or a stop does writes the counter, so over any history it
moves by what the refused frames hold and by what the other threads write,
which is the reset of a new capture.
-/
import Nrf54Sniffer.Ble.Accounting
import Nrf54Sniffer.Ble.ForwardTheorems

namespace Nrf54Sniffer.Ble

open Nrf54Sniffer.Lib
open Nrf54Sniffer.Wire

/-! ## What the link refused -/

/-- The frames of a log that the link refused. -/
def refusedFrames (log : List (Frame × SendResult)) : List Frame :=
  keptFrames false (log.map fun c => (c.1, c.2.ok))

theorem refusedFrames_append (log log' : List (Frame × SendResult)) :
    refusedFrames (log ++ log') = refusedFrames log ++ refusedFrames log' := by
  simp only [refusedFrames, List.map_append, keptFrames_append]

/-- The counter went from `before` to `after` while the outbox went from `o` to
`o'`: up by the packets of the refused frames among those handed over. -/
def Charges (before : Nat) (o : Outbox) (after : Nat) (o' : Outbox) : Prop :=
  ∃ sent lost, o'.log = o.log ++ sent ∧ decodeAll decodeFrame (refusedFrames sent) = some lost ∧
    after = before + lost.length

/-- Nothing was handed over. -/
theorem Charges.silent (before : Nat) (o : Outbox) : Charges before o before o :=
  ⟨[], [], by simp, rfl, rfl⟩

theorem Charges.trans {before mid after : Nat} {o o₁ o₂ : Outbox} (h : Charges before o mid o₁)
    (h' : Charges mid o₁ after o₂) : Charges before o after o₂ := by
  obtain ⟨sent, lost, hlog, hlost, hafter⟩ := h
  obtain ⟨sent', lost', hlog', hlost', hafter'⟩ := h'
  refine ⟨sent ++ sent', lost ++ lost', by rw [hlog', hlog, List.append_assoc], ?_, ?_⟩
  · rw [refusedFrames_append]
    exact decodeAll_append decodeFrame _ _ _ _ hlost hlost'
  · rw [List.length_append]
    omega

/-! ## One call -/

/-- A refused flush charges every packet in the batch. -/
theorem bleFlushLocked_charges {s s' : BleRadio} {o o' : Outbox} {ks : List Kept}
    (h : Rep s.batch ks) (hf : bleFlushLocked s o = some (s', o')) :
    Charges s.stats.dropped o s'.stats.dropped o' := by
  by_cases hne : ks = []
  · subst hne
    rw [bleFlushLocked_nil h o] at hf
    cases hf
    exact .silent _ _
  · obtain ⟨f, buf, hflush, hcloses⟩ := bleFlushLocked_cons h hne o
    rw [hflush] at hf
    cases hf
    cases hok : (o.answers o.log.length).ok with
    | true =>
        refine ⟨[(f, o.answers o.log.length)], [], rfl, ?_, ?_⟩
        · simp [refusedFrames, keptFrames, hok, decodeAll]
        · simp [flushed, countSent, hok]
    | false =>
        refine ⟨[(f, o.answers o.log.length)], ks.map Kept.recorded, rfl, ?_, ?_⟩
        · simp [refusedFrames, keptFrames, hok, decodeAll, hcloses.decodes]
        · simp [flushed, countSent, hok]

theorem closeEarly_charges {s s' : BleRadio} {o o' : Outbox} {p : Sized} {ks : List Kept}
    (h : Rep s.batch ks) (hc : closeEarly s o p = some (s', o')) :
    Charges s.stats.dropped o s'.stats.dropped o' := by
  unfold closeEarly at hc
  split at hc
  · exact bleFlushLocked_charges h hc
  · cases hc
    exact .silent _ _

/-- The packet is counted as captured and joins, with a flush before it, one
after it, or none. -/
theorem appendLocked_charges {s s' : BleRadio} {o o' : Outbox} {p : Sized} {ks : List Kept}
    (h : Rep s.batch ks) (hbelow : ks.length < bleMaxEntries) (hp : p.Exact)
    (ha : appendLocked s o p = some (s', o')) :
    Charges s.stats.dropped o s'.stats.dropped o' := by
  obtain ⟨s₁, o₁, ks₁, hclose, hadv, hopen⟩ := closeEarly_advances h hbelow o p
  obtain ⟨b₂, hput, hrep⟩ := putEntry_rep (openFor_accepts hadv.rep hp hadv.below hopen) hp
  have hclosed := closeEarly_charges h hclose
  simp only [appendLocked, hclose, Option.bind_eq_bind, Option.bind_some, hput] at ha
  split at ha
  · obtain ⟨⟨s₃, o₃⟩, hflush, heq⟩ := Option.bind_eq_some_iff.mp ha
    cases heq
    have hflushed := bleFlushLocked_charges hrep hflush
    exact hclosed.trans hflushed
  · cases ha
    exact hclosed

/-- The looks at the event leave `dropped` alone. -/
theorem beforeLock_dropped {s s' : BleRadio} {h4Type : UInt8} {data : List UInt8} {now : Readings}
    {p : Sized} (h : beforeLock s h4Type data now = some (s', p)) :
    s'.stats.dropped = s.stats.dropped := by
  simp only [beforeLock, Option.bind_eq_bind, Option.bind_eq_some_iff] at h
  obtain ⟨s₁, hcount, s₂, hpeek, heq⟩ := h
  cases heq
  have hsized : (countOversized s (sizePacket h4Type data now.nowUs)).stats.dropped
      = s.stats.dropped := by
    unfold countOversized
    split
    · rfl
    · rfl
  have hpeeked := peekEvent_books hpeek
  simp only [books, Prod.mk.injEq] at hpeeked
  calc s'.stats.dropped
      = s₁.stats.dropped := hpeeked.2.2.1
    _ = (countOversized s (sizePacket h4Type data now.nowUs)).stats.dropped :=
        (countEvent_counted hcount).dropped
    _ = s.stats.dropped := hsized

theorem forward_charges {s s' : BleRadio} {o o' : Outbox} {h4Type : UInt8} {data : List UInt8}
    {now : Readings} {ks : List Kept} (h : Rep s.batch ks) (hbelow : ks.length < bleMaxEntries)
    (hlen : data.length ≤ 65534) (hf : forward s o h4Type data now = some (s', o')) :
    Charges s.stats.dropped o s'.stats.dropped o' := by
  obtain ⟨s₁, hbefore, hsame⟩ := beforeLock_spec s h4Type data now
  simp only [forward, hbefore, Option.bind_eq_bind, Option.bind_some] at hf
  have happended := appendLocked_charges (by rw [hsame.batch]; exact h) hbelow
    (sizePacket_exact h4Type data now.nowUs hlen) hf
  rw [beforeLock_dropped hbefore] at happended
  exact happended

/-! ## Every history -/

/-- What an event of another thread writes to `dropped`, as a change. -/
def Event.writes (s : BleRadio) : Event → Int
  | .elsewhere rest => rest.stats.dropped - s.stats.dropped
  | _ => 0

/-- The same over a history. -/
def writtenElsewhere (s : BleRadio) (o : Outbox) : List Event → Int
  | [] => 0
  | e :: es =>
      match step s o e with
      | some (s', o') => e.writes s + writtenElsewhere s' o' es
      | none => 0

/-- One event moves the counter by the packets it had refused and by what it
writes. -/
theorem step_charges {s s' : BleRadio} {o o' : Outbox} {ks : List Kept} {e : Event}
    (h : Rep s.batch ks) (hbelow : ks.length < bleMaxEntries) (he : e.Fits)
    (hs : step s o e = some (s', o')) :
    ∃ charged, Charges s.stats.dropped o charged o' ∧
      (s'.stats.dropped : Int) = charged + e.writes s := by
  cases e with
  | forward h4Type data now =>
      exact ⟨_, forward_charges h hbelow he hs, (Int.add_zero _).symm⟩
  | linger => exact ⟨_, bleFlushLocked_charges h hs, (Int.add_zero _).symm⟩
  | stopFlush =>
      have hflushed : Charges (setLinger s false).stats.dropped o s'.stats.dropped o' :=
        bleFlushLocked_charges (h.setLinger false) hs
      exact ⟨_, hflushed, (Int.add_zero _).symm⟩
  | elsewhere rest =>
      cases hs
      refine ⟨_, .silent _ _, ?_⟩
      simp only [Event.writes]
      omega

/-- A history moves the counter by the packets of the frames refused in it and
by what other threads wrote. -/
theorem run_charges {s s' : BleRadio} {o o' : Outbox} {ks : List Kept} {es : List Event}
    (h : Rep s.batch ks) (hbelow : ks.length < bleMaxEntries) (hfits : ∀ e ∈ es, e.Fits)
    (hrun : run s o es = some (s', o')) :
    ∃ charged, Charges s.stats.dropped o charged o' ∧
      (s'.stats.dropped : Int) = charged + writtenElsewhere s o es := by
  induction es generalizing s o ks with
  | nil =>
      cases hrun
      exact ⟨_, .silent _ _, (Int.add_zero _).symm⟩
  | cons e es ih =>
      have he := hfits e (by simp)
      obtain ⟨s₁, o₁, ks₁, hstep, hadv⟩ := step_advances h hbelow o e he
      have hrest : run s₁ o₁ es = some (s', o') := by
        simpa only [run, hstep, Option.bind_some] using hrun
      obtain ⟨mid, hone, hmid⟩ := step_charges h hbelow he hstep
      obtain ⟨after, ⟨sent, lost, hlog, hlost, hafter⟩, hwritten⟩ := ih hadv.rep hadv.below
        (fun e' he' => hfits e' (by simp [he'])) hrest
      refine ⟨mid + lost.length, hone.trans ⟨sent, lost, hlog, hlost, rfl⟩, ?_⟩
      simp only [writtenElsewhere, hstep]
      omega

end Nrf54Sniffer.Ble
