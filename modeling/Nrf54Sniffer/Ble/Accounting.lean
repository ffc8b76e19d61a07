/-
Nrf54Sniffer.Ble.Accounting — every HCI packet is forwarded, refused or open.

`captured` goes up when a packet joins the batch, `forwarded` or `dropped` when
the frame it is in is handed over, so the three and the open batch balance
between any two packets. The reports and the oversized packets are counted
before the packet joins, and never more than once for one packet.
-/
import Nrf54Sniffer.Ble.Forward

namespace Nrf54Sniffer.Ble

open Nrf54Sniffer.Lib
open Nrf54Sniffer.Wire

/-- The books of `radio_ble.c` balance. -/
structure Balanced (s : BleRadio) : Prop where
  packets : s.stats.captured = s.stats.forwarded + s.stats.dropped + s.batch.count
  reports : s.stats.advReports + s.stats.periodicReports ≤ s.stats.captured
  oversized : s.stats.oversized ≤ s.stats.captured

/-! ## Sending -/

/-- What `countSent` makes of `n` packets. -/
theorem countSent_eq (st : BleStats) (n : Nat) (r : SendResult) :
    ∃ forwarded dropped, countSent st n r = { st with forwarded, dropped } ∧
      forwarded + dropped = st.forwarded + st.dropped + n ∧
      dropped = st.dropped + (if r.ok then 0 else n) := by
  unfold countSent
  split
  · exact ⟨st.forwarded + n, st.dropped, rfl, by omega, rfl⟩
  · exact ⟨st.forwarded, st.dropped + n, rfl, by omega, rfl⟩

/-- A flush moves the open packets to one of the two counters: all of them to
`dropped` where the link refused. It sends nothing where nothing was open. -/
theorem bleFlushLocked_accounts {s s' : BleRadio} {o o' : Outbox}
    (h : bleFlushLocked s o = some (s', o')) :
    ∃ batch forwarded dropped,
      s' = { s with batch, stats := { s.stats with forwarded, dropped } } ∧ batch.count = 0 ∧
      forwarded + dropped = s.stats.forwarded + s.stats.dropped + s.batch.count ∧
      dropped = s.stats.dropped +
        (if (o.answers o.log.length).ok then 0 else s.batch.count) ∧
      (s.batch.count = 0 → o' = o) := by
  unfold bleFlushLocked at h
  split at h
  · rename_i hzero
    cases h
    exact ⟨s.batch, s.stats.forwarded, s.stats.dropped, rfl, hzero, by omega, by simp [hzero],
      fun _ => rfl⟩
  · rename_i hopen
    split at h
    · rename_i hone
      simp only [bleFlushOne, sendAlone, Option.bind_eq_bind, Option.bind_eq_some_iff] at h
      obtain ⟨_, _, _, _, ⟨_, _⟩, ⟨_, _, _, _, _, _, hsent⟩, heq⟩ := h
      cases hsent
      cases heq
      obtain ⟨forwarded, dropped, hcounted, hsum, hdropped⟩ :=
        countSent_eq s.stats 1 (o.answers o.log.length)
      rw [hone]
      exact ⟨s.batch.emptied, forwarded, dropped,
        congrArg (fun stats => { s with batch := s.batch.emptied, stats }) hcounted, rfl, hsum,
        hdropped, fun hzero => absurd hzero Nat.one_ne_zero⟩
    · simp only [bleFlushMany, Option.bind_eq_bind, Option.bind_eq_some_iff] at h
      obtain ⟨buf, _, _, _, heq⟩ := h
      cases heq
      obtain ⟨forwarded, dropped, hcounted, hsum, hdropped⟩ :=
        countSent_eq s.stats s.batch.count (o.answers o.log.length)
      exact ⟨{ s.batch with buf }.emptied, forwarded, dropped,
        congrArg (fun stats => { s with batch := { s.batch with buf }.emptied, stats }) hcounted,
        rfl, hsum, hdropped, fun hzero => absurd hzero hopen⟩

theorem Balanced.flushed {s s' : BleRadio} {o o' : Outbox} (h : Balanced s)
    (hf : bleFlushLocked s o = some (s', o')) : Balanced s' := by
  obtain ⟨batch, forwarded, dropped, rfl, hempty, hsum, _⟩ := bleFlushLocked_accounts hf
  have hpackets := h.packets
  refine ⟨?_, h.reports, h.oversized⟩
  show s.stats.captured = forwarded + dropped + batch.count
  omega

/-! ## Counting a packet -/

/-- What the books look at. -/
def books (s : BleRadio) :=
  (s.stats.captured, s.stats.forwarded, s.stats.dropped, s.stats.oversized,
    s.stats.advReports + s.stats.periodicReports, s.batch)

/-- One report more may have been counted. -/
structure Counted (s s' : BleRadio) : Prop where
  captured : s'.stats.captured = s.stats.captured
  forwarded : s'.stats.forwarded = s.stats.forwarded
  dropped : s'.stats.dropped = s.stats.dropped
  oversized : s'.stats.oversized = s.stats.oversized
  reports : s'.stats.advReports + s'.stats.periodicReports ≤
    s.stats.advReports + s.stats.periodicReports + 1
  batch : s'.batch = s.batch

theorem Counted.same {s s' : BleRadio} (h : books s' = books s) : Counted s s' := by
  simp only [books, Prod.mk.injEq] at h
  obtain ⟨hcaptured, hforwarded, hdropped, hoversized, hreports, hbatch⟩ := h
  exact ⟨hcaptured, hforwarded, hdropped, hoversized, by omega, hbatch⟩

theorem notePeriodicSync_counted {s s' : BleRadio} {evt : List UInt8}
    (h : notePeriodicSync s evt = some s') : Counted s s' := by
  obtain ⟨ok, _, h⟩ := Option.bind_eq_some_iff.mp h
  cases ok with
  | true =>
      cases h
      exact .same rfl
  | false =>
      cases h
      exact .same rfl

theorem noteBigSync_counted {s s' : BleRadio} {evt : List UInt8} {uptime : Int}
    (h : noteBigSync s evt uptime = some s') : Counted s s' := by
  obtain ⟨ok, _, h⟩ := Option.bind_eq_some_iff.mp h
  cases ok with
  | true =>
      simp only [noteBigEstablished, if_true, Option.bind_eq_bind, Option.bind_eq_some_iff] at h
      obtain ⟨_, _, _, _, heq⟩ := h
      cases heq
      exact .same rfl
  | false =>
      cases h
      exact .same rfl

/-- An event is counted as one report at most. -/
theorem noteCounts_counted {s s' : BleRadio} {evt : List UInt8} {uptime : Int}
    (h : noteCounts s evt uptime = some s') : Counted s s' := by
  unfold noteCounts at h
  split at h
  · cases h
    exact .same rfl
  · obtain ⟨code, _, h⟩ := Option.bind_eq_some_iff.mp h
    split at h
    · cases h
      exact .same rfl
    · obtain ⟨sub, _, h⟩ := Option.bind_eq_some_iff.mp h
      split at h
      · cases h
        exact ⟨rfl, rfl, rfl, rfl, by simp only; omega, rfl⟩
      · split at h
        · cases h
          exact ⟨rfl, rfl, rfl, rfl, by simp only; omega, rfl⟩
        · split at h
          · exact notePeriodicSync_counted h
          · split at h
            · cases h
              exact .same rfl
            · split at h
              · exact noteBigSync_counted h
              · split at h
                · cases h
                  exact .same rfl
                · cases h
                  exact .same rfl

/-- The look for a train counts none of these. -/
theorem notePeriodic_books {s s' : BleRadio} {hci : List UInt8} (h : notePeriodic s hci = some s') :
    books s' = books s := by
  rcases notePeriodic_cases h with rfl | ⟨req, rfl⟩
  · rfl
  · rfl

theorem noteBigInfo_books {s s' : BleRadio} {hci : List UInt8} {uptime : Int}
    (h : noteBigInfo s hci uptime = some s') : books s' = books s := by
  rcases noteBigInfo_cases h with rfl | ⟨_, params, rfl⟩
  · rfl
  · rfl

theorem peekEvent_books {s s' : BleRadio} {h4Type : UInt8} {data : List UInt8} {now : Readings}
    (h : peekEvent s h4Type data now = some s') : books s' = books s := by
  unfold peekEvent at h
  split at h
  · obtain ⟨s₁, hperiodic, hbig⟩ := Option.bind_eq_some_iff.mp h
    exact (noteBigInfo_books hbig).trans (notePeriodic_books hperiodic)
  · cases h
    rfl

theorem countEvent_counted {s s' : BleRadio} {h4Type : UInt8} {data : List UInt8} {now : Readings}
    (h : countEvent s h4Type data now = some s') : Counted s s' := by
  unfold countEvent at h
  split at h
  · exact noteCounts_counted h
  · cases h
    exact .same rfl

/-! ## One packet -/

/-- A packet is on its way into the batch: it may be counted as a report and as
oversized already. -/
structure Entering (s : BleRadio) : Prop where
  packets : s.stats.captured = s.stats.forwarded + s.stats.dropped + s.batch.count
  reports : s.stats.advReports + s.stats.periodicReports ≤ s.stats.captured + 1
  oversized : s.stats.oversized ≤ s.stats.captured + 1

theorem Balanced.beforeLock {s s' : BleRadio} {h4Type : UInt8} {data : List UInt8} {now : Readings}
    {p : Sized} (h : Balanced s) (hb : beforeLock s h4Type data now = some (s', p)) :
    Entering s' := by
  simp only [Ble.beforeLock, Option.bind_eq_bind, Option.bind_eq_some_iff] at hb
  obtain ⟨s₁, hcount, s₂, hpeek, heq⟩ := hb
  cases heq
  have hcounted := countEvent_counted hcount
  have hbooks := peekEvent_books hpeek
  simp only [books, Prod.mk.injEq] at hbooks
  obtain ⟨hcaptured, hforwarded, hdropped, hoversized, hreports, hbatch⟩ := hbooks
  obtain ⟨hcaptured', hforwarded', hdropped', hoversized', hreports', hbatch'⟩ := hcounted
  have hsized : ∀ p, (countOversized s p).stats.captured = s.stats.captured ∧
      (countOversized s p).stats.forwarded = s.stats.forwarded ∧
      (countOversized s p).stats.dropped = s.stats.dropped ∧
      (countOversized s p).stats.advReports + (countOversized s p).stats.periodicReports =
        s.stats.advReports + s.stats.periodicReports ∧
      (countOversized s p).stats.oversized ≤ s.stats.oversized + 1 ∧
      (countOversized s p).batch = s.batch := by
    intro p
    unfold countOversized
    split
    · exact ⟨rfl, rfl, rfl, rfl, Nat.le_refl _, rfl⟩
    · exact ⟨rfl, rfl, rfl, rfl, Nat.le_succ _, rfl⟩
  obtain ⟨hc, hf, hd, hr, ho, hb⟩ := hsized (sizePacket h4Type data now.nowUs)
  have hpackets := h.packets
  have hreported := h.reports
  have hover := h.oversized
  rw [hc] at hcaptured'
  rw [hf] at hforwarded'
  rw [hd] at hdropped'
  rw [hb] at hbatch'
  rw [hr] at hreports'
  refine ⟨?_, by omega, by omega⟩
  rw [hbatch, hbatch']
  omega

/-- Under the lock the packet is counted as captured and joins. -/
theorem Entering.append {s s' : BleRadio} {o o' : Outbox} {p : Sized} (h : Entering s)
    (ha : appendLocked s o p = some (s', o')) : Balanced s' := by
  have hpackets := h.packets
  have hreports := h.reports
  have hoversized := h.oversized
  simp only [appendLocked, Option.bind_eq_bind, Option.bind_eq_some_iff] at ha
  obtain ⟨⟨s₁, o₁⟩, hclose, batch, hput, ha⟩ := ha
  have hclosed : ∃ open₁ forwarded dropped,
      s₁ = { s with batch := open₁, stats := { s.stats with forwarded, dropped } } ∧
      forwarded + dropped + open₁.count =
        s.stats.forwarded + s.stats.dropped + s.batch.count := by
    unfold closeEarly at hclose
    split at hclose
    · obtain ⟨open₁, forwarded, dropped, heq, hempty, hsum, _⟩ := bleFlushLocked_accounts hclose
      exact ⟨open₁, forwarded, dropped, heq, by omega⟩
    · cases hclose
      exact ⟨s.batch, _, _, rfl, rfl⟩
  obtain ⟨open₁, forwarded, dropped, rfl, hsum⟩ := hclosed
  have hjoined : batch.count = open₁.count + 1 := by
    have hopened : (open₁.openFor p).count = open₁.count := by
      unfold BleBatch.openFor
      split
      · rfl
      · rfl
    simp only [putEntry, Option.bind_eq_bind, Option.bind_eq_some_iff] at hput
    obtain ⟨_, _, _, _, heq⟩ := hput
    cases heq
    exact congrArg (· + 1) hopened
  have hbalanced : Balanced
      { s with
        batch
        stats := { s.stats with forwarded, dropped, captured := s.stats.captured + 1 } } := by
    refine ⟨?_, hreports, hoversized⟩
    show s.stats.captured + 1 = forwarded + dropped + batch.count
    omega
  split at ha
  · obtain ⟨⟨s₂, o₂⟩, hflush, heq⟩ := Option.bind_eq_some_iff.mp ha
    cases heq
    have hflushed := hbalanced.flushed hflush
    exact ⟨hflushed.packets, hflushed.reports, hflushed.oversized⟩
  · cases ha
    exact ⟨hbalanced.packets, hbalanced.reports, hbalanced.oversized⟩

/-- A packet keeps the books balanced. -/
theorem Balanced.forward {s s' : BleRadio} {o o' : Outbox} {h4Type : UInt8} {data : List UInt8}
    {now : Readings} (h : Balanced s) (hf : forward s o h4Type data now = some (s', o')) :
    Balanced s' := by
  obtain ⟨⟨s₁, p⟩, hbefore, happend⟩ := Option.bind_eq_some_iff.mp hf
  exact (h.beforeLock hbefore).append happend

end Nrf54Sniffer.Ble
