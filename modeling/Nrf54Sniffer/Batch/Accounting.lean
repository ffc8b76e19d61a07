/-
Nrf54Sniffer.Batch.Accounting — every packet is delivered, charged or open.

A flush that the link accepts hands over one frame with every open packet in
it, as the host will read it; one that it refuses charges `dropped_packets`
with as many. So over any call of the batcher what the link accepted, what was
charged and what is open grow together by the packets that came in.
-/
import Nrf54Sniffer.Batch.BatcherTheorems

namespace Nrf54Sniffer.Batch

open Nrf54Sniffer.Lib
open Nrf54Sniffer.Wire

/-! ## What the link accepted -/

/-- The packets the host reads out of a frame. -/
def packetsIn (f : Frame) : Nat := ((decodeFrame f).getD []).length

/-- The packets of a frame, if the link accepted it. -/
def delivered (sent : Frame × SendResult) : Nat := if sent.2.ok then packetsIn sent.1 else 0

/-- The packets contained in the frames the link accepted. -/
def packetsAccepted : List (Frame × SendResult) → Nat
  | [] => 0
  | f :: sent => delivered f + packetsAccepted sent

@[simp] theorem packetsAccepted_nil : packetsAccepted [] = 0 := rfl

@[simp] theorem packetsAccepted_append (sent sent' : List (Frame × SendResult)) :
    packetsAccepted (sent ++ sent') = packetsAccepted sent + packetsAccepted sent' := by
  induction sent with
  | nil => simp
  | cons f sent ih => simp [packetsAccepted, ih, Nat.add_assoc]

@[simp] theorem packetsAccepted_singleton (f : Frame) (r : SendResult) :
    packetsAccepted [(f, r)] = if r.ok then packetsIn f else 0 := by
  simp [packetsAccepted, delivered]

/-- A frame that closes a batch has all of it inside. -/
theorem Closes.packetsIn {f : Frame} {ks : List Kept} (h : Closes f ks) :
    packetsIn f = ks.length := by
  simp [Batch.packetsIn, h.decodes]

/-! ## One call -/

/-- What was handed over, charged and left open, when `n` packets came in. -/
def Accounts (b : Batcher) (o : Outbox) (b' : Batcher) (o' : Outbox) (n : Nat) : Prop :=
  ∃ sent, o'.log = o.log ++ sent ∧ o'.answers = o.answers ∧
    packetsAccepted sent + b'.droppedPackets + b'.count = b.droppedPackets + b.count + n

theorem Accounts.trans {b b₁ b₂ : Batcher} {o o₁ o₂ : Outbox} {n n' : Nat}
    (h : Accounts b o b₁ o₁ n) (h' : Accounts b₁ o₁ b₂ o₂ n') :
    Accounts b o b₂ o₂ (n + n') := by
  obtain ⟨sent, hlog, hanswers, hsum⟩ := h
  obtain ⟨sent', hlog', hanswers', hsum'⟩ := h'
  refine ⟨sent ++ sent', by rw [hlog', hlog, List.append_assoc], hanswers'.trans hanswers, ?_⟩
  rw [packetsAccepted_append]
  omega

/-- Nothing is handed over, and the two numbers are as they were. -/
theorem Accounts.silent {b b' : Batcher} (o : Outbox) {n : Nat}
    (hdropped : b'.droppedPackets = b.droppedPackets) (hcount : b'.count = b.count + n) :
    Accounts b o b' o n :=
  ⟨[], by simp, rfl, by simp only [packetsAccepted_nil, hdropped, hcount]; omega⟩

/-- A refused flush is charged as every packet in the batch. -/
theorem flushLocked_charges {b b' : Batcher} {o o' : Outbox} {ks : List Kept} (h : Rep b ks)
    (hf : flushLocked b o = some (b', o')) :
    b'.count = 0 ∧
      b'.droppedPackets = b.droppedPackets +
        (if (o.answers o.log.length).ok then 0 else b.count) := by
  have hcount : b.count = ks.length := h.holds.count_eq
  by_cases hne : ks = []
  · subst hne
    rw [flushLocked_nil h o] at hf
    cases hf
    simp [hcount]
  · obtain ⟨f, buf, hflush, _⟩ := flushLocked_cons h hne o
    rw [hflush] at hf
    cases hf
    refine ⟨rfl, ?_⟩
    by_cases hok : (o.answers o.log.length).ok = true
    · simp [flushed, hok]
    · simp [flushed, hok, hcount]

theorem flushLocked_accounts {b b' : Batcher} {o o' : Outbox} {ks : List Kept} (h : Rep b ks)
    (hf : flushLocked b o = some (b', o')) : Accounts b o b' o' 0 := by
  have hcount : b.count = ks.length := h.holds.count_eq
  by_cases hne : ks = []
  · subst hne
    rw [flushLocked_nil h o] at hf
    cases hf
    exact .silent o rfl rfl
  · obtain ⟨f, buf, hflush, hcloses⟩ := flushLocked_cons h hne o
    rw [hflush] at hf
    cases hf
    refine ⟨[(f, o.answers o.log.length)], rfl, rfl, ?_⟩
    by_cases hok : (o.answers o.log.length).ok = true
    · simp [flushed, hok, hcloses.packetsIn, hcount, Nat.add_comm]
    · simp [flushed, hok, hcount]

/-- The entry is written, and nothing else happens. -/
theorem putEntry_accounts {b b' : Batcher} {p : Packet} {len : Nat} (o : Outbox)
    (h : putEntry (openFor b p) p len = some b') : Accounts b o b' o 1 := by
  have hopen : (openFor b p).droppedPackets = b.droppedPackets ∧
      (openFor b p).count = b.count := by
    unfold openFor
    split
    · exact ⟨rfl, rfl⟩
    · exact ⟨rfl, rfl⟩
  simp only [putEntry, Option.bind_eq_bind, Option.bind_eq_some_iff] at h
  obtain ⟨buf, _, heq⟩ := h
  cases heq
  exact .silent o hopen.1 (congrArg (· + 1) hopen.2)

theorem snBatchAdd_accounts {b b' : Batcher} {o o' : Outbox} {ks : List Kept} {p : Packet}
    (h : Rep b ks) (hbelow : ks.length < maxEntries)
    (hs : snBatchAdd b o p = some (b', o')) : Accounts b o b' o' 1 := by
  obtain ⟨b₁, o₁, ks₁, hclose, hadv, hroom⟩ := closeEarly_advances h hbelow o p
  obtain ⟨b₂, hput, hrep⟩ := putEntry_rep (openFor_accepts hadv.rep hadv.below hroom)
  have hclosed : Accounts b o b₁ o₁ 0 := by
    unfold closeEarly at hclose
    split at hclose
    · exact flushLocked_accounts h hclose
    · cases hclose
      exact .silent o rfl rfl
  have hput' := putEntry_accounts o₁ hput
  simp only [snBatchAdd, (kept_psdu p).1, hclose, Option.bind_eq_bind, Option.bind_some,
    hput] at hs
  split at hs
  · obtain ⟨⟨b₃, o₃⟩, hflush, heq⟩ := Option.bind_eq_some_iff.mp hs
    cases heq
    have hflushed : Accounts b₂ o₁ b₃ o₃ 0 := flushLocked_accounts hrep hflush
    exact (hclosed.trans hput').trans hflushed
  · cases hs
    exact hclosed.trans hput'

/-- Any event of the batcher, with the packets it brings. -/
theorem step_accounts {b b' : Batcher} {o o' : Outbox} {ks : List Kept} {e : Event}
    (h : Rep b ks) (hbelow : ks.length < maxEntries) (hs : step b o e = some (b', o')) :
    Accounts b o b' o' (added [e]).length := by
  cases e with
  | add p => exact snBatchAdd_accounts h hbelow hs
  | flush =>
      have hflushed : Accounts { b with lingerArmed := false } o b' o' 0 :=
        flushLocked_accounts (h.setLinger false) hs
      exact hflushed
  | linger => exact flushLocked_accounts h hs

end Nrf54Sniffer.Batch
