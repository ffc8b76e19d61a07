/-
Nrf54Sniffer.Batch.FewestFrames — batches close only when they must.

`OneBatch` is what a run of packets must meet to travel in one frame. The four
early-close tests fail exactly where the packet would break it (`mustClose_iff`),
and the batch sent at `MAX_ENTRIES` could take no packet any more: so
`sn_batch_add` is the greedy cut of `Lib/GreedyCut`, which has the fewest
groups.
-/
import Nrf54Sniffer.Batch.BatcherTheorems
import Nrf54Sniffer.Lib.GreedyCut
import Mathlib.Data.List.Chain

namespace Nrf54Sniffer.Batch

open Nrf54Sniffer.Lib
open Nrf54Sniffer.Wire

/-! ## What travels in one frame -/

/-- The header, and five bytes and the PSDU for each packet. -/
def batchBytes : List Packet → Nat
  | [] => 10
  | p :: ps => 5 + min p.psdu.length 127 + batchBytes ps

/-- The second packet's delta can be written. -/
def Follows (p q : Packet) : Prop :=
  p.timestampUs.toNat ≤ q.timestampUs.toNat ∧
    q.timestampUs.toNat - p.timestampUs.toNat ≤ 65535

instance : DecidableRel Follows := fun _ _ => inferInstanceAs (Decidable (_ ∧ _))

/-- The packets can travel in one frame. -/
structure OneBatch (ps : List Packet) : Prop where
  oneChannel : ∀ p ∈ ps, ∀ q ∈ ps, p.channel = q.channel
  steps : ps.IsChain Follows
  count : ps.length ≤ 32
  bytes : batchBytes ps ≤ 2048

theorem oneBatch_iff (ps : List Packet) :
    OneBatch ps ↔ (∀ p ∈ ps, ∀ q ∈ ps, p.channel = q.channel) ∧ ps.IsChain Follows ∧
      ps.length ≤ 32 ∧ batchBytes ps ≤ 2048 :=
  ⟨fun h => ⟨h.oneChannel, h.steps, h.count, h.bytes⟩, fun h => ⟨h.1, h.2.1, h.2.2.1, h.2.2.2⟩⟩

instance : DecidablePred OneBatch := fun ps => decidable_of_iff' _ (oneBatch_iff ps)

theorem batchBytes_append (ps qs : List Packet) :
    batchBytes (ps ++ qs) + 10 = batchBytes ps + batchBytes qs := by
  induction ps with
  | nil => simp only [List.nil_append, batchBytes]; omega
  | cons p ps ih => simp only [List.cons_append, batchBytes]; omega

theorem batchBytes_ge (ps : List Packet) : 10 ≤ batchBytes ps := by
  cases ps with
  | nil => exact Nat.le_refl _
  | cons p ps =>
      induction ps generalizing p with
      | nil => simp only [batchBytes]; omega
      | cons q ps ih =>
          have := ih q
          simp only [batchBytes] at this ⊢
          omega

/-- A single packet always can, and so can a part of what can. -/
theorem oneBatch_cuttable : Cuttable OneBatch where
  alone p := by
    refine ⟨?_, .singleton p, by simp, ?_⟩
    · intro q hq r hr
      rw [List.mem_singleton.mp hq, List.mem_singleton.mp hr]
    · simp only [batchBytes]
      omega
  part := by
    rintro g h ⟨before, after, rfl⟩ hh
    refine ⟨fun p hp q hq => hh.oneChannel p (by simp [hp]) q (by simp [hq]), ?_, ?_, ?_⟩
    · exact (List.isChain_append.mp (List.isChain_append.mp hh.steps).1).2.1
    · have hcount := hh.count
      simp only [List.length_append] at hcount
      omega
    · have hbytes := hh.bytes
      have h₁ := batchBytes_append (before ++ g) after
      have h₂ := batchBytes_append before g
      have h₃ := batchBytes_ge before
      have h₄ := batchBytes_ge after
      omega

/-- What a batch that is not full asks of its next packet. -/
theorem oneBatch_concat {ps : List Packet} {q p : Packet} (h : OneBatch ps)
    (hlast : ps.getLast? = some q) (hbelow : ps.length < 32) :
    OneBatch (ps ++ [p]) ↔
      p.channel = q.channel ∧ Follows q p ∧
        batchBytes ps + (5 + min p.psdu.length 127) ≤ 2048 := by
  have hsize := batchBytes_append ps [p]
  simp only [batchBytes] at hsize
  have hmem : q ∈ ps := List.mem_of_getLast? hlast
  constructor
  · intro hp
    refine ⟨hp.oneChannel p (by simp) q (by simp [hmem]), ?_, ?_⟩
    · exact (List.isChain_append.mp hp.steps).2.2 q hlast p rfl
    · have hbytes := hp.bytes
      omega
  · rintro ⟨hchannel, hfollows, hbytes⟩
    have hall : ∀ r ∈ ps ++ [p], r.channel = q.channel := by
      intro r hr
      rcases List.mem_append.mp hr with hr | hr
      · exact h.oneChannel r hr q hmem
      · rw [List.mem_singleton.mp hr]
        exact hchannel
    refine ⟨fun r hr r' hr' => (hall r hr).trans (hall r' hr').symm, ?_, ?_, by omega⟩
    · refine List.isChain_append.mpr ⟨h.steps, .singleton p, ?_⟩
      intro r hr r' hr'
      cases hr'
      rw [hlast] at hr
      cases hr
      exact hfollows
    · rw [List.length_append]
      exact hbelow

/-- A batch of thirty-two takes no packet any more. -/
theorem oneBatch_full {ps : List Packet} (hfull : ps.length = 32) (p : Packet) :
    ¬ OneBatch (ps ++ [p]) := by
  intro h
  have hcount := h.count
  rw [List.length_append, List.length_singleton, hfull] at hcount
  exact absurd hcount (by decide)

/-! ## The open batch -/

/-- The packets `ps` are in the open batch. -/
structure Open (b : Batcher) (ps : List Packet) : Prop where
  rep : Rep b (ps.map Packet.kept)
  one : OneBatch ps
  below : ps.length < 32

theorem Open.count {b : Batcher} {ps : List Packet} (h : Open b ps) : b.count = ps.length := by
  rw [h.rep.holds.count_eq, List.length_map]

theorem kept_length (p : Packet) : p.kept.psdu.length = min p.psdu.length 127 := by
  show (p.psdu.take maxPsdu).length = _
  rw [List.length_take, Nat.min_comm]
  rfl

theorem encodeFrom_kept (t : Nat) (ps : List Packet) :
    headerLen + (entryFormat.encodeFrom t (ps.map Packet.kept)).length = batchBytes ps := by
  induction ps generalizing t with
  | nil => rfl
  | cons p ps ih =>
      have hrest := ih (entryFormat.stamp p.kept)
      have hbody : (entryFormat.body p.kept).length = 3 + p.kept.psdu.length := by
        simp only [entryFormat, List.length_append, List.length_cons, List.length_nil]
      rw [List.map_cons, EntryFormat.encodeFrom, List.length_append, EntryFormat.entry_length,
        hbody, kept_length, batchBytes]
      omega

theorem Open.used {b : Batcher} {ps : List Packet} (h : Open b ps) : b.used = batchBytes ps :=
  h.rep.holds.used_eq.trans (encodeFrom_kept _ ps)

theorem Open.last {b : Batcher} {ps : List Packet} {q : Packet} (h : Open b ps)
    (hlast : ps.getLast? = some q) : b.lastUs.toNat = q.timestampUs.toNat := by
  obtain ⟨qs, rfl⟩ := List.getLast?_eq_some_iff.mp hlast
  rw [h.rep.holds.last_eq (by simp), List.map_append]
  exact EntryFormat.lastFrom_append_singleton _ _ _ _

theorem Open.channel {b : Batcher} {ps : List Packet} {q : Packet} (h : Open b ps)
    (hlast : ps.getLast? = some q) : q.channel = b.batchChannel :=
  h.rep.channel q.kept (List.mem_map_of_mem (List.mem_of_getLast? hlast))

/-- The four early-close tests fail exactly where the packet may join. -/
theorem mustClose_iff {b : Batcher} {ps : List Packet} (h : Open b ps) (hne : ps ≠ [])
    (p : Packet) : mustClose b p p.kept.psdu.length = false ↔ OneBatch (ps ++ [p]) := by
  obtain ⟨q, hlast⟩ : ∃ q, ps.getLast? = some q := ⟨_, List.getLast?_eq_some_getLast hne⟩
  have hopen : 0 < b.count := by
    rw [h.count]
    exact List.length_pos_iff.mpr hne
  rw [mustClose_false_iff hopen, oneBatch_concat h.one hlast h.below, h.channel hlast,
    h.last hlast, h.used, kept_length]
  exact ⟨fun ⟨hc, hle, hdt, hroom⟩ => ⟨hc, ⟨hle, hdt⟩, hroom⟩,
    fun ⟨hc, ⟨hle, hdt⟩, hroom⟩ => ⟨hc, hle, hdt, hroom⟩⟩

/-! ## The code is the greedy cut -/

/-- `new` are the frames handed over in between. -/
def Sends (o o' : Outbox) (new : List Frame) : Prop := o'.frames = o.frames ++ new

theorem Sends.trans {o₁ o₂ o₃ : Outbox} {new new' : List Frame} (h : Sends o₁ o₂ new)
    (h' : Sends o₂ o₃ new') : Sends o₁ o₃ (new ++ new') := by
  rw [Sends, h', h, List.append_assoc]

/-- An open batch goes out in one frame. -/
theorem flushLocked_sendsOne {b : Batcher} {ps : List Packet} (h : Rep b (ps.map Packet.kept))
    (hne : ps ≠ []) (o : Outbox) :
    ∃ b' o' f, flushLocked b o = some (b', o') ∧ Rep b' [] ∧ Sends o o' [f] := by
  obtain ⟨f, buf, hflush, _⟩ := flushLocked_cons h (fun hnil => hne (List.map_eq_nil_iff.mp hnil)) o
  exact ⟨_, _, f, hflush, flushed_rep _ _ _ _, Outbox.send_frames o f⟩

/-- The early close is where the greedy cut closes a group. -/
theorem closeEarly_cut {b : Batcher} {ps : List Packet} (h : Open b ps) (o : Outbox) (p : Packet) :
    ∃ b' o' ps' new, closeEarly b o p p.kept.psdu.length = some (b', o') ∧
      Rep b' (ps'.map Packet.kept) ∧ ps'.length < 32 ∧
      mustClose b' p p.kept.psdu.length = false ∧ OneBatch (ps' ++ [p]) ∧ Sends o o' new ∧
      ∀ later, (cutFrom OneBatch ps (p :: later)).length
        = new.length + (cutFrom OneBatch (ps' ++ [p]) later).length := by
  unfold closeEarly
  cases hmust : mustClose b p p.kept.psdu.length with
  | false =>
      have hjoin : OneBatch (ps ++ [p]) := by
        by_cases hne : ps = []
        · rw [hne]
          exact oneBatch_cuttable.alone p
        · exact (mustClose_iff h hne p).mp hmust
      refine ⟨b, o, ps, [], rfl, h.rep, h.below, hmust, hjoin, (List.append_nil _).symm,
        fun later => ?_⟩
      rw [cutFrom, if_pos hjoin, List.length_nil, Nat.zero_add]
  | true =>
      have hne : ps ≠ [] := by
        intro hnil
        have hzero : b.count = 0 := by rw [h.count, hnil]; rfl
        rw [mustClose, hzero] at hmust
        cases hmust
      have hclose : ¬ OneBatch (ps ++ [p]) := by
        rw [← mustClose_iff h hne p, hmust]
        exact Bool.noConfusion
      obtain ⟨b', o', f, hflush, hrep, hsends⟩ := flushLocked_sendsOne h.rep hne o
      have hzero : b'.count = 0 := hrep.holds.count_eq
      refine ⟨b', o', [], [f], hflush, hrep, by decide, ?_, oneBatch_cuttable.alone p, hsends,
        fun later => ?_⟩
      · rw [mustClose, hzero]
        rfl
      · rw [cutFrom, if_neg hclose, List.length_cons, List.nil_append, Nat.add_comm]
        rfl

/-- `sn_batch_add` is one step of the greedy cut. -/
theorem snBatchAdd_cut {b : Batcher} {ps : List Packet} (h : Open b ps) (o : Outbox) (p : Packet) :
    ∃ b' o' ps' new, snBatchAdd b o p = some (b', o') ∧ Open b' ps' ∧ Sends o o' new ∧
      ∀ later, (cutFrom OneBatch ps (p :: later)).length
        = new.length + (cutFrom OneBatch ps' later).length := by
  obtain ⟨b₁, o₁, ps₁, new, hclose, hrep₁, hbelow, hopen, hjoin, hsends, hcut⟩ :=
    closeEarly_cut h o p
  obtain ⟨b₂, hput, hrep₂⟩ :=
    putEntry_rep (openFor_accepts hrep₁ (by rw [List.length_map]; exact hbelow) hopen)
  have hrep : Rep b₂ ((ps₁ ++ [p]).map Packet.kept) := by
    rw [List.map_append]
    exact hrep₂
  have hcount : b₂.count = ps₁.length + 1 := by
    rw [hrep.holds.count_eq, List.length_map, List.length_append, List.length_singleton]
  simp only [snBatchAdd, (kept_psdu p).1, hclose, Option.bind_eq_bind, Option.bind_some, hput]
  by_cases hfull : b₂.count = maxEntries
  · obtain ⟨b₃, o₃, f, hflush, hrep₃, hsends₃⟩ := flushLocked_sendsOne hrep (by simp) o₁
    refine ⟨_, _, [], new ++ [f], by rw [if_pos hfull, hflush]; rfl, ⟨hrep₃.setLinger false, ?_,
      by decide⟩, hsends.trans hsends₃, fun later => ?_⟩
    · exact oneBatch_cuttable.part (List.nil_infix) (oneBatch_cuttable.alone p)
    · have hlen : (ps₁ ++ [p]).length = 32 := by
        rw [List.length_append, List.length_singleton, ← hcount]
        exact hfull
      rw [hcut, cutFrom_full oneBatch_cuttable (by simp) (oneBatch_full hlen), List.length_cons,
        List.length_append, List.length_singleton]
      omega
  · refine ⟨_, _, ps₁ ++ [p], new, if_neg hfull, ⟨hrep.setLinger true, hjoin, ?_⟩, hsends, hcut⟩
    rw [List.length_append, List.length_singleton]
    rw [hcount] at hfull
    exact Nat.lt_of_le_of_ne hbelow hfull

/-- Packets added one after another, and a flush, are the greedy cut. -/
theorem run_cut {b : Batcher} {ps : List Packet} (h : Open b ps) (o : Outbox)
    (later : List Packet) :
    ∃ b' o' new, run b o (later.map .add ++ [.flush]) = some (b', o') ∧ Rep b' [] ∧
      Sends o o' new ∧ new.length = (cutFrom OneBatch ps later).length := by
  induction later generalizing b ps o with
  | nil =>
      by_cases hne : ps = []
      · subst hne
        refine ⟨_, o, [], ?_, h.rep.setLinger false, (List.append_nil _).symm, rfl⟩
        show (snBatchFlush b o).bind _ = _
        rw [snBatchFlush, flushLocked_nil (h.rep.setLinger false)]
        rfl
      · obtain ⟨b', o', f, hflush, hrep, hsends⟩ :=
          flushLocked_sendsOne (h.rep.setLinger false) hne o
        refine ⟨b', o', [f], ?_, hrep, hsends, ?_⟩
        · show (snBatchFlush b o).bind _ = _
          rw [snBatchFlush, hflush]
          rfl
        · rw [cutFrom, if_neg (fun hnil => hne (List.isEmpty_iff.mp hnil))]
          rfl
  | cons p later ih =>
      obtain ⟨b₁, o₁, ps₁, new₁, hadd, hopen, hsends₁, hcut⟩ := snBatchAdd_cut h o p
      obtain ⟨b', o', new, hrun, hrep, hsends, hlen⟩ := ih hopen o₁
      refine ⟨b', o', new₁ ++ new, ?_, hrep, hsends₁.trans hsends, ?_⟩
      · simp only [List.map_cons, List.cons_append, run, step, hadd, Option.bind_some]
        exact hrun
      · rw [List.length_append, hlen, hcut]

/-- **Batches close only when they must.** Whatever the batcher has gone
through, and whatever the link answers: once it is flushed, packets that are
then added with nothing in between and flushed go out in the fewest frames that
any cut of them into runs for one frame allows. -/
theorem fewest_frames (answers : Nat → SendResult) (es : List Event) (ps : List Packet) :
    ∃ b o b' o' new, run {} { answers } (es ++ [.flush]) = some (b, o) ∧
      run b o (ps.map .add ++ [.flush]) = some (b', o') ∧ o'.frames = o.frames ++ new ∧
      IsLeast {n | ∃ groups, IsCut OneBatch ps groups ∧ groups.length = n} new.length := by
  obtain ⟨b₀, o₀, ks, hes, hadv⟩ := run_advances rep_initial (by decide) { answers } es
  obtain ⟨b, o, hflush, hrep, -, -⟩ := snBatchFlush_spec hadv.rep o₀
  have hopen : Open b [] := ⟨hrep, oneBatch_cuttable.part List.nil_infix
    (oneBatch_cuttable.alone ⟨0, 0, 0, 0, []⟩), by decide⟩
  obtain ⟨b', o', new, hrun, -, hsends, hlen⟩ := run_cut hopen o ps
  refine ⟨b, o, b', o', new, ?_, hrun, hsends, ?_⟩
  · rw [run_append, hes]
    show (snBatchFlush b₀ o₀).bind _ = _
    rw [hflush]
    rfl
  · rw [hlen]
    exact cutFrom_isLeast oneBatch_cuttable ps

/-- A step of 65535 µs joins, one of 65536 µs does not. -/
example :
    (cutFrom OneBatch [] [⟨11, 5, 0, 0, []⟩, ⟨11, 65540, 0, 0, []⟩, ⟨11, 131076, 0, 0, []⟩]).map
      List.length = [2, 1] := by decide

end Nrf54Sniffer.Batch
