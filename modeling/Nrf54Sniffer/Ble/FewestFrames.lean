/-
Nrf54Sniffer.Ble.FewestFrames — the BLE batch closes only when it must.

`OneBatch` is what a run of packets must meet to travel in one frame: stamps
that go up by at most 65535 µs, at most 32 packets, and 2048 bytes. An open
batch always meets it (`Rep.oneBatch`), and `forward` closes it early exactly
where the next packet would break it, so `forward` follows the greedy cut of
`Lib/GreedyCut`, whatever the other threads do in between.
-/
import Nrf54Sniffer.Ble.ForwardTheorems
import Nrf54Sniffer.Lib.GreedyCut
import Mathlib.Data.List.Chain

namespace Nrf54Sniffer.Ble

open Nrf54Sniffer.Lib
open Nrf54Sniffer.Wire

/-! ## What travels in one frame -/

/-- The header, and seven bytes and the data for each packet. -/
def batchBytes : List Kept → Nat
  | [] => 9
  | k :: ks => 7 + k.data.length + batchBytes ks

/-- The second packet's delta can be written. -/
def Follows (k k' : Kept) : Prop :=
  k.timestampUs.toNat ≤ k'.timestampUs.toNat ∧
    k'.timestampUs.toNat - k.timestampUs.toNat ≤ 65535

instance : DecidableRel Follows := fun _ _ => inferInstanceAs (Decidable (_ ∧ _))

/-- The packets can travel in one frame. -/
structure OneBatch (ks : List Kept) : Prop where
  steps : ks.IsChain Follows
  count : ks.length ≤ 32
  bytes : batchBytes ks ≤ 2048

theorem oneBatch_iff (ks : List Kept) :
    OneBatch ks ↔ ks.IsChain Follows ∧ ks.length ≤ 32 ∧ batchBytes ks ≤ 2048 :=
  ⟨fun h => ⟨h.steps, h.count, h.bytes⟩, fun h => ⟨h.1, h.2.1, h.2.2⟩⟩

instance : DecidablePred OneBatch := fun ks => decidable_of_iff' _ (oneBatch_iff ks)

theorem batchBytes_append (ks ls : List Kept) :
    batchBytes (ks ++ ls) + 9 = batchBytes ks + batchBytes ls := by
  induction ks with
  | nil => simp only [List.nil_append, batchBytes]; omega
  | cons k ks ih => simp only [List.cons_append, batchBytes]; omega

theorem batchBytes_ge (ks : List Kept) : 9 ≤ batchBytes ks := by
  induction ks with
  | nil => exact Nat.le_refl _
  | cons k ks ih => simp only [batchBytes]; omega

/-- A single packet always can, cut to 300 bytes as it is, and so can a part of
what can. -/
theorem oneBatch_cuttable : Cuttable OneBatch where
  alone k := by
    have hle := k.data_le
    refine ⟨.singleton k, by simp, ?_⟩
    simp only [batchBytes, snBleMaxPacket] at hle ⊢
    omega
  part := by
    rintro g h ⟨before, after, rfl⟩ hh
    refine ⟨(List.isChain_append.mp (List.isChain_append.mp hh.steps).1).2.1, ?_, ?_⟩
    · have hcount := hh.count
      simp only [List.length_append] at hcount
      omega
    · have hbytes := hh.bytes
      have h₁ := batchBytes_append (before ++ g) after
      have h₂ := batchBytes_append before g
      have h₃ := batchBytes_ge before
      have h₄ := batchBytes_ge after
      omega

/-- A batch of thirty-two takes no packet any more. -/
theorem oneBatch_full {ks : List Kept} (hfull : ks.length = 32) (k : Kept) :
    ¬ OneBatch (ks ++ [k]) := by
  intro h
  have hcount := h.count
  rw [List.length_append, List.length_singleton, hfull] at hcount
  exact absurd hcount (by decide)

/-! ## The open batch -/

theorem encodeFrom_kept (t : Nat) (ks : List Kept) :
    bleBatchHdrLen + (entryFormat.encodeFrom t ks).length = batchBytes ks := by
  induction ks generalizing t with
  | nil => rfl
  | cons k ks ih =>
      have hrest := ih (entryFormat.stamp k)
      have hbody : (entryFormat.body k).length = 5 + k.data.length := by
        simp only [entryFormat, List.length_append, putLe16_length, List.length_cons,
          List.length_nil]
      rw [EntryFormat.encodeFrom, List.length_append, EntryFormat.entry_length, hbody, batchBytes]
      omega

theorem Rep.used {b : BleBatch} {ks : List Kept} (h : Rep b ks) : b.used = batchBytes ks :=
  h.holds.used_eq.trans (encodeFrom_kept _ ks)

theorem isChain_of_steps {t : Nat} {ks : List Kept} (h : entryFormat.Steps t ks) :
    ks.IsChain Follows := by
  induction ks generalizing t with
  | nil => exact .nil
  | cons k ks ih =>
      obtain ⟨_, _, hrest⟩ := h
      cases ks with
      | nil => exact .singleton k
      | cons k' ks => exact .cons_cons ⟨hrest.1, hrest.2.1⟩ (ih hrest)

/-- Whatever has joined can travel in one frame. -/
theorem Rep.oneBatch {b : BleBatch} {ks : List Kept} (h : Rep b ks) : OneBatch ks where
  steps := isChain_of_steps h.holds.steps
  count := h.length_le
  bytes := h.used ▸ h.holds.used_le

/-- The early-close tests fail exactly where the packet may join. -/
theorem mustClose_iff {b : BleBatch} {ks : List Kept} {p : Sized} (h : Rep b ks) (hne : ks ≠ [])
    (hbelow : ks.length < bleMaxEntries) (hp : p.Exact) :
    mustClose b p = false ↔ OneBatch (ks ++ [p.kept hp]) := by
  constructor
  · intro hopen
    obtain ⟨b', _, hrep⟩ := putEntry_rep (openFor_accepts h hp hbelow hopen) hp
    exact hrep.oneBatch
  · intro hone
    obtain ⟨k, hlast⟩ : ∃ k, ks.getLast? = some k := ⟨_, List.getLast?_eq_some_getLast hne⟩
    obtain ⟨hle, hdt⟩ : Follows k (p.kept hp) :=
      (List.isChain_append.mp hone.steps).2.2 k hlast _ rfl
    have hstamp : b.lastUs.toNat = k.timestampUs.toNat := by
      obtain ⟨before, rfl⟩ := List.getLast?_eq_some_iff.mp hlast
      rw [h.holds.last_eq (by simp)]
      exact EntryFormat.lastFrom_append_singleton _ _ _ _
    have hbytes := hone.bytes
    have hsum := batchBytes_append ks [p.kept hp]
    simp only [batchBytes, kept_length hp] at hsum
    have hkept : (p.kept hp).timestampUs = p.ts := rfl
    rw [hkept, ← hstamp] at hle hdt
    have hback : b.lastUs ≤ p.ts := UInt64.le_iff_toNat_le.mpr hle
    have hwide : (p.ts - b.lastUs).toNat = p.ts.toNat - b.lastUs.toNat :=
      UInt64.toNat_sub_of_le _ _ hback
    have hmax : (0xFFFF : UInt64).toNat = 65535 := rfl
    simp only [mustClose, Bool.and_eq_false_iff, Bool.or_eq_false_iff, decide_eq_false_iff_not,
      UInt64.lt_iff_toNat_lt, GT.gt, hwide, hmax, h.used, bleEntryLen, bleBatchBuf]
    exact .inr ⟨⟨by omega, by omega⟩, by omega⟩

/-! ## The code follows the greedy cut -/

/-- From the open batch `ks`, the packets `new` came in, some batches were
closed, one frame each, and `ks'` was left open, as the greedy cut does it. -/
structure Cut (o : Outbox) (ks new : List Kept) (s' : BleRadio) (o' : Outbox) (ks' : List Kept) :
    Prop where
  rep : Rep s'.batch ks'
  below : ks'.length < bleMaxEntries
  frames : ∃ fs, o'.frames = o.frames ++ fs ∧ Cuts OneBatch ks new fs.length ks'

/-- An open batch goes out in one frame. -/
theorem bleFlushLocked_one {s : BleRadio} {ks : List Kept} (h : Rep s.batch ks) (hne : ks ≠ [])
    (o : Outbox) :
    ∃ s' o' f, bleFlushLocked s o = some (s', o') ∧ Rep s'.batch [] ∧
      o'.frames = o.frames ++ [f] := by
  obtain ⟨f, buf, hflush, _⟩ := bleFlushLocked_cons h hne o
  exact ⟨_, _, f, hflush, emptied_rep _, Outbox.send_frames o f⟩

/-- The part under the lock is one step of the greedy cut. -/
theorem appendLocked_cut {s : BleRadio} {ks : List Kept} (h : Rep s.batch ks)
    (hbelow : ks.length < bleMaxEntries) (o : Outbox) {p : Sized} (hp : p.Exact) :
    ∃ s' o' ks', appendLocked s o p = some (s', o') ∧ Cut o ks [p.kept hp] s' o' ks' := by
  -- the early close is where the greedy cut closes a group
  obtain ⟨s₁, o₁, ks₁, fs, hclose, hrep₁, hbelow₁, hopen, hframes, hcut⟩ :
      ∃ s₁ o₁ ks₁ fs, closeEarly s o p = some (s₁, o₁) ∧ Rep s₁.batch ks₁ ∧
        ks₁.length < bleMaxEntries ∧ mustClose s₁.batch p = false ∧
        o₁.frames = o.frames ++ fs ∧
        Cuts OneBatch ks [p.kept hp] fs.length (ks₁ ++ [p.kept hp]) := by
    unfold closeEarly
    cases hmust : mustClose s.batch p with
    | false =>
        have hjoin : OneBatch (ks ++ [p.kept hp]) := by
          by_cases hne : ks = []
          · rw [hne]
            exact oneBatch_cuttable.alone _
          · exact (mustClose_iff h hne hbelow hp).mp hmust
        exact ⟨s, o, ks, [], rfl, h, hbelow, hmust, (List.append_nil _).symm, .join hjoin⟩
    | true =>
        have hne : ks ≠ [] := by
          rintro rfl
          have hzero : s.batch.count = 0 := h.holds.count_eq
          simp [mustClose, hzero] at hmust
        have hfull : ¬ OneBatch (ks ++ [p.kept hp]) := by
          rw [← mustClose_iff h hne hbelow hp, hmust]
          exact Bool.noConfusion
        obtain ⟨s₁, o₁, f, hflush, hrep, hframes⟩ := bleFlushLocked_one h hne o
        have hzero : s₁.batch.count = 0 := hrep.holds.count_eq
        exact ⟨s₁, o₁, [], [f], hflush, hrep, by decide, by simp [mustClose, hzero], hframes,
          .close hfull⟩
  obtain ⟨b₂, hput, hrep⟩ := putEntry_rep (openFor_accepts hrep₁ hp hbelow₁ hopen) hp
  have hcount : b₂.count = (ks₁ ++ [p.kept hp]).length := hrep.holds.count_eq
  simp only [appendLocked, hclose, Option.bind_eq_bind, Option.bind_some, hput]
  by_cases hmax : b₂.count = bleMaxEntries
  · -- a batch of thirty-two is sent at once
    obtain ⟨s₃, o₃, f, hflush, hrep₃, hframes₃⟩ := bleFlushLocked_one
      (s := { s₁ with batch := b₂, stats := { s₁.stats with captured := s₁.stats.captured + 1 } })
      hrep (by simp) o₁
    refine ⟨_, _, [], by rw [if_pos hmax, hflush]; rfl, hrep₃.setLinger false, by decide,
      fs ++ [f], by rw [hframes₃, hframes, List.append_assoc], ?_⟩
    have hlen : (ks₁ ++ [p.kept hp]).length = 32 := hcount.symm.trans hmax
    have hclosed := hcut.trans (.full oneBatch_cuttable (by simp) (oneBatch_full hlen))
    rw [List.append_nil] at hclosed
    rwa [List.length_append, List.length_singleton]
  · refine ⟨_, _, ks₁ ++ [p.kept hp], if_neg hmax, hrep.setLinger true, ?_, fs, hframes, hcut⟩
    have := hrep.length_le
    omega

/-- What `forward` keeps of a packet. -/
def Event.kept : (e : Event) → e.Fits → List Kept
  | .forward h4Type data now, h =>
      [(sizePacket h4Type data now.nowUs).kept (sizePacket_exact h4Type data now.nowUs h)]
  | _, _ => []

/-- An event that flushes nothing of itself. -/
def Event.packs : Event → Bool
  | .forward _ _ _ | .elsewhere _ => true
  | .linger | .stopFlush => false

/-- The packets of a history. -/
def keptOf : (es : List Event) → (∀ e ∈ es, e.Fits) → List Kept
  | [], _ => []
  | e :: es, h => e.kept (h e (by simp)) ++ keptOf es fun e' he' => h e' (by simp [he'])

theorem step_cut {s : BleRadio} {ks : List Kept} (h : Rep s.batch ks)
    (hbelow : ks.length < bleMaxEntries) (o : Outbox) {e : Event} (he : e.Fits)
    (hpacks : e.packs = true) :
    ∃ s' o' ks', step s o e = some (s', o') ∧ Cut o ks (e.kept he) s' o' ks' := by
  cases e with
  | forward h4Type data now =>
      have hp := sizePacket_exact h4Type data now.nowUs he
      obtain ⟨s₁, hbefore, hsame⟩ := beforeLock_spec s h4Type data now
      obtain ⟨s₂, o₂, ks₂, happend, hcut⟩ :=
        appendLocked_cut (s := s₁) (by rw [hsame.batch]; exact h) hbelow o hp
      refine ⟨s₂, o₂, ks₂, ?_, hcut⟩
      simp only [step, forward, hbefore, Option.bind_eq_bind, Option.bind_some, happend]
  | elsewhere rest =>
      exact ⟨_, o, ks, rfl, h, hbelow, [], (List.append_nil _).symm, .refl ks⟩
  | linger => cases hpacks
  | stopFlush => cases hpacks

theorem run_cut {s : BleRadio} {ks : List Kept} (h : Rep s.batch ks)
    (hbelow : ks.length < bleMaxEntries) (o : Outbox) (es : List Event)
    (hfits : ∀ e ∈ es, e.Fits) (hpacks : ∀ e ∈ es, e.packs = true) :
    ∃ s' o' ks', run s o es = some (s', o') ∧ Cut o ks (keptOf es hfits) s' o' ks' := by
  induction es generalizing s o ks with
  | nil => exact ⟨s, o, ks, rfl, h, hbelow, [], (List.append_nil _).symm, .refl ks⟩
  | cons e es ih =>
      obtain ⟨s₁, o₁, ks₁, hstep, hcut₁⟩ :=
        step_cut h hbelow o (hfits e (by simp)) (hpacks e (by simp))
      obtain ⟨s₂, o₂, ks₂, hrun, hcut₂⟩ := ih hcut₁.rep hcut₁.below o₁
        (fun e' he' => hfits e' (by simp [he'])) (fun e' he' => hpacks e' (by simp [he']))
      obtain ⟨fs, hframes, hcuts⟩ := hcut₁.frames
      obtain ⟨fs', hframes', hcuts'⟩ := hcut₂.frames
      refine ⟨s₂, o₂, ks₂, by simp only [run, hstep, Option.bind_some, hrun], hcut₂.rep,
        hcut₂.below, fs ++ fs', by rw [hframes', hframes, List.append_assoc], ?_⟩
      rw [List.length_append]
      exact hcuts.trans hcuts'

theorem run_append (s : BleRadio) (o : Outbox) (es es' : List Event) :
    run s o (es ++ es') = (run s o es).bind fun r => run r.1 r.2 es' := by
  induction es generalizing s o with
  | nil => rfl
  | cons e es ih =>
      simp only [List.cons_append, run, Option.bind_assoc]
      exact congrArg _ (funext fun r => ih r.1 r.2)

/-- The flush of a stop sends what is open. -/
theorem stopFlush_last {s : BleRadio} {ks : List Kept} (h : Rep s.batch ks) (o : Outbox) :
    ∃ s' o' last, run s o [.stopFlush] = some (s', o') ∧ Rep s'.batch [] ∧
      o'.frames = o.frames ++ last ∧ last.length = if ks.isEmpty then 0 else 1 := by
  by_cases hne : ks = []
  · subst hne
    refine ⟨_, o, [], ?_, h.setLinger false, (List.append_nil _).symm, rfl⟩
    simp only [run, step, stopFlush, bleFlushLocked_nil (h.setLinger false), Option.bind_some]
  · obtain ⟨s', o', f, hflush, hrep, hframes⟩ := bleFlushLocked_one (h.setLinger false) hne o
    refine ⟨s', o', [f], ?_, hrep, hframes, ?_⟩
    · simp only [run, step, stopFlush, hflush, Option.bind_some]
    · simp [hne]

/-- **Batches close only when they must.** Whatever the batch has gone through,
and whatever the link answers: once it is flushed, packets that are forwarded
with no flush in between, whatever the other threads do meanwhile, and then
flushed go out in the fewest frames that any cut of them into runs for one
frame allows. -/
theorem ble_fewest_frames (answers : Nat → SendResult) (before es : List Event)
    (hbefore : ∀ e ∈ before, e.Fits) (hfits : ∀ e ∈ es, e.Fits)
    (hpacks : ∀ e ∈ es, e.packs = true) :
    ∃ s o s' o' new, run {} { answers } (before ++ [.stopFlush]) = some (s, o) ∧
      run s o (es ++ [.stopFlush]) = some (s', o') ∧ o'.frames = o.frames ++ new ∧
      IsLeast {n | ∃ groups, IsCut OneBatch (keptOf es hfits) groups ∧ groups.length = n}
        new.length := by
  obtain ⟨s₀, o₀, ks₀, hrun₀, hadv⟩ :=
    run_advances (s := {}) rep_initial (by decide) { answers } before hbefore
  obtain ⟨s, o, _, hflush₀, hrep, _, _⟩ := stopFlush_last hadv.rep o₀
  obtain ⟨s₁, o₁, ks, hrun, hcut⟩ := run_cut hrep (by decide) o es hfits hpacks
  obtain ⟨fs, hframes, hcuts⟩ := hcut.frames
  obtain ⟨s', o', last, hflush, _, hframes', hlast⟩ := stopFlush_last hcut.rep o₁
  refine ⟨s, o, s', o', fs ++ last, ?_, ?_, by rw [hframes', hframes, List.append_assoc], ?_⟩
  · rw [run_append, hrun₀]
    exact hflush₀
  · rw [run_append, hrun]
    exact hflush
  · rw [List.length_append]
    exact hcuts.isLeast oneBatch_cuttable hlast

/-- A step of 65536 µs takes a second frame, one of 65535 µs does not. -/
theorem ble_fewest_frames_two :
    let es : List Event := [.forward h4Event [62] ⟨5, 0, 0⟩, .forward h4Iso [1, 2] ⟨65540, 0, 0⟩,
      .elsewhere {}, .forward h4Event [63] ⟨131076, 0, 0⟩]
    ∃ (hfits : ∀ e ∈ es, e.Fits) (s' : BleRadio) (o' : Outbox),
      run {} { answers := fun _ => .sent 16 } (es ++ [.stopFlush]) = some (s', o') ∧
      o'.frames.length = 2 ∧
      IsLeast {n | ∃ groups, IsCut OneBatch (keptOf es hfits) groups ∧ groups.length = n} 2 := by
  intro es
  have hfits : ∀ e ∈ es, e.Fits := by
    intro e he
    simp only [es, List.mem_cons, List.not_mem_nil, or_false] at he
    rcases he with rfl | rfl | rfl | rfl <;> simp [Event.Fits]
  have hpacks : ∀ e ∈ es, e.packs = true := by
    intro e he
    simp only [es, List.mem_cons, List.not_mem_nil, or_false] at he
    rcases he with rfl | rfl | rfl | rfl <;> rfl
  obtain ⟨s, o, s', o', new, hfirst, hrun, hframes, hleast⟩ :=
    ble_fewest_frames (fun _ => .sent 16) [] es (by simp) hfits hpacks
  have hempty : run {} { answers := fun _ => .sent 16 } [.stopFlush]
      = some (setLinger {} false, { answers := fun _ => .sent 16 }) := rfl
  rw [List.nil_append, hempty] at hfirst
  cases hfirst
  have hcount : (run {} { answers := fun _ => .sent 16 } (es ++ [.stopFlush])).any
      (fun r => r.2.frames.length == 2) = true := by decide +kernel
  have hall : o'.frames.length = 2 := by
    obtain ⟨r, hr, hlen⟩ := (Option.any_eq_true _ _).mp hcount
    have hsame : r = (s', o') := Option.some.inj (hr.symm.trans hrun)
    rw [hsame] at hlen
    exact beq_iff_eq.mp hlen
  have hnew : new.length = 2 := by
    rw [← hall, hframes]
    rfl
  rw [hnew] at hleast
  exact ⟨hfits, s', o', hrun, hall, hleast⟩

end Nrf54Sniffer.Ble
