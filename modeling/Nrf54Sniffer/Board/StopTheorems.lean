/-
Nrf54Sniffer.Board.StopTheorems — a capture that has ended stays ended, as long
as no packet overtakes its stop.

`Half` is the invariant of one radio: it is clean (not running, nothing in its
batch), or it captures and no command is in hand, or the flush of its stop is
still to come. A reply of STOP or GET_INFO finds both radios clean, and from
then on nothing but a START or SET_CHANNEL can change that in a run that meets
`Prompt`. `late_packet_sent` is a run that does not.

`reaches_run` ties the machine to the one of whole calls: each of its inputs is
a stretch of steps that nobody interrupts.
-/
import Nrf54Sniffer.Board.Effects
import Nrf54Sniffer.Board.Stop

namespace Nrf54Sniffer.Board.Stop

open Nrf54Sniffer.Lib
open Nrf54Sniffer.Wire
open Nrf54Sniffer.Batch (Batcher)
open Nrf54Sniffer.Radio154
open Nrf54Sniffer.Ble
open Nrf54Sniffer.Control

/-! ## The flushes -/

/-- What a flush of the BLE batch leaves. -/
structure BleFlushed (s s' : BleRadio) (o o' : Outbox) : Prop where
  empty : s'.batch.count = 0
  running : s'.running = s.running
  ready : s'.ready = s.ready
  silent : s.batch.count = 0 → o' = o

theorem bleFlushLocked_flushed {s s' : BleRadio} {o o' : Outbox}
    (h : bleFlushLocked s o = some (s', o')) : BleFlushed s s' o o' := by
  obtain ⟨batch, stats, rfl, hempty, hsilent⟩ := bleFlushLocked_effect h
  exact ⟨hempty, rfl, rfl, hsilent⟩

/-- The flush of `sn_radio_ble_stop`. -/
theorem stopFlush_flushed {s s' : BleRadio} {o o' : Outbox} (h : stopFlush s o = some (s', o')) :
    BleFlushed s s' o o' := by
  obtain ⟨batch, stats, rfl, hempty, hsilent⟩ := stopFlush_effect h
  exact ⟨hempty, rfl, rfl, hsilent⟩

/-- The locked part of `forward` does not look at the capture's flags. -/
theorem appendLocked_flags {s s' : BleRadio} {o o' : Outbox} {p : Sized}
    (h : appendLocked s o p = some (s', o')) :
    s'.running = s.running ∧ s'.ready = s.ready := by
  obtain ⟨batch, stats, rfl⟩ := appendLocked_effect h
  exact ⟨rfl, rfl⟩

/-! ## One radio -/

/-- Where one radio is: clean, or capturing with no command in hand, or still
to be flushed by the one in hand. -/
inductive Half (running : Bool) (count : Nat) (selected : Prop) (flush : Act)
    (todo : List Act) : Prop where
  | clean (hrun : running = false) (hcount : count = 0)
  | capturing (hidle : todo = []) (hrun : running = true) (hselected : selected)
  | stopping (hflush : flush ∈ todo)

namespace Half

variable {running running' : Bool} {count : Nat} {selected : Prop} {flush a : Act}
  {todo : List Act}

/-- A packet joins, or a batch is sent. -/
theorem recount (h : Half running count selected flush todo)
    (hopen : running = true ∨ flush ∈ todo) (count' : Nat) :
    Half running count' selected flush todo := by
  cases h with
  | clean hrun _ =>
      rcases hopen with hopen | hopen
      · rw [hrun] at hopen
        cases hopen
      · exact .stopping hopen
  | capturing hidle hrun hselected => exact .capturing hidle hrun hselected
  | stopping hflush => exact .stopping hflush

theorem emptied (h : Half running count selected flush todo) :
    Half running 0 selected flush todo := by
  cases h with
  | clean hrun _ => exact .clean hrun rfl
  | capturing hidle hrun hselected => exact .capturing hidle hrun hselected
  | stopping hflush => exact .stopping hflush

/-- The running flag is cleared at most, by a command in hand. -/
theorem halted (h : Half running count selected flush (a :: todo))
    (hhalt : running' = true → running = true) :
    Half running' count selected flush (a :: todo) := by
  cases h with
  | clean hrun hcount =>
      cases running' with
      | false => exact .clean rfl hcount
      | true =>
          rw [hrun] at hhalt
          exact absurd (hhalt rfl) (by simp)
  | capturing hidle => cases hidle
  | stopping hflush => exact .stopping hflush

/-- An act is done: if it was the flush, the radio is clean. -/
theorem pop (h : Half running count selected flush (a :: todo))
    (hdone : a = flush → running = false ∧ count = 0) :
    Half running count selected flush todo := by
  cases h with
  | clean hrun hcount => exact .clean hrun hcount
  | capturing hidle => cases hidle
  | stopping hflush =>
      rcases List.mem_cons.mp hflush with heq | hmem
      · exact .clean (hdone heq.symm).1 (hdone heq.symm).2
      · exact .stopping hmem

/-- The last act finds the radio clean. -/
theorem last (h : Half running count selected flush [a]) (ha : a ≠ flush) :
    running = false ∧ count = 0 := by
  cases h with
  | clean hrun hcount => exact ⟨hrun, hcount⟩
  | capturing hidle => cases hidle
  | stopping hflush => exact absurd (List.mem_singleton.mp hflush).symm ha

/-- A command is taken up that flushes a radio that captures. -/
theorem takeUp (h : Half running count selected flush [])
    (hflush : running = true → selected → flush ∈ todo) :
    Half running count selected flush todo := by
  cases h with
  | clean hrun hcount => exact .clean hrun hcount
  | capturing _ hrun hselected => exact .stopping (hflush hrun hselected)
  | stopping hflush => cases hflush

/-- A radio is started, if it is the selected one. -/
theorem started (h : Half running count selected flush [])
    (hkeep : running = true → running' = true)
    (hstart : running' = true → running = true ∨ selected) :
    Half running' count selected flush [] := by
  cases h with
  | clean hrun hcount =>
      cases hrun' : running' with
      | false => exact .clean rfl hcount
      | true =>
          rcases hstart hrun' with hstart | hstart
          · rw [hrun] at hstart
            cases hstart
          · exact .capturing rfl rfl hstart
  | capturing _ hrun hselected => exact .capturing rfl (hkeep hrun) hselected
  | stopping hflush => cases hflush

end Half

/-! ## The invariant -/

/-- A reply ends the command in hand. -/
def Act.isReply : Act → Bool
  | .replyStop _ | .replyInfo _ | .replySelect .. => true
  | _ => false

/-- A reply comes last, and the BLE flush after the flag is cleared. -/
def Ordered : List Act → Prop
  | [] => True
  | a :: todo =>
      (a.isReply = true → todo = []) ∧ (a = .flushBle → Act.haltBle ∉ todo) ∧ Ordered todo

/-- Neither radio captures and both batches are empty. -/
structure Clean (fw : Firmware) : Prop where
  running154 : fw.radio.running = false
  batch : fw.batcher.count = 0
  runningBle : fw.ble.running = false
  bleBatch : fw.ble.batch.count = 0

/-- Nothing of a capture was handed over after the first `n` frames, and
nothing is left to be. -/
structure Over (fw : Firmware) (n : Nat) : Prop where
  clean : Clean fw
  length_le : n ≤ fw.outbox.frames.length
  plain : ∀ f ∈ fw.outbox.frames.drop n, f.type.carriesPackets = false

/-- The invariant of a run. -/
structure Inv (fw : Firmware) (todo : List Act) (mark : Option Nat) : Prop where
  ready : fw.ble.running = true → fw.ble.ready = true
  half154 : Half fw.radio.running fw.batcher.count (fw.selectedRadio ≠ radioBle) .flush154 todo
  halfBle : Half fw.ble.running fw.ble.batch.count (fw.selectedRadio = radioBle) .flushBle todo
  halted : fw.ble.running = true → Act.flushBle ∈ todo → Act.haltBle ∈ todo
  ordered : Ordered todo
  ended : ∀ n ∈ mark, Over fw n

theorem inv_initial (w : World) : Inv (boot w) [] none where
  ready h := by cases h
  half154 := .clean rfl rfl
  halfBle := .clean rfl rfl
  halted h := by cases h
  ordered := trivial
  ended n hn := by cases hn

theorem Clean.aside {fw fw' : Firmware} (h : Clean fw) (ha : Aside fw fw') : Clean fw' where
  running154 := ha.running154.trans h.running154
  batch := by rw [ha.batch]; exact h.batch
  runningBle := ha.runningBle.trans h.runningBle
  bleBatch := by rw [ha.ble]; exact h.bleBatch

/-- Frames without packets may follow. -/
theorem Over.adds {fw fw' : Firmware} {n : Nat} (h : Over fw n) (hclean : Clean fw')
    (hadds : ∃ new, fw'.outbox.frames = fw.outbox.frames ++ new ∧
      ∀ f ∈ new, f.type.carriesPackets = false) : Over fw' n := by
  obtain ⟨new, hframes, hplain⟩ := hadds
  have hle := h.length_le
  refine ⟨hclean, by rw [hframes, List.length_append]; omega, ?_⟩
  intro f hf
  rw [hframes, List.drop_append_of_le_length hle] at hf
  rcases List.mem_append.mp hf with hf | hf
  · exact h.plain f hf
  · exact hplain f hf

/-- Where nothing is sent, what is over stays over. -/
theorem Over.silent {fw fw' : Firmware} {n : Nat} (h : Over fw n) (hclean : Clean fw')
    (hsame : fw'.outbox = fw.outbox) : Over fw' n :=
  h.adds hclean ⟨[], by rw [hsame, List.append_nil], by simp⟩

namespace Inv

variable {fw fw' : Firmware} {a : Act} {todo : List Act} {mark : Option Nat}

theorem aside (h : Inv fw todo mark) (ha : Aside fw fw') : Inv fw' todo mark where
  ready := by rw [ha.runningBle, ha.ready]; exact h.ready
  half154 := by rw [ha.running154, ha.batch, ha.selected]; exact h.half154
  halfBle := by rw [ha.runningBle, ha.ble, ha.selected]; exact h.halfBle
  halted := by rw [ha.runningBle]; exact h.halted
  ordered := h.ordered
  ended n hn := (h.ended n hn).adds ((h.ended n hn).clean.aside ha) ha.adds

/-- An act is done. -/
theorem pop (h : Inv fw (a :: todo) mark)
    (h154 : a = .flush154 → fw.radio.running = false ∧ fw.batcher.count = 0)
    (hble : a = .flushBle → fw.ble.running = false ∧ fw.ble.batch.count = 0)
    (hhalt : a = .haltBle → fw.ble.running = false) : Inv fw todo mark where
  ready := h.ready
  half154 := h.half154.pop h154
  halfBle := h.halfBle.pop hble
  halted hrun hflush := by
    rcases List.mem_cons.mp (h.halted hrun (List.mem_cons_of_mem a hflush)) with heq | hmem
    · rw [hhalt heq.symm] at hrun
      cases hrun
    · exact hmem
  ordered := h.ordered.2.2
  ended := h.ended

/-- The 802.15.4 batch is sent. -/
theorem batchSent {batcher : Batcher} {outbox : Outbox} (h : Inv fw todo mark)
    (hempty : batcher.count = 0) (hsilent : fw.batcher.count = 0 → outbox = fw.outbox) :
    Inv { fw with batcher, outbox } todo mark where
  ready := h.ready
  half154 := by rw [hempty]; exact h.half154.emptied
  halfBle := h.halfBle
  halted := h.halted
  ordered := h.ordered
  ended n hn :=
    have hover := h.ended n hn
    hover.silent ⟨hover.clean.running154, hempty, hover.clean.runningBle, hover.clean.bleBatch⟩
      (hsilent hover.clean.batch)

/-- The BLE batch is sent. -/
theorem bleSent {ble : BleRadio} {outbox : Outbox} (h : Inv fw todo mark)
    (hsent : BleFlushed fw.ble ble fw.outbox outbox) :
    Inv { fw with ble, outbox } todo mark where
  ready := by rw [hsent.running, hsent.ready]; exact h.ready
  half154 := h.half154
  halfBle := by rw [hsent.running, hsent.empty]; exact h.halfBle.emptied
  halted := by rw [hsent.running]; exact h.halted
  ordered := h.ordered
  ended n hn :=
    have hover := h.ended n hn
    hover.silent ⟨hover.clean.running154, hover.clean.batch,
      hsent.running.trans hover.clean.runningBle, hsent.empty⟩ (hsent.silent hover.clean.bleBatch)

end Inv

/-! ## Commands handled in one go -/

/-- A radio may have been started, the 802.15.4 batch may have been sent. -/
structure Started (fw fw' : Firmware) : Prop where
  ready : fw'.ble.ready = fw.ble.ready
  selected : fw'.selectedRadio = fw.selectedRadio
  batch : fw'.batcher.count = fw.batcher.count ∨ fw'.batcher.count = 0
  bleBatch : fw'.ble.batch = fw.ble.batch
  keep154 : fw.radio.running = true → fw'.radio.running = true
  start154 : fw'.radio.running = true → fw.radio.running = true ∨ fw.selectedRadio ≠ radioBle
  keepBle : fw.ble.running = true → fw'.ble.running = true
  startBle : fw'.ble.running = true →
    fw.ble.running = true ∨ fw.selectedRadio = radioBle ∧ fw.ble.ready = true
  adds : fw.batcher.count = 0 → ∃ new, fw'.outbox.frames = fw.outbox.frames ++ new ∧
    ∀ f ∈ new, f.type.carriesPackets = false

theorem Started.reply {fw fw' : Firmware} (h : Started fw fw') (p : Platform) (command : UInt8)
    (status : Status) (value : UInt32) : Started fw (reply p fw' command status value) := by
  refine ⟨h.ready, h.selected, h.batch, h.bleBatch, h.keep154, h.start154, h.keepBle, h.startBle,
    fun hempty => ?_⟩
  obtain ⟨new, hframes, hplain⟩ := h.adds hempty
  obtain ⟨more, hmore, hplain'⟩ := (reply_aside p fw' command status value).adds
  refine ⟨new ++ more, by rw [hmore, hframes, List.append_assoc], ?_⟩
  intro f hf
  rcases List.mem_append.mp hf with hf | hf
  · exact hplain f hf
  · exact hplain' f hf

theorem Started.ofAside {fw fw' : Firmware} (h : Aside fw fw') : Started fw fw' where
  ready := h.ready
  selected := h.selected
  batch := .inl (by rw [h.batch])
  bleBatch := h.ble
  keep154 := by rw [h.running154]; exact id
  start154 := by rw [h.running154]; exact .inl
  keepBle := by rw [h.runningBle]; exact id
  startBle := by rw [h.runningBle]; exact .inl
  adds _ := h.adds

/-- A radio that is started or keeps its state, and nothing else. -/
theorem Started.radio {fw : Firmware} {radio : Radio} {logs : List LogLine}
    (hselected : fw.selectedRadio ≠ radioBle)
    (hkeep : fw.radio.running = true → radio.running = true) :
    Started fw { fw with radio, logs } :=
  ⟨rfl, rfl, .inl rfl, rfl, hkeep, fun _ => .inr hselected, id, .inl,
    fun _ => ⟨[], (List.append_nil _).symm, by simp⟩⟩

theorem snRadio154Start_keeps (r : Radio) (h : r.running = true) :
    (snRadio154Start r).1.running = true := by
  unfold snRadio154Start
  dsimp only
  split
  · rfl
  · exact h

theorem snRadio154SetChannel_running (r : Radio) (channel : UInt8) :
    (snRadio154SetChannel r channel).1.running = r.running := by
  unfold snRadio154SetChannel
  split
  · rfl
  · dsimp only
    split
    · rfl
    · rfl

/-- BLE START: the selected radio, where the controller is ready. -/
theorem snRadioBleStart_started {fw : Firmware} (hselected : fw.selectedRadio = radioBle) :
    Started fw (snRadioBleStart fw fw.bleIntervalMs fw.bleWindowMs fw.blePhys).1 := by
  cases hready : fw.ble.ready with
  | false =>
      have hrefused : snRadioBleStart fw fw.bleIntervalMs fw.bleWindowMs fw.blePhys
          = (fw, -eNoDev) := by simp [snRadioBleStart, hready]
      rw [hrefused]
      exact .ofAside (.refl fw)
  | true =>
      obtain ⟨fw', honly, hcases⟩ :=
        snRadioBleStart_cases fw fw.bleIntervalMs fw.bleWindowMs fw.blePhys
      have h := Started.ofAside (Aside.ofOnlyHci honly)
      rcases hcases with heq | heq
      · rw [heq]
        exact h
      · rw [heq]
        exact ⟨h.ready, h.selected, h.batch, h.bleBatch, h.keep154, h.start154, fun _ => rfl,
          fun _ => .inr ⟨hselected, hready⟩, h.adds⟩

theorem startBle_started {fw : Firmware} (hselected : fw.selectedRadio = radioBle) :
    Started fw (startBle fw).1 := by
  have h := snRadioBleStart_started hselected
  unfold startBle
  split
  rename_i fw' err heq
  rw [heq] at h
  split
  · exact ⟨h.ready, h.selected, h.batch, h.bleBatch, h.keep154, h.start154, h.keepBle, h.startBle,
      h.adds⟩
  · exact h

theorem onStart_started (p : Platform) (fw : Firmware) (command : UInt8) :
    Started fw (onStart p fw command) := by
  unfold onStart
  split
  · rename_i hselected
    exact (startBle_started hselected).reply _ _ _ _
  · rename_i hselected
    exact (Started.radio hselected (snRadio154Start_keeps fw.radio)).reply _ _ _ _

theorem tuneAndStart_started {fw : Firmware} (hselected : fw.selectedRadio ≠ radioBle)
    (value : UInt32) : Started fw (tuneAndStart fw value).1 := by
  have htuned := snRadio154SetChannel_running fw.radio value.toUInt8
  have hkeep : fw.radio.running = true →
      (snRadio154Start (snRadio154SetChannel fw.radio value.toUInt8).1).1.running = true :=
    fun hrun => snRadio154Start_keeps _ (htuned.trans hrun)
  unfold tuneAndStart
  dsimp only
  split
  · exact .radio hselected (fun hrun => htuned.trans hrun)
  · split
    · exact .radio hselected hkeep
    · exact .radio hselected hkeep

theorem onSetChannel_started {p : Platform} {fw fw' : Firmware} {command : UInt8}
    {value : UInt32} (h : onSetChannel p fw command value = some fw') : Started fw fw' := by
  unfold onSetChannel at h
  split at h
  · cases h
    exact .ofAside (reply_aside _ _ _ _ _)
  · rename_i hselected
    obtain ⟨fw₁, hflush, heq⟩ := Option.map_eq_some_iff.mp h
    cases heq
    obtain ⟨batcher, outbox, rfl, hempty, hsilent⟩ := flushBatch_effect hflush
    have hstart := @tuneAndStart_started { fw with batcher, outbox } hselected value
    refine Started.reply ?_ _ _ _ _
    refine ⟨hstart.ready, hstart.selected, .inr ?_, hstart.bleBatch, hstart.keep154,
      hstart.start154, hstart.keepBle, hstart.startBle, fun hzero => ?_⟩
    · rcases hstart.batch with hbatch | hbatch
      · exact hbatch.trans hempty
      · exact hbatch
    · obtain ⟨new, hframes, hplain⟩ := hstart.adds hempty
      exact ⟨new, hframes.trans (congrArg (fun o => o.frames ++ new) (hsilent hzero)), hplain⟩

/-- A SET_RADIO that leaves no radio changes nothing. -/
theorem onSetRadio_aside {p : Platform} {fw fw' : Firmware} {command : UInt8} {value : UInt32}
    (hstays : leavesRadio fw value = false) (h : onSetRadio p fw command value = some fw') :
    Aside fw fw' := by
  unfold onSetRadio at h
  split at h
  · cases h
    exact reply_aside _ _ _ _ _
  · rename_i hvalid
    have hsame : value = fw.selectedRadio.toUInt32 := by
      unfold leavesRadio at hstays
      by_cases h154 : value = radio154.toUInt32
      · simpa [h154] using hstays
      · have hble : value = radioBle.toUInt32 := by
          by_cases hble : value = radioBle.toUInt32
          · exact hble
          · exact absurd ⟨h154, hble⟩ hvalid
        simpa [hble] using hstays
    rw [if_neg (not_not_intro hsame)] at h
    cases h
    have hselected : value.toUInt8 = fw.selectedRadio := by simp [hsame]
    exact .stored (by simp only [dataPath, hselected]) _ _ _ _

/-- A command that stops nothing works aside from the capture, or starts a
radio. -/
theorem onCommand_cases {p : Platform} {fw fw' : Firmware} {command : UInt8} {value : UInt32}
    (hacts : commandActs p fw command value = none) (h : onCommand p fw command value = some fw') :
    Aside fw fw' ∨
      ((p.command command == .start || p.command command == .setChannel) = true ∧
        Started fw fw') := by
  unfold commandActs at hacts
  unfold onCommand at h
  cases hcommand : p.command command with
  | setRadio =>
      simp only [hcommand] at hacts h
      left
      refine onSetRadio_aside ?_ h
      by_cases hleaves : leavesRadio fw value = true
      · rw [if_pos hleaves] at hacts
        cases hacts
      · simpa using hleaves
  | setBlePhys =>
      simp only [hcommand] at h
      cases h
      left
      unfold onSetBlePhys
      split
      · exact reply_aside _ _ _ _ _
      · exact .stored (by rfl) _ _ _ _
  | setBlePeriodic =>
      simp only [hcommand] at h
      cases h
      exact .inl (.stored (by rfl) _ _ _ _)
  | setBleScan =>
      simp only [hcommand] at h
      cases h
      exact .inl (.stored (by rfl) _ _ _ _)
  | setChannel =>
      simp only [hcommand] at h
      exact .inr ⟨rfl, onSetChannel_started h⟩
  | start =>
      simp only [hcommand] at h
      cases h
      exact .inr ⟨rfl, onStart_started p fw command⟩
  | stop =>
      simp only [hcommand] at hacts
      cases hacts
  | getInfo =>
      simp only [hcommand] at hacts
      cases hacts
  | setAntenna =>
      simp only [hcommand] at h
      cases h
      exact .inl ((setAntenna_aside fw value).reply _ _ _ _)
  | energyDetect =>
      simp only [hcommand] at h
      cases h
      exact .inl (onEnergyDetect_aside p fw command value)
  | unknown =>
      simp only [hcommand] at h
      cases h
      exact .inl (reply_aside _ _ _ _ _)

theorem snControlHandle_cases {p : Platform} {fw fw' : Firmware} {type : FrameType}
    {payload : List UInt8} (hacts : frameActs p fw type payload = none)
    (h : snControlHandle p fw type payload = some fw') :
    Aside fw fw' ∨ (isStart p type payload = true ∧ Started fw fw') := by
  unfold snControlHandle at h
  split at h
  · cases h
    exact .inl (.silent rfl)
  · obtain ⟨⟨fw₁, err⟩, hkeys, heq⟩ := Option.map_eq_some_iff.mp h
    cases heq
    exact .inl (snRadioBleSetKeys_aside hkeys)
  · exact onCommand_cases hacts h
  · cases h
    exact .inl (.refl fw)

/-- A radio is started with no command in hand. -/
theorem Inv.started {fw fw' : Firmware} {mark mark' : Option Nat} (h : Inv fw [] mark)
    (hs : Started fw fw') (hover : ∀ n ∈ mark', Over fw' n) : Inv fw' [] mark' where
  ready hrun := by
    rw [hs.ready]
    rcases hs.startBle hrun with hrun | ⟨_, hready⟩
    · exact h.ready hrun
    · exact hready
  half154 := by
    have hcount : Half fw.radio.running fw'.batcher.count (fw.selectedRadio ≠ radioBle)
        .flush154 [] := by
      rcases hs.batch with hbatch | hbatch
      · rw [hbatch]
        exact h.half154
      · rw [hbatch]
        exact h.half154.emptied
    rw [hs.selected]
    exact hcount.started hs.keep154 hs.start154
  halfBle := by
    rw [hs.selected, hs.bleBatch]
    exact h.halfBle.started hs.keepBle fun hrun => (hs.startBle hrun).imp_right And.left
  halted _ hflush := by cases hflush
  ordered := trivial
  ended := hover

/-- A start after which no radio captures has not sent anything either. -/
theorem Over.notStarted {fw fw' : Firmware} {n : Nat} (h : Over fw n) (hs : Started fw fw')
    (hidle : capturing fw' = false) : Over fw' n := by
  obtain ⟨hrun, hrunBle⟩ := Bool.or_eq_false_iff.mp hidle
  have hbatch : fw'.batcher.count = 0 := by
    rcases hs.batch with hbatch | hbatch
    · exact hbatch.trans h.clean.batch
    · exact hbatch
  exact h.adds ⟨hrun, hbatch, hrunBle, by rw [hs.bleBatch]; exact h.clean.bleBatch⟩
    (hs.adds h.clean.batch)

theorem handled_inv {p : Platform} {s : State} {type : FrameType} {payload : List UInt8}
    {fw : Firmware} (h : Inv s.fw [] s.mark) (hacts : frameActs p s.fw type payload = none)
    (hs : snControlHandle p s.fw type payload = some fw) :
    Inv fw [] (handled p s type payload fw).mark := by
  unfold handled
  rcases snControlHandle_cases hacts hs with haside | ⟨hstart, hstarted⟩
  · have hinv := h.aside haside
    split
    · exact { hinv with ended := nofun }
    · exact hinv
  · split
    · exact h.started hstarted nofun
    · rename_i hidle
      refine h.started hstarted fun n hn => (h.ended n hn).notStarted hstarted ?_
      simp only [Bool.and_eq_true, not_and, Bool.not_eq_true] at hidle
      exact hidle hstart

/-! ## Commands that stop a radio -/

/-- What a command taken up in acts will do. -/
structure Plans (fw : Firmware) (todo : List Act) : Prop where
  ordered : Ordered todo
  flush154 : fw.selectedRadio ≠ radioBle → Act.flush154 ∈ todo
  flushBle : fw.selectedRadio = radioBle → fw.ble.ready = true → Act.flushBle ∈ todo
  halted : Act.flushBle ∈ todo → Act.haltBle ∈ todo

theorem stopActs_ble (fw : Firmware) :
    stopActs fw radioBle =
      if fw.ble.ready then [.haltBle, .flushBle, .resetBle] else [.skipBle] := rfl

theorem stopActs_154 {fw : Firmware} {radio : UInt8} (h : radio ≠ radioBle) :
    stopActs fw radio = [.halt154, .flush154] := if_neg h

theorem plans_selected (fw : Firmware) {a : Act} (ha : a.isReply = true) :
    Plans fw (stopActs fw fw.selectedRadio ++ [a]) := by
  have hhalt : a ≠ .haltBle := by rintro rfl; cases ha
  have hflush : a ≠ .flushBle := by rintro rfl; cases ha
  by_cases hselected : fw.selectedRadio = radioBle
  · rw [hselected, stopActs_ble]
    cases hready : fw.ble.ready with
    | true => constructor <;> simp [Ordered, Act.isReply, hselected, hhalt.symm, hflush]
    | false => constructor <;> simp [Ordered, Act.isReply, hselected, hready, hflush, hflush.symm]
  · rw [stopActs_154 hselected]
    constructor <;> simp [Ordered, Act.isReply, hselected, hflush, hflush.symm]

theorem plans_both (fw : Firmware) {a : Act} (ha : a.isReply = true) :
    Plans fw (stopActs fw radio154 ++ stopActs fw radioBle ++ [a]) := by
  have hhalt : a ≠ .haltBle := by rintro rfl; cases ha
  have hflush : a ≠ .flushBle := by rintro rfl; cases ha
  rw [stopActs_154 (by decide), stopActs_ble]
  cases hready : fw.ble.ready with
  | true => constructor <;> simp [Ordered, Act.isReply, hhalt.symm, hflush]
  | false => constructor <;> simp [Ordered, Act.isReply, hready, hflush, hflush.symm]

theorem commandActs_plans {p : Platform} {fw : Firmware} {command : UInt8} {value : UInt32}
    {todo : List Act} (h : commandActs p fw command value = some todo) : Plans fw todo := by
  unfold commandActs at h
  split at h
  · cases h
    exact plans_selected fw rfl
  · cases h
    exact plans_both fw rfl
  · split at h
    · cases h
      exact plans_selected fw rfl
    · cases h
  · cases h

theorem frameActs_plans {p : Platform} {fw : Firmware} {type : FrameType} {payload : List UInt8}
    {todo : List Act} (h : frameActs p fw type payload = some todo) : Plans fw todo := by
  unfold frameActs at h
  split at h
  · exact commandActs_plans h
  · cases h

/-- A command is taken up. -/
theorem Inv.takeUp {fw : Firmware} {todo : List Act} {mark : Option Nat} (h : Inv fw [] mark)
    (hplans : Plans fw todo) : Inv fw todo mark where
  ready := h.ready
  half154 := h.half154.takeUp fun _ => hplans.flush154
  halfBle := h.halfBle.takeUp fun hrun hselected => hplans.flushBle hselected (h.ready hrun)
  halted _ := hplans.halted
  ordered := hplans.ordered
  ended := h.ended

/-! ## Acts -/

theorem snRadio154Stop_running (r : Radio) (h : (snRadio154Stop r).1.running = true) :
    r.running = true := by
  unfold snRadio154Stop at h
  cases hrun : r.running with
  | true => rfl
  | false => simp [hrun] at h

/-- A clean firmware with nothing in hand. -/
theorem Clean.inv {fw : Firmware} {mark : Option Nat} (h : Clean fw)
    (hover : ∀ n ∈ mark, Over fw n) : Inv fw [] mark where
  ready hrun := by rw [h.runningBle] at hrun; cases hrun
  half154 := .clean h.running154 h.batch
  halfBle := .clean h.runningBle h.bleBatch
  halted _ hflush := by cases hflush
  ordered := trivial
  ended := hover

/-- A capture that ends here is over. -/
theorem Clean.ended {fw : Firmware} (h : Clean fw) : Inv fw [] (some fw.outbox.frames.length) := by
  refine h.inv fun n hn => ?_
  cases hn
  exact ⟨h, Nat.le_refl _, by simp⟩

theorem Clean.freshSession {fw : Firmware} (h : Clean fw) : Clean (freshSession fw) := by
  have hreset : Clean (defaultSettings (resetCounters { fw with selectedRadio := radio154 })) :=
    ⟨h.running154, h.batch, h.runningBle, h.bleBatch⟩
  exact hreset.aside (setAntenna_aside _ _)

/-- A reply finds nothing else to do and both radios clean. -/
theorem Inv.last {fw : Firmware} {a : Act} {todo : List Act} {mark : Option Nat}
    (h : Inv fw (a :: todo) mark) (ha : a.isReply = true) : todo = [] ∧ Clean fw := by
  have hlast : todo = [] := h.ordered.1 ha
  subst hlast
  obtain ⟨hrun, hcount⟩ := h.half154.last (by rintro rfl; cases ha)
  obtain ⟨hrunBle, hcountBle⟩ := h.halfBle.last (by rintro rfl; cases ha)
  exact ⟨rfl, hrun, hcount, hrunBle, hcountBle⟩

/-- An act keeps the invariant. -/
theorem perform_inv {p : Platform} {s s' : State} {a : Act} {todo : List Act}
    (h : Inv s.fw (a :: todo) s.mark) (hprompt : a = .flush154 → s.fw.radio.running = false)
    (hs : perform p s a = some s') : Inv s'.fw todo s'.mark := by
  cases a with
  | halt154 =>
      cases hs
      have hhalted : Inv { s.fw with radio := (snRadio154Stop s.fw.radio).1 } (.halt154 :: todo)
          s.mark := by
        refine { h with half154 := h.half154.halted (snRadio154Stop_running s.fw.radio), ended := ?_ }
        intro n hn
        have hover := h.ended n hn
        refine hover.silent ⟨?_, hover.clean.batch, hover.clean.runningBle, hover.clean.bleBatch⟩ rfl
        cases hrun : (snRadio154Stop s.fw.radio).1.running with
        | false => rfl
        | true =>
            have hran := snRadio154Stop_running s.fw.radio hrun
            rw [hover.clean.running154] at hran
            cases hran
      exact hhalted.pop nofun nofun nofun
  | flush154 =>
      obtain ⟨fw, hflush, heq⟩ := Option.map_eq_some_iff.mp hs
      cases heq
      obtain ⟨batcher, outbox, rfl, hempty, hsilent⟩ := flushBatch_effect hflush
      exact (h.batchSent hempty hsilent).pop (fun _ => ⟨hprompt rfl, hempty⟩) nofun nofun
  | haltBle =>
      cases hs
      have hhalted : Inv { s.fw with ble := stopCapture s.fw.ble } (.haltBle :: todo) s.mark :=
        { h with
          ready := nofun
          halfBle := h.halfBle.halted nofun
          halted := nofun
          ended := fun n hn =>
            have hover := h.ended n hn
            hover.silent ⟨hover.clean.running154, hover.clean.batch, rfl, hover.clean.bleBatch⟩ rfl }
      exact hhalted.pop nofun nofun fun _ => rfl
  | flushBle =>
      obtain ⟨⟨ble, outbox⟩, hflush, heq⟩ := Option.map_eq_some_iff.mp hs
      cases heq
      have hsent := stopFlush_flushed hflush
      have hstopped : s.fw.ble.running = false := by
        cases hrun : s.fw.ble.running with
        | false => rfl
        | true =>
            rcases List.mem_cons.mp (h.halted hrun (List.mem_cons_self ..)) with heq | hmem
            · cases heq
            · exact absurd hmem (h.ordered.2.1 rfl)
      exact (h.bleSent hsent).pop nofun
        (fun _ => ⟨hsent.running.trans hstopped, hsent.empty⟩) nofun
  | resetBle =>
      cases hs
      have haside : Aside s.fw { s.fw with ble := freeSlots s.fw.ble } := .silent rfl
      exact (h.pop nofun nofun nofun).aside
        (haside.trans (.ofOnlyHci (sendCommand_onlyHci _ opReset [])))
  | skipBle =>
      cases hs
      exact h.pop nofun nofun nofun
  | replyStop command =>
      cases hs
      obtain ⟨rfl, hclean⟩ := h.last rfl
      exact (hclean.aside (reply_aside _ _ _ _ _)).ended
  | replyInfo command =>
      cases hs
      obtain ⟨rfl, hclean⟩ := h.last rfl
      exact (hclean.freshSession.aside (reply_aside _ _ _ _ _)).ended
  | replySelect command value =>
      cases hs
      obtain ⟨rfl, hclean⟩ := h.last rfl
      have hselected : Clean { s.fw with selectedRadio := value.toUInt8 } :=
        ⟨hclean.running154, hclean.batch, hclean.runningBle, hclean.bleBatch⟩
      have haside := reply_aside p { s.fw with selectedRadio := value.toUInt8 } command .ok value
      have hreplied := hselected.aside haside
      exact hreplied.inv fun n hn => (h.ended n hn).adds hreplied haside.adds

/-! ## Every step -/

theorem accept_inv {p : Platform} {s s' : State} {type : FrameType} {payload : List UInt8}
    (h : Inv s.fw [] s.mark) (hidle : s.todo = []) (hs : accept p s type payload = some s') :
    Inv s'.fw s'.todo s'.mark := by
  unfold accept at hs
  split at hs
  · rename_i todo hacts
    cases hs
    exact h.takeUp (frameActs_plans hacts)
  · rename_i hacts
    obtain ⟨fw, hhandled, heq⟩ := Option.map_eq_some_iff.mp hs
    cases heq
    show Inv fw s.todo _
    rw [hidle]
    exact handled_inv h hacts hhandled

/-- A packet that a batch is given in time. -/
theorem Inv.appended154 {fw : Firmware} {todo : List Act} {mark : Option Nat} {radio : Radio}
    {batcher : Batcher} {outbox : Outbox} (h : Inv fw todo mark)
    (hprompt : fw.radio.running = true ∨ Act.flush154 ∈ todo ∧ mark = none)
    (hrunning : radio.running = fw.radio.running) :
    Inv { fw with radio, batcher, outbox } todo mark where
  ready := h.ready
  half154 := by
    rw [hrunning]
    exact h.half154.recount (hprompt.imp_right And.left) _
  halfBle := h.halfBle
  halted := h.halted
  ordered := h.ordered
  ended n hn := by
    have hclean := (h.ended n hn).clean
    rcases hprompt with hrun | ⟨_, hmark⟩
    · rw [hclean.running154] at hrun
      cases hrun
    · rw [hmark] at hn
      cases hn

theorem Inv.appendedBle {fw : Firmware} {todo : List Act} {mark : Option Nat} {ble : BleRadio}
    {outbox : Outbox} (h : Inv fw todo mark)
    (hprompt : fw.ble.running = true ∨ Act.flushBle ∈ todo ∧ mark = none)
    (hflags : ble.running = fw.ble.running ∧ ble.ready = fw.ble.ready) :
    Inv { fw with ble, outbox } todo mark where
  ready := by rw [hflags.1, hflags.2]; exact h.ready
  half154 := h.half154
  halfBle := by
    rw [hflags.1]
    exact h.halfBle.recount (hprompt.imp_right And.left) _
  halted := by rw [hflags.1]; exact h.halted
  ordered := h.ordered
  ended n hn := by
    have hclean := (h.ended n hn).clean
    rcases hprompt with hrun | ⟨_, hmark⟩
    · rw [hclean.runningBle] at hrun
      cases hrun
    · rw [hmark] at hn
      cases hn

/-- Every step that meets the condition keeps the invariant. -/
theorem step_inv {p : Platform} {s s' : State} {l : Label} (h : Inv s.fw s.todo s.mark)
    (hprompt : Prompt s l) (hs : step p s l = some s') : Inv s'.fw s'.todo s'.mark := by
  cases l with
  | hostFrame type payload =>
      obtain ⟨hidle, hs⟩ := Option.ite_none_right_eq_some.mp hs
      rw [hidle] at h
      exact accept_inv h hidle hs
  | advance =>
      simp only [step, advance] at hs
      split at hs
      · cases hs
      · rename_i a todo htodo
        obtain ⟨s₁, hperform, heq⟩ := Option.map_eq_some_iff.mp hs
        cases heq
        rw [htodo] at h
        have hstopped : a = .flush154 → s.fw.radio.running = false :=
          fun hflush => hprompt (by rw [htodo, hflush]; rfl)
        have hinv := perform_inv h hstopped hperform
        exact hinv
  | deliver154 pkt =>
      obtain ⟨_, hs⟩ := Option.ite_none_right_eq_some.mp hs
      cases hs
      exact h
  | append154 =>
      obtain ⟨pkt, _, hs⟩ := Option.bind_eq_some_iff.mp hs
      obtain ⟨fw, happend, heq⟩ := Option.map_eq_some_iff.mp hs
      cases heq
      obtain ⟨⟨batcher, outbox⟩, _, heq⟩ := Option.map_eq_some_iff.mp happend
      cases heq
      exact h.appended154 hprompt rfl
  | linger154 =>
      obtain ⟨fw, hlinger, heq⟩ := Option.map_eq_some_iff.mp hs
      cases heq
      obtain ⟨⟨batcher, outbox⟩, hflush, heq⟩ := Option.map_eq_some_iff.mp hlinger
      cases heq
      exact h.batchSent (flushLocked_effect hflush).1 (flushLocked_effect hflush).2
  | deliverBle h4 data =>
      obtain ⟨_, hs⟩ := Option.ite_none_right_eq_some.mp hs
      obtain ⟨slot, _, heq⟩ := Option.map_eq_some_iff.mp hs
      cases heq
      exact h.aside (.silent rfl)
  | lookBle now =>
      simp only [step, lookBle] at hs
      split at hs
      · rename_i h4 data _
        obtain ⟨ble, hlook, hsame⟩ := beforeLock_spec s.fw.ble h4 data now
        rw [hlook, Option.map_some] at hs
        cases hs
        exact h.aside (.silent (by simp only [dataPath, hsame.batch, hsame.running, hsame.ready]))
      · cases hs
  | appendBle =>
      simp only [step, appendBle] at hs
      split at hs
      · obtain ⟨⟨ble, outbox⟩, happend, heq⟩ := Option.map_eq_some_iff.mp hs
        cases heq
        exact h.appendedBle hprompt (appendLocked_flags happend)
      · cases hs
  | lingerBle =>
      obtain ⟨fw, hlinger, heq⟩ := Option.map_eq_some_iff.mp hs
      cases heq
      obtain ⟨⟨ble, outbox⟩, hflush, heq⟩ := Option.map_eq_some_iff.mp hlinger
      cases heq
      exact h.bleSent (bleFlushLocked_flushed hflush)
  | background i =>
      obtain ⟨hi, hs⟩ := Option.ite_none_right_eq_some.mp hs
      obtain ⟨fw, hstep, heq⟩ := Option.map_eq_some_iff.mp hs
      cases heq
      exact h.aside (step_aside hi hstep)

/-- **A capture that has ended stays ended.** In every run whose steps all meet
`Prompt`, no frame handed over between the reply of a STOP or GET_INFO and the
next start of a radio carries a packet. -/
theorem ended_of_prompt {p : Platform} {w : World} {ls : List Label} {s : State}
    (hprompt : (machine p).RunMeets Prompt (initial w) ls)
    (hrun : (machine p).run (initial w) ls = some s) : Ended s := by
  have hinv : Inv s.fw s.todo s.mark :=
    (machine p).run_invariant_of (I := fun s => Inv s.fw s.todo s.mark)
      (fun _ _ _ => step_inv) (inv_initial w) hprompt hrun
  intro n hn
  exact (hinv.ended n hn).plain

/-! ## A packet that overtakes its stop -/

/-- A command with no value. -/
def plainCommand (id : UInt8) : Label := .hostFrame .controlCmd [id, 0, 0, 0, 0]

/-- START, and a packet past the tests of `net_recv_data` when STOP comes. -/
def caughtByStop : List Label := [plainCommand 2, .deliver154 (some oneByte), plainCommand 3]

/-- The packet is added between the end of `sn_radio154_stop` and the flush. -/
def addedInTime : List Label :=
  caughtByStop ++ [.advance, .append154, .advance, .advance, .linger154]

/-- It is added when the reply has been sent. -/
def addedLate : List Label :=
  caughtByStop ++ [.advance, .advance, .advance, .append154, .linger154]

theorem ended_of_prompt_in_time :
    ∃ s, (machine plainPlatform).run (initial calmWorld) addedInTime = some s ∧ Ended s := by
  obtain ⟨s, hs⟩ := Option.isSome_iff_exists.mp
    (show ((machine plainPlatform).run (initial calmWorld) addedInTime).isSome = true by
      decide +kernel)
  exact ⟨s, hs, ended_of_prompt (by decide +kernel) hs⟩

/-- **A late packet is sent.** Past the test of `running` when STOP clears it and
added after the flush, a packet is sent by the linger timer, after the reply. -/
theorem late_packet_sent :
    ¬ ∀ (p : Platform) (w : World) (ls : List Label) (s : State),
      (machine p).run (initial w) ls = some s → Ended s := by
  intro hall
  have hrun : ((machine plainPlatform).run (initial calmWorld) addedLate).map
      (fun s => decide (Ended s)) = some false := by decide +kernel
  obtain ⟨s, hs, hended⟩ := Option.map_eq_some_iff.mp hrun
  exact of_decide_eq_false hended (hall _ _ _ s hs)

/-! ## Whole calls -/

/-- Every thread is between two calls. -/
structure Idle (s : State) : Prop where
  held154 : s.held154 = none
  heldBle : s.heldBle = none
  todo : s.todo = []

/-- Acts one after another. -/
def performAll (p : Platform) (s : State) : List Act → Option State
  | [] => some s
  | a :: acts => (perform p s a).bind fun s => performAll p s acts

theorem performAll_append (p : Platform) (s : State) (as bs : List Act) :
    performAll p s (as ++ bs) = (performAll p s as).bind fun s => performAll p s bs := by
  induction as generalizing s with
  | nil => rfl
  | cons a as ih =>
      simp only [List.cons_append, performAll, Option.bind_assoc]
      exact congrArg _ (funext fun s' => ih s')

/-- An act does not look at the ones to come. -/
theorem perform_todo (p : Platform) (s : State) (todo : List Act) (a : Act) :
    perform p { s with todo } a = (perform p s a).map fun s => { s with todo } := by
  cases a with
  | flush154 => simp only [perform, Option.map_map]; rfl
  | flushBle => simp only [perform, Option.map_map]; rfl
  | halt154 | haltBle | resetBle | skipBle | replyStop | replyInfo | replySelect => rfl

/-- The control thread left to itself does what it has to do. -/
theorem run_advance (p : Platform) (s : State) (todo : List Act) :
    (machine p).run { s with todo } (List.replicate todo.length .advance) =
      (performAll p s todo).map fun s => { s with todo := [] } := by
  induction todo generalizing s with
  | nil => rfl
  | cons a todo ih =>
      have hstep : (machine p).step { s with todo := a :: todo } .advance =
          (perform p s a).map fun s => { s with todo } := by
        show (perform p { s with todo := a :: todo } a).map _ = _
        rw [perform_todo, Option.map_map]
        rfl
      rw [List.length_cons, List.replicate_succ, Machine.run_cons, hstep, performAll]
      cases perform p s a with
      | none => rfl
      | some s₁ => exact ih s₁

/-- The acts of `stop_radio`. -/
theorem performAll_stopActs (p : Platform) (s : State) (radio : UInt8) :
    performAll p s (stopActs s.fw radio) =
      (stopRadio s.fw radio).map fun (fw, err) => { s with fw, err } := by
  by_cases hradio : radio = radioBle
  · subst hradio
    rw [stopActs_ble]
    show _ = (stopBle s.fw).map _
    cases hready : s.fw.ble.ready with
    | false => simp [performAll, perform, stopBle, hready]
    | true =>
        simp only [if_true, performAll, perform, Option.bind_some, stopBle, hready, snRadioBleStop]
        cases stopFlush (stopCapture s.fw.ble) s.fw.outbox with
        | none => rfl
        | some r => rfl
  · rw [stopActs_154 hradio, stopRadio, if_neg hradio]
    simp only [performAll, perform, Option.bind_some, stop154]
    cases flushBatch { s.fw with radio := (snRadio154Stop s.fw.radio).1 } with
    | none => rfl
    | some fw => rfl

/-- The acts of a command come to the same as the whole call. -/
theorem performAll_command {p : Platform} {s : State} {command : UInt8} {value : UInt32}
    {todo : List Act} (h : commandActs p s.fw command value = some todo) :
    (performAll p s todo).map State.fw = onCommand p s.fw command value := by
  unfold commandActs at h
  unfold onCommand
  cases hcommand : p.command command with
  | stop =>
      simp only [hcommand, Option.some.injEq] at h ⊢
      rw [← h, performAll_append, performAll_stopActs, onStop]
      cases stopRadio s.fw s.fw.selectedRadio with
      | none => rfl
      | some r => rfl
  | getInfo =>
      simp only [hcommand, Option.some.injEq] at h ⊢
      rw [← h, performAll_append, performAll_append, performAll_stopActs, onGetInfo, stopBoth]
      cases hstop : stopRadio s.fw radio154 with
      | none => rfl
      | some r =>
          have hready : r.1.ble.ready = s.fw.ble.ready := by
            obtain ⟨fw, hflush, heq⟩ := Option.map_eq_some_iff.mp hstop
            obtain ⟨batcher, outbox, rfl, _⟩ := flushBatch_effect hflush
            cases heq
            rfl
          have hacts : stopActs s.fw radioBle = stopActs r.1 radioBle := by
            rw [stopActs_ble, stopActs_ble, hready]
          have hble := performAll_stopActs p { s with fw := r.1, err := r.2 } radioBle
          simp only [Option.map_some, Option.bind_some, hacts, hble]
          cases stopRadio r.1 radioBle with
          | none => rfl
          | some r' => rfl
  | setRadio =>
      simp only [hcommand] at h ⊢
      split at h
      · rename_i hleaves
        simp only [leavesRadio, Bool.and_eq_true, Bool.or_eq_true, beq_iff_eq, bne_iff_ne, ne_eq]
          at hleaves
        have hvalid : ¬(value ≠ radio154.toUInt32 ∧ value ≠ radioBle.toUInt32) := by
          rintro ⟨h154, hble⟩
          exact hleaves.1.elim h154 hble
        cases h
        rw [performAll_append, performAll_stopActs, onSetRadio, if_neg hvalid, if_pos hleaves.2]
        cases stopRadio s.fw s.fw.selectedRadio with
        | none => rfl
        | some r => rfl
      · cases h
  | setBlePhys | setBlePeriodic | setBleScan | setChannel | start | setAntenna | energyDetect
  | unknown => simp [hcommand] at h

theorem performAll_frame {p : Platform} {s : State} {type : FrameType} {payload : List UInt8}
    {todo : List Act} (h : frameActs p s.fw type payload = some todo) :
    (performAll p s todo).map State.fw = snControlHandle p s.fw type payload := by
  unfold frameActs at h
  split at h
  · exact performAll_command h
  · cases h

/-- The control thread leaves the other two where they are. -/
theorem perform_held {p : Platform} {s s' : State} {a : Act} (h : perform p s a = some s') :
    s'.held154 = s.held154 ∧ s'.heldBle = s.heldBle := by
  cases a with
  | flush154 =>
      obtain ⟨fw, _, heq⟩ := Option.map_eq_some_iff.mp h
      cases heq
      exact ⟨rfl, rfl⟩
  | flushBle =>
      obtain ⟨r, _, heq⟩ := Option.map_eq_some_iff.mp h
      cases heq
      exact ⟨rfl, rfl⟩
  | halt154 | haltBle | resetBle | skipBle | replyStop | replyInfo | replySelect =>
      cases h
      exact ⟨rfl, rfl⟩

theorem performAll_held {p : Platform} {s s' : State} {todo : List Act}
    (h : performAll p s todo = some s') : s'.held154 = s.held154 ∧ s'.heldBle = s.heldBle := by
  induction todo generalizing s with
  | nil => cases h; exact ⟨rfl, rfl⟩
  | cons a todo ih =>
      obtain ⟨s₁, hperform, hrest⟩ := Option.bind_eq_some_iff.mp h
      exact ⟨(ih hrest).1.trans (perform_held hperform).1,
        (ih hrest).2.trans (perform_held hperform).2⟩

/-- The steps of `s` reach an idle state with `fw`. -/
def Reaches (p : Platform) (s : State) (fw : Firmware) : Prop :=
  ∃ ls s', (machine p).run s ls = some s' ∧ Idle s' ∧ s'.fw = fw

theorem reaches_step {p : Platform} {s s' : State} {l : Label}
    (hs : (machine p).step s l = some s') (hidle : Idle s') : Reaches p s s'.fw :=
  ⟨[l], s', (machine p).run_cons_eq_some.mpr ⟨s', hs, rfl⟩, hidle, rfl⟩

/-- A frame of the host, with nobody in between. -/
theorem reaches_frame {p : Platform} {s : State} {fw : Firmware} {type : FrameType}
    {payload : List UInt8} (hidle : Idle s)
    (hs : snControlHandle p s.fw type payload = some fw) : Reaches p s fw := by
  cases hacts : frameActs p s.fw type payload with
  | none =>
      have hstep : (machine p).step s (.hostFrame type payload) =
          some (handled p s type payload fw) := by
        show (if s.todo = [] then accept p s type payload else none) = _
        rw [if_pos hidle.todo, accept, hacts]
        exact congrArg (Option.map _) hs
      exact reaches_step hstep ⟨hidle.held154, hidle.heldBle, hidle.todo⟩
  | some todo =>
      have hframe := performAll_frame hacts
      rw [hs] at hframe
      obtain ⟨s', hperform, rfl⟩ := Option.map_eq_some_iff.mp hframe
      have hheld := performAll_held hperform
      refine ⟨.hostFrame type payload :: List.replicate todo.length .advance, { s' with todo := [] },
        ?_, ⟨hheld.1.trans hidle.held154, hheld.2.trans hidle.heldBle, rfl⟩, rfl⟩
      have hstep : (machine p).step s (.hostFrame type payload) = some { s with todo } := by
        show (if s.todo = [] then accept p s type payload else none) = _
        rw [if_pos hidle.todo, accept, hacts]
      rw [Machine.run_cons, hstep, Option.bind_some, run_advance, hperform, Option.map_some]

/-- A packet through `net_recv_data`. -/
theorem reaches_received {p : Platform} {s : State} {fw : Firmware} {pkt : Option NetPkt}
    (hidle : Idle s) (hs : receive s.fw pkt = some fw) : Reaches p s fw := by
  have hdeliver : (machine p).step s (.deliver154 pkt) =
      some { s with held154 := admitted s.fw.radio pkt } := if_pos hidle.held154
  cases hadmitted : admitted s.fw.radio pkt with
  | none =>
      have hsame : fw = s.fw := by
        unfold receive netRecvData at hs
        cases pkt with
        | none => cases hs; rfl
        | some pkt =>
            by_cases hempty : pkt.psdu = []
            · simp only [hempty, if_true, Option.map_some, Option.some.injEq] at hs
              exact hs.symm
            · have htakes : s.fw.radio.takes = false := by
                simpa [admitted, Option.filter, hempty] using hadmitted
              simp only [hempty, htakes, if_false, Bool.not_false, if_true, Option.map_some,
                Option.some.injEq] at hs
              exact hs.symm
      rw [hadmitted] at hdeliver
      have hreaches := reaches_step hdeliver ⟨rfl, hidle.heldBle, hidle.todo⟩
      rw [hsame]
      exact hreaches
  | some taken =>
      obtain ⟨rfl, hempty, htakes⟩ : pkt = some taken ∧ taken.psdu ≠ [] ∧
          s.fw.radio.takes = true := by
        obtain ⟨hpkt, htest⟩ := Option.filter_eq_some_iff.mp hadmitted
        simp only [Bool.and_eq_true, bne_iff_ne, ne_eq] at htest
        exact ⟨hpkt, htest⟩
      have happend : append154 s.fw taken = some fw := by
        rw [← hs]
        simp only [receive, netRecvData, if_neg hempty, htakes, Bool.not_true, Bool.false_eq_true,
          if_false, Option.map_map, append154]
        rfl
      refine ⟨[.deliver154 (some taken), .append154], { s with fw, held154 := none }, ?_,
        ⟨rfl, hidle.heldBle, hidle.todo⟩, rfl⟩
      have hstep : (machine p).step { s with held154 := some taken } .append154 =
          some { s with fw, held154 := none } := by
        show (append154 s.fw taken).map _ = _
        rw [happend]
        rfl
      rw [Machine.run_cons, hdeliver, hadmitted, Option.bind_some, Machine.run_cons, hstep]
      rfl

/-- A packet through `fwd_loop`. -/
theorem reaches_hciPacket {p : Platform} {s : State} {fw : Firmware} {h4 : UInt8}
    {data : List UInt8} {now : Readings} (hidle : Idle s) (hlen : data.length ≤ 65534)
    (hs : fwdLoop s.fw h4 data now = some fw) : Reaches p s fw := by
  obtain ⟨slot, hslot, hs⟩ := Option.bind_eq_some_iff.mp hs
  have hdeliver : (machine p).step s (.deliverBle h4 data) = some { s with
      fw := { s.fw with slot }
      heldBle := if s.fw.ble.running && captures h4 data then some (.tested h4 data) else none } := by
    show (if s.heldBle = none ∧ data.length ≤ 65534 then deliverBle s h4 data else none) = _
    rw [if_pos ⟨hidle.heldBle, hlen⟩, deliverBle, hslot]
    rfl
  split at hs
  · rename_i htaken
    rw [if_pos htaken] at hdeliver
    obtain ⟨⟨ble, outbox⟩, hforward, heq⟩ := Option.map_eq_some_iff.mp hs
    obtain ⟨⟨looked, sized⟩, hlook, happend⟩ := Option.bind_eq_some_iff.mp hforward
    have happend : appendLocked looked s.fw.outbox sized = some (ble, outbox) := happend
    have hlooked : (machine p).step
        { s with fw := { s.fw with slot }, heldBle := some (.tested h4 data) } (.lookBle now) =
        some { s with fw := { s.fw with slot, ble := looked }, heldBle := some (.looked sized) } := by
      show (beforeLock s.fw.ble h4 data now).map _ = _
      rw [hlook]
      rfl
    have happended : (machine p).step
        { s with fw := { s.fw with slot, ble := looked }, heldBle := some (.looked sized) }
        .appendBle = some { s with fw, heldBle := none } := by
      show (appendLocked looked s.fw.outbox sized).map _ = _
      rw [happend, ← heq]
      rfl
    refine ⟨[.deliverBle h4 data, .lookBle now, .appendBle], { s with fw, heldBle := none }, ?_,
      ⟨hidle.held154, rfl, hidle.todo⟩, rfl⟩
    rw [Machine.run_cons, hdeliver, Option.bind_some, Machine.run_cons, hlooked, Option.bind_some,
      Machine.run_cons, happended]
    rfl
  · rename_i htaken
    rw [if_neg htaken] at hdeliver
    cases hs
    exact reaches_step hdeliver ⟨hidle.held154, rfl, hidle.todo⟩

theorem step_background {p : Platform} {s : State} {fw : Firmware} {i : Input}
    (hi : i.background = true) (hs : Board.step p s.fw i = some fw) :
    (machine p).step s (.background i) = some { s with fw } := by
  show (if i.background then (Board.step p s.fw i).map _ else none) = _
  rw [if_pos hi, hs]
  rfl

/-- An input of the machine of whole calls is a stretch of steps with nobody
in between. -/
theorem reaches_board {p : Platform} {s : State} {fw : Firmware} {i : Input} (hidle : Idle s)
    (hs : Board.step p s.fw i = some fw) : Reaches p s fw := by
  cases i with
  | hostFrame type payload => exact reaches_frame hidle hs
  | received pkt => exact reaches_received hidle hs
  | hciPacket h4 data now =>
      obtain ⟨hlen, hs⟩ := Option.ite_none_right_eq_some.mp hs
      exact reaches_hciPacket hidle hlen hs
  | batchLinger =>
      have hstep : (machine p).step s .linger154 = some { s with fw } :=
        congrArg (Option.map _) hs
      exact reaches_step hstep ⟨hidle.held154, hidle.heldBle, hidle.todo⟩
  | bleLinger =>
      have hstep : (machine p).step s .lingerBle = some { s with fw } :=
        congrArg (Option.map _) hs
      exact reaches_step hstep ⟨hidle.held154, hidle.heldBle, hidle.todo⟩
  | radioEvent | syncWork | bigWork | isoPathWork | statsRead | linkRead | tickSend | log =>
      exact reaches_step (step_background rfl hs) ⟨hidle.held154, hidle.heldBle, hidle.todo⟩

/-- **The whole calls are runs of the threads.** Every run of the machine of
whole calls is one of this machine, in which nobody interrupts a call. -/
theorem reaches_run {p : Platform} {s : State} {fw : Firmware} {inputs : List Input}
    (hidle : Idle s) (hrun : (Board.machine p).run s.fw inputs = some fw) : Reaches p s fw := by
  induction inputs generalizing s with
  | nil =>
      cases hrun
      exact ⟨[], s, rfl, hidle, rfl⟩
  | cons i inputs ih =>
      obtain ⟨fw₁, hstep, hrest⟩ := (Board.machine p).run_cons_eq_some.mp hrun
      obtain ⟨ls₁, s₁, hrun₁, hidle₁, rfl⟩ := reaches_board hidle hstep
      obtain ⟨ls₂, s₂, hrun₂, hidle₂, hfw⟩ := ih hidle₁ hrest
      refine ⟨ls₁ ++ ls₂, s₂, ?_, hidle₂, hfw⟩
      rw [Machine.run_append, hrun₁, Option.bind_some, hrun₂]

end Nrf54Sniffer.Board.Stop
