/-
Nrf54Sniffer.Board.FilterApplied — the filter the host sent, in the controller.

BLE_FILTER replaces the stored table, and nothing else touches it
(`KeepsTables`), so after any run it holds the first eight whole entries of the
last payload. START hands the table over and picks its policy from the count.
That is the filter asked for where the payload is empty, or has a whole entry
and none that is only past the eighth. A payload of one to six bytes has no
whole entry: the scan then accepts everyone (`short_filter_accepts_all`).
-/
import Nrf54Sniffer.Board.Moves
import Nrf54Sniffer.Control.ScanTiming

namespace Nrf54Sniffer.Board

open Nrf54Sniffer.Lib
open Nrf54Sniffer.Wire
open Nrf54Sniffer.Radio154
open Nrf54Sniffer.Ble
open Nrf54Sniffer.Control

/-! ## What was asked for -/

/-- The whole entries of a BLE_FILTER payload. -/
def wholeEntries (payload : List UInt8) : List (List UInt8) :=
  (List.range (payload.length / filterEntry)).map fun i =>
    (payload.drop (filterEntry * i)).take filterEntry

/-- A BLE_FILTER frame replaces what was asked for. -/
def noteFilter (asked : List UInt8) : Input → List UInt8
  | .hostFrame .bleFilter payload => payload
  | _ => asked

/-- The last BLE_FILTER payload, empty where there was none. -/
def askedFilter (inputs : List Input) : List UInt8 := inputs.foldl noteFilter []

/-- A controller told to accept everyone was told so, and one that was given
addresses has them all. -/
structure FilterApplied (asked : List UInt8) (c : Controller) : Prop where
  policy : c.scan.map Scan.filterPolicy = some 0x00 → asked = []
  listed : ∀ entry ∈ wholeEntries asked, entry ∈ c.acceptList

/-- The payload is empty, or has a whole entry and none that is only past the
eighth. -/
def FilterFits (asked : List UInt8) : Prop :=
  asked = [] ∨ (wholeEntries asked ≠ [] ∧
    ∀ entry ∈ wholeEntries asked, entry ∈ (wholeEntries asked).take maxFilter)

/-! ## The stored table -/

theorem wholeEntries_short {payload : List UInt8} (h : payload.length < filterEntry) :
    wholeEntries payload = [] := by
  rw [wholeEntries, Nat.div_eq_of_lt h]
  rfl

theorem wholeEntries_long {payload : List UInt8} (h : filterEntry ≤ payload.length) :
    wholeEntries payload
      = payload.take filterEntry :: wholeEntries (payload.drop filterEntry) := by
  have hcount : payload.length / filterEntry = (payload.length - filterEntry) / filterEntry + 1 :=
    Nat.div_eq_sub_div (by decide) h
  unfold wholeEntries
  rw [hcount, List.range_succ_eq_map, List.map_cons, List.map_map, List.length_drop]
  refine congrArg (payload.take filterEntry :: ·) (List.map_congr_left fun i _ => ?_)
  simp only [Function.comp_apply, List.drop_drop]
  congr 2
  rw [Nat.mul_succ, Nat.add_comm]

/-- The loop stores the whole entries there is room for. -/
theorem storeFilter_eq (room : Nat) (payload : List UInt8) :
    storeFilter room payload = (wholeEntries payload).take room := by
  induction room generalizing payload with
  | zero => rfl
  | succ room ih =>
      unfold storeFilter takeExact
      split
      · rename_i entry rest hsome
        split at hsome
        · rename_i hlong
          cases hsome
          rw [ih, wholeEntries_long hlong, List.take_succ_cons]
        · cases hsome
      · rename_i hnone
        split at hnone
        · cases hnone
        · rename_i hshort
          rw [wholeEntries_short (Nat.lt_of_not_le hshort)]
          rfl

/-! ## Along a run -/

/-- The filter stays, and the keys stay or go. -/
structure KeepsTables (fw fw' : Firmware) : Prop where
  filter : fw'.ble.filter = fw.ble.filter
  keys : fw'.ble.keyCount = fw.ble.keyCount ∨ fw'.ble.keyCount = 0

theorem KeepsTables.refl (fw : Firmware) : KeepsTables fw fw := ⟨rfl, .inl rfl⟩

theorem KeepsTables.trans {fw fw' fw'' : Firmware} (h : KeepsTables fw fw')
    (h' : KeepsTables fw' fw'') : KeepsTables fw fw'' := by
  refine ⟨h'.filter.trans h.filter, ?_⟩
  rcases h'.keys with hsame | hgone
  · rw [hsame]
    exact h.keys
  · exact .inr hgone

theorem KeepsTables.onlyHci {fw fw' : Firmware} (h : OnlyHci fw fw') : KeepsTables fw fw' :=
  ⟨h.tables.1, .inl h.tables.2.2⟩

theorem Move.keepsTables {E : Radio → UInt8 → UInt32 → Prop} {fw fw' : Firmware}
    (h : Move E fw fw') : KeepsTables fw fw' := by
  cases h with
  | radio _ => exact ⟨rfl, .inl rfl⟩
  | selected _ => exact ⟨rfl, .inl rfl⟩
  | phys _ => exact ⟨rfl, .inl rfl⟩
  | timing _ _ => exact ⟨rfl, .inl rfl⟩
  | periodic _ => exact ⟨rfl, .inl rfl⟩
  | antenna _ => exact ⟨rfl, .inl rfl⟩
  | counters => exact ⟨rfl, .inl rfl⟩
  | hci h => exact .onlyHci h
  | scan => exact ⟨rfl, .inl rfl⟩
  | flush h =>
      obtain ⟨_, _, rfl, _⟩ := flushBatch_effect h
      exact ⟨rfl, .inl rfl⟩
  | stopBle h =>
      obtain ⟨_, _, heq, _⟩ := stopFlush_effect h
      refine ⟨?_, .inr ?_⟩
      · simp only [flushedStop, freeSlots, heq]
        rfl
      · simp only [flushedStop, freeSlots, heq]
        rfl

theorem Turn.keepsTables {fw fw' : Firmware} (h : Turn fw fw') : KeepsTables fw fw' := by
  cases h with
  | receive h =>
      obtain ⟨_, _, _, rfl, _⟩ := receive_effect h
      exact ⟨rfl, .inl rfl⟩
  | packet h =>
      obtain ⟨_, _, _, _, _, rfl, _⟩ := fwdLoop_effect h
      exact ⟨rfl, .inl rfl⟩
  | batchLinger h =>
      obtain ⟨_, _, rfl, _⟩ := batchLinger_effect h
      exact ⟨rfl, .inl rfl⟩
  | bleLinger h =>
      obtain ⟨_, _, _, rfl, _⟩ := bleLinger_effect h
      exact ⟨rfl, .inl rfl⟩
  | radioEvent _ => exact ⟨rfl, .inl rfl⟩
  | hci h => exact .onlyHci h
  | follow _ => exact ⟨rfl, .inl rfl⟩
  | tick _ => exact ⟨rfl, .inl rfl⟩
  | send _ _ => exact ⟨rfl, .inl rfl⟩

/-- A BLE_KEYS frame leaves the filter, and never more keys than the table
holds. -/
theorem snRadioBleSetKeys_tables {fw fw' : Firmware} {payload : List UInt8} {err : Int}
    (h : snRadioBleSetKeys fw payload = some (fw', err)) :
    fw'.ble.filter = fw.ble.filter ∧
      (fw'.ble.keyCount = fw.ble.keyCount ∨ fw'.ble.keyCount ≤ maxKeys) := by
  obtain ⟨line, rfl⟩ | ⟨keys, keyCount, hfits, rfl⟩ := snRadioBleSetKeys_cases h
  · exact ⟨rfl, .inl rfl⟩
  · exact ⟨rfl, .inr hfits⟩

/-- The table holds what was asked for, cut to its room, and the keys fit
theirs. -/
structure TablesHold (asked : List UInt8) (fw : Firmware) : Prop where
  filter : fw.ble.filter = (wholeEntries asked).take maxFilter
  keys : fw.ble.keyCount ≤ maxKeys

theorem TablesHold.kept {asked : List UInt8} {fw fw' : Firmware} (h : TablesHold asked fw)
    (hkept : KeepsTables fw fw') : TablesHold asked fw' := by
  refine ⟨hkept.filter.trans h.filter, ?_⟩
  rcases hkept.keys with hsame | hgone
  · rw [hsame]
    exact h.keys
  · rw [hgone]
    exact Nat.zero_le _

theorem tablesHold_step {p : Platform} {asked : List UInt8} {fw fw' : Firmware} {i : Input}
    (h : TablesHold asked fw) (hstep : step p fw i = some fw') :
    TablesHold (noteFilter asked i) fw' := by
  cases i with
  | hostFrame type payload =>
      cases snControlHandle_handled hstep with
      | filter payload => exact ⟨storeFilter_eq maxFilter payload, h.keys⟩
      | keys hset =>
          obtain ⟨hfilter, hcount⟩ := snRadioBleSetKeys_tables hset
          refine ⟨hfilter.trans h.filter, ?_⟩
          rcases hcount with hsame | hle
          · rw [hsame]
            exact h.keys
          · exact hle
      | command hcommand =>
          obtain ⟨fw₁, status, value, hmoves, rfl⟩ :=
            onCommand_replied (E := fun _ _ _ => True) (fun _ _ => trivial) hcommand
          have hkept := row_keeps KeepsTables.refl KeepsTables.trans Move.keepsTables hmoves
          exact h.kept ⟨hkept.filter, hkept.keys⟩
      | ignored hfilter _ _ =>
          have hsame : noteFilter asked (.hostFrame type payload) = asked := by
            unfold noteFilter
            split
            · rename_i heq
              cases heq
              exact absurd rfl hfilter
            · rfl
          rw [hsame]
          exact h
  | _ =>
      refine h.kept (row_keeps KeepsTables.refl KeepsTables.trans Turn.keepsTables
        (step_turns (fun _ _ heq => ?_) hstep))
      cases heq

theorem tablesHold_run {p : Platform} {asked : List UInt8} {fw fw' : Firmware}
    {inputs : List Input} (h : TablesHold asked fw)
    (hrun : (machine p).run fw inputs = some fw') :
    TablesHold (inputs.foldl noteFilter asked) fw' := by
  induction inputs generalizing asked fw with
  | nil =>
      cases hrun
      exact h
  | cons i inputs ih =>
      obtain ⟨fw₁, hstep, hrest⟩ := (machine p).run_cons_eq_some.mp hrun
      exact ih (tablesHold_step h hstep) hrest

theorem tablesHold_boot (w : World) : TablesHold [] (boot w) := ⟨rfl, Nat.zero_le _⟩

/-! ## START -/

/-- The scan a table starts. -/
theorem filterApplied_scanningFor_iff (asked : List UInt8) (entries : List (List UInt8))
    (phys : UInt8) (interval window : Nat) :
    FilterApplied asked
        (scanningFor ((wholeEntries asked).take maxFilter) entries phys interval window) ↔
      FilterFits asked := by
  have hempty : ((wholeEntries asked).take maxFilter).isEmpty = true ↔ wholeEntries asked = [] := by
    rw [List.isEmpty_iff, List.take_eq_nil_iff]
    simp [maxFilter]
  constructor
  · rintro ⟨hpolicy, hlisted⟩
    by_cases hnone : wholeEntries asked = []
    · refine .inl (hpolicy ?_)
      simp only [scanningFor, hempty.mpr hnone, Option.map_some, if_true]
    · exact .inr ⟨hnone, hlisted⟩
  · rintro (rfl | ⟨hsome, hlisted⟩)
    · exact ⟨fun _ => rfl, fun entry hentry => by cases hentry⟩
    · refine ⟨fun hpolicy => ?_, hlisted⟩
      simp only [scanningFor, Option.map_some, hempty, if_neg hsome, Option.some.injEq] at hpolicy
      exact absurd hpolicy (by decide)

/-- A START of BLE that is answered OK has sent its whole script, each command
accepted. -/
theorem start_answered_ok {p : Platform} (hp : StatusesDiffer p) {fw fw' : Firmware}
    (hselected : fw.selectedRadio = radioBle) {start b0 b1 b2 b3 : UInt8} {rest : List UInt8}
    (hstart : p.command start = .start)
    (hstep : snControlHandle p fw .controlCmd (start :: b0 :: b1 :: b2 :: b3 :: rest) = some fw')
    (hok : Answers p fw' start .ok) :
    ∃ sent, fw'.hci.log = fw.hci.log ++ sent ∧ (∀ x ∈ sent, x.2.accepted = true) ∧
      sent.map Prod.fst = startScript fw.ble fw.bleIntervalMs fw.bleWindowMs fw.blePhys := by
  simp only [snControlHandle, onCommand, hstart, onStart, if_pos hselected, Option.some.injEq]
    at hstep
  subst hstep
  have hstatus := (answers_reply_iff hp _ _ _ _ _).mp hok
  have hzero : (snRadioBleStart fw fw.bleIntervalMs fw.bleWindowMs fw.blePhys).2 = 0 := by
    have herr : (startBle fw).2 = 0 := by
      unfold okOrFailed at hstatus
      split at hstatus
      · assumption
      · cases hstatus
    exact herr
  have hready : fw.ble.ready = true := by
    cases hready : fw.ble.ready with
    | true => rfl
    | false => simp [snRadioBleStart, hready, eNoDev] at hzero
  have hall := (snRadioBleStart_ok_iff hready fw.bleIntervalMs fw.bleWindowMs fw.blePhys).mp hzero
  have hlog := congrArg HciBus.log
    (snRadioBleStart_hci hready fw.bleIntervalMs fw.bleWindowMs fw.blePhys)
  refine ⟨_, ?_, hall, issued_fst_of_all_ok hall⟩
  show (startBle fw).1.hci.log = _
  rw [startBle_hci]
  exact hlog

/-- **A filter that was asked for is applied**, after every run and for every
START answered OK, whatever the controller held before: exactly where the last
payload is empty, or has a whole entry and none that is only past the
eighth. -/
theorem filter_applied_iff {p : Platform} (hp : StatusesDiffer p) {w : World}
    {inputs : List Input} {fw fw' : Firmware}
    (hrun : (machine p).run (boot w) inputs = some fw) (hselected : fw.selectedRadio = radioBle)
    {start b0 b1 b2 b3 : UInt8} {rest : List UInt8} (hstart : p.command start = .start)
    (hstep : snControlHandle p fw .controlCmd (start :: b0 :: b1 :: b2 :: b3 :: rest) = some fw')
    (hok : Answers p fw' start .ok) :
    ∃ sent, fw'.hci.log = fw.hci.log ++ sent ∧ (∀ x ∈ sent, x.2.accepted = true) ∧
      ∀ c : Controller,
        (execAll c (sent.map Prod.fst)).scanning = true ∧
        (FilterApplied (askedFilter inputs) (execAll c (sent.map Prod.fst)) ↔
          FilterFits (askedFilter inputs)) := by
  obtain ⟨sent, hlog, haccepted, hscript⟩ := start_answered_ok hp hselected hstart hstep hok
  have hholds : TablesHold (askedFilter inputs) fw := tablesHold_run (tablesHold_boot w) hrun
  refine ⟨sent, hlog, haccepted, fun c => ?_⟩
  rw [hscript, execAll_startScript hholds.keys, hholds.filter]
  exact ⟨rfl, filterApplied_scanningFor_iff _ _ _ _ _⟩

/-- SET_RADIO to BLE. -/
def selectBleFrame : List UInt8 := [4, 2, 0, 0, 0]

/-- A filter of one address and a byte left over. -/
def oneAddress : List UInt8 := [0, 1, 2, 3, 4, 5, 6, 7]

theorem filter_applied_iff_one_address :
    ∃ fw fw' sent, (machine fullPlatform).run (boot calmWorld)
        [.hostFrame .controlCmd selectBleFrame, .hostFrame .bleFilter oneAddress] = some fw ∧
      snControlHandle fullPlatform fw .controlCmd [2, 0, 0, 0, 0] = some fw' ∧
      fw'.hci.log = fw.hci.log ++ sent ∧
      FilterApplied oneAddress (execAll {} (sent.map Prod.fst)) := by
  have hruns : (((machine fullPlatform).run (boot calmWorld)
      [.hostFrame .controlCmd selectBleFrame, .hostFrame .bleFilter oneAddress]).any fun fw =>
        fw.selectedRadio == radioBle &&
        (snControlHandle fullPlatform fw .controlCmd [2, 0, 0, 0, 0]).any fun fw' =>
          fw'.outbox.log.getLast? ==
            some (⟨.controlReply, replyPayload fullPlatform 2 .ok 0⟩, .sent 16)) = true := by
    decide +kernel
  obtain ⟨fw, hrun, hfacts⟩ := (Option.any_eq_true _ _).mp hruns
  obtain ⟨hselected, hanswer⟩ := Bool.and_eq_true_iff.mp hfacts
  obtain ⟨fw', hstep, hreply⟩ := (Option.any_eq_true _ _).mp hanswer
  have hok : Answers fullPlatform fw' 2 .ok := ⟨0, _, beq_iff_eq.mp hreply⟩
  obtain ⟨sent, hlog, _, happlied⟩ := filter_applied_iff statusesDiffer_fullPlatform hrun
    (beq_iff_eq.mp hselected) rfl hstep hok
  refine ⟨fw, fw', sent, hrun, hstep, hlog, (happlied {}).2.mpr (.inr ?_)⟩
  decide

/-- **A filter that lets everyone through.** A BLE_FILTER of three bytes holds
no whole entry: the START that follows is answered OK and accepts everyone. -/
theorem short_filter_accepts_all :
    ∃ fw, (machine fullPlatform).run (boot calmWorld)
        [.hostFrame .controlCmd selectBleFrame, .hostFrame .bleFilter [0, 1, 2],
         .hostFrame .controlCmd [2, 0, 0, 0, 0]] = some fw ∧
      Answers fullPlatform fw 2 .ok ∧
      (execAll {} (fw.hci.log.map Prod.fst)).scan.map Scan.filterPolicy = some 0x00 ∧
      ¬FilterApplied [0, 1, 2] (execAll {} (fw.hci.log.map Prod.fst)) := by
  have hruns : (((machine fullPlatform).run (boot calmWorld)
      [.hostFrame .controlCmd selectBleFrame, .hostFrame .bleFilter [0, 1, 2],
       .hostFrame .controlCmd [2, 0, 0, 0, 0]]).any fun fw =>
        fw.outbox.log.getLast? ==
            some (⟨.controlReply, replyPayload fullPlatform 2 .ok 0⟩, .sent 16) &&
          (execAll {} (fw.hci.log.map Prod.fst)).scan.map Scan.filterPolicy == some 0x00) = true := by
    decide +kernel
  obtain ⟨fw, hrun, hfacts⟩ := (Option.any_eq_true _ _).mp hruns
  obtain ⟨hreply, hpolicy⟩ := Bool.and_eq_true_iff.mp hfacts
  have hpolicy := beq_iff_eq.mp hpolicy
  refine ⟨fw, hrun, ⟨0, _, beq_iff_eq.mp hreply⟩, hpolicy, fun happlied => ?_⟩
  cases happlied.policy hpolicy

end Nrf54Sniffer.Board
