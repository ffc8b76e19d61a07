/-
Nrf54Sniffer.Ble.ControllerTheorems — what a START leaves in the controller.

The script is executed a part at a time: the setup, the resolving list, the
accept list, the scan. Each key is added and put into device mode, and doing so
leaves the keys before it in device mode (`execAll_keyCommands`). What comes
out is `scanningFor` the stored filter and keys, with an interval and a window
cut to sixteen bits: what was requested, up to an interval of 40959 ms.
-/
import Nrf54Sniffer.Ble.Controller
import Nrf54Sniffer.Board.Machine

namespace Nrf54Sniffer.Ble

open Nrf54Sniffer.Lib
open Nrf54Sniffer.Wire
open Nrf54Sniffer.Board

theorem execAll_append (c : Controller) (cs ds : List HciCommand) :
    execAll c (cs ++ ds) = execAll (execAll c cs) ds := by
  simp [execAll, List.foldl_append]

/-! ## The resolving list -/

/-- A key in the list, in device mode. -/
def deviceEntry (entry : List UInt8) : Resolving where
  entry
  localIrk := List.replicate 16 0
  mode := .device

theorem setPrivacyMode_device {key : List UInt8} (hlen : 7 ≤ key.length) (r : Resolving) :
    setPrivacyMode (key.take 7 ++ [0x01]) r
      = if r.entry.take 7 = key.take 7 then { r with mode := .device } else r := by
  have hseven : (key.take 7).length = 7 := by simp [hlen]
  simp [setPrivacyMode, List.take_left' hseven, List.drop_left' hseven]

/-- What is in device mode stays there. -/
theorem setPrivacyMode_deviceEntry {key : List UInt8} (hlen : 7 ≤ key.length)
    (entry : List UInt8) :
    setPrivacyMode (key.take 7 ++ [0x01]) (deviceEntry entry) = deviceEntry entry := by
  rw [setPrivacyMode_device hlen]
  split
  · rfl
  · rfl

/-- One key: added, then put into device mode. -/
theorem execAll_keyCommands {c : Controller} {keys : List (List UInt8)} {key : List UInt8}
    (hc : c.resolvingList = keys.map deviceEntry) (hlen : key.length = keyEntry) :
    execAll c (keyCommands key) = { c with resolvingList := (keys ++ [key]).map deviceEntry } := by
  have hseven : 7 ≤ key.length := by
    rw [hlen]
    decide
  have hadd : ({ entry := (key ++ List.replicate 16 0).take keyEntry
                 localIrk := (key ++ List.replicate 16 0).drop keyEntry } : Resolving)
      = { entry := key, localIrk := List.replicate 16 0 } := by
    simp [List.take_left' hlen, List.drop_left' hlen]
  have hkept : (keys.map deviceEntry).map (setPrivacyMode (key.take 7 ++ [0x01]))
      = keys.map deviceEntry := by
    rw [List.map_map]
    apply List.map_congr_left
    intro entry _
    exact setPrivacyMode_deviceEntry hseven entry
  have hnew : setPrivacyMode (key.take 7 ++ [0x01]) { entry := key, localIrk := List.replicate 16 0 }
      = deviceEntry key := by
    rw [setPrivacyMode_device hseven, if_pos rfl]
    rfl
  show ({ c with resolvingList := (c.resolvingList ++ [_]).map _ } : Controller) = _
  rw [hadd, hc, List.map_append, hkept, List.map_singleton, hnew, List.map_append]
  rfl

theorem execAll_keys {c : Controller} {keys new : List (List UInt8)}
    (hc : c.resolvingList = keys.map deviceEntry) (hlen : ∀ key ∈ new, key.length = keyEntry) :
    execAll c (new.flatMap keyCommands)
      = { c with resolvingList := (keys ++ new).map deviceEntry } := by
  induction new generalizing c keys with
  | nil =>
      rw [List.append_nil, ← hc]
      rfl
  | cons key new ih =>
      obtain ⟨hkey, hnew⟩ := List.forall_mem_cons.mp hlen
      rw [List.flatMap_cons, execAll_append, execAll_keyCommands hc hkey, ih rfl hnew]
      simp

/-- The stored keys. -/
def keyEntries (s : BleRadio) : List (List UInt8) := (List.range s.keyCount).map (keyAt s)

theorem keyEntries_length {s : BleRadio} (hcount : s.keyCount ≤ maxKeys) :
    ∀ key ∈ keyEntries s, key.length = keyEntry := by
  intro key hkey
  obtain ⟨i, hi, rfl⟩ := List.mem_map.mp hkey
  have hi : i < s.keyCount := List.mem_range.mp hi
  have hsize := s.keys.size_eq
  simp only [keyAt, List.length_take, List.length_drop, hsize]
  simp only [maxKeys, keyEntry] at *
  omega

theorem execAll_keyScript {c : Controller} {s : BleRadio} (hcount : s.keyCount ≤ maxKeys) :
    execAll c (keyScript s)
      = { c with
          resolvingList := (keyEntries s).map deviceEntry
          addressResolution := !(keyEntries s).isEmpty } := by
  have hcommands : (List.range s.keyCount).flatMap (fun i => keyCommands (keyAt s i))
      = (keyEntries s).flatMap keyCommands := by
    rw [keyEntries, List.flatMap_map]
  have hkeys : execAll { c with addressResolution := false, resolvingList := [] }
      ((keyEntries s).flatMap keyCommands)
      = { c with
          addressResolution := false, resolvingList := (keyEntries s).map deviceEntry } :=
    @execAll_keys _ [] _ rfl (keyEntries_length hcount)
  unfold keyScript
  rw [execAll_append, execAll_append, hcommands]
  show execAll (execAll { c with addressResolution := false, resolvingList := [] } _) _ = _
  rw [hkeys]
  cases hn : s.keyCount with
  | zero =>
      have hnone : keyEntries s = [] := by simp [keyEntries, hn]
      rw [hnone]
      rfl
  | succ n =>
      have hsome : (keyEntries s).isEmpty = false := by simp [keyEntries, hn]
      rw [hsome]
      rfl

/-! ## The accept list -/

theorem execAll_accepts (c : Controller) (filter : List (List UInt8)) :
    execAll c (filter.map fun entry => ⟨opLeAddDevToFal, entry⟩)
      = { c with acceptList := c.acceptList ++ filter } := by
  induction filter generalizing c with
  | nil => simp [execAll]
  | cons entry filter ih =>
      show execAll { c with acceptList := c.acceptList ++ [entry] } _ = _
      rw [ih]
      simp

theorem execAll_filterScript {c : Controller} {s : BleRadio} (hcount : s.keyCount ≤ maxKeys) :
    execAll c (filterScript s)
      = { c with
          resolvingList := (keyEntries s).map deviceEntry
          addressResolution := !(keyEntries s).isEmpty
          acceptList := s.filter } := by
  unfold filterScript
  rw [execAll_append, execAll_append, execAll_keyScript hcount, execAll_accepts]
  rfl

/-! ## The scan -/

theorem phyScan_putLe16 (interval window : UInt16) :
    phyScan scanTypePassive (interval &&& 0xFF).toUInt8 (interval >>> 8).toUInt8
        (window &&& 0xFF).toUInt8 (window >>> 8).toUInt8
      = { passive := true, interval := interval.toNat, window := window.toNat } := by
  simp only [phyScan, getLe16_putLe16, beq_self_eq_true]

/-- One block for each PHY asked for, all alike. -/
theorem phyScans_blocks (asked : Nat → Prop) [DecidablePred asked] (interval window : UInt16)
    (bits : List Nat) :
    phyScans (bits.flatMap fun bit =>
        if asked bit then [] else [scanTypePassive] ++ putLe16 interval ++ putLe16 window)
      = List.replicate (bits.filter fun bit => ¬ asked bit).length
          { passive := true, interval := interval.toNat, window := window.toNat } := by
  induction bits with
  | nil => rfl
  | cons bit bits ih =>
      by_cases h : asked bit
      · simpa [h] using ih
      · have hblock : ∀ rest, phyScans ([scanTypePassive] ++ putLe16 interval ++ putLe16 window ++ rest)
            = { passive := true, interval := interval.toNat, window := window.toNat }
                :: phyScans rest := by
          intro rest
          rw [← phyScan_putLe16]
          rfl
        rw [List.flatMap_cons, if_neg h, hblock, ih]
        simp [h, List.replicate_succ]

theorem filterPolicy_eq (s : BleRadio) :
    filterPolicy s = if s.filter.isEmpty then 0x00 else 0x01 := by
  unfold filterPolicy
  cases s.filter with
  | nil => rfl
  | cons entry filter => simp

/-- What the scan commands leave. -/
theorem execAll_scanScript (c : Controller) (s : BleRadio) (phys : UInt8)
    (interval window : UInt16) :
    execAll c (scanScript s phys interval window)
      = { c with
          scan := some
            { ownAddress := ownAddrRandom
              filterPolicy := filterPolicy s
              phys
              each := List.replicate (phyCount phys)
                { passive := true, interval := interval.toNat, window := window.toNat } }
          scanning := true
          filterDuplicates := false } := by
  unfold scanScript phyCount
  split
  · rename_i hlegacy
    rw [← phyScan_putLe16, hlegacy]
    rfl
  · rw [← phyScans_blocks]
    rfl

/-! ## START -/

theorem execAll_startScript {c : Controller} {s : BleRadio} (hcount : s.keyCount ≤ maxKeys)
    (intervalMs windowMs : UInt16) (phys : UInt8) :
    execAll c (startScript s intervalMs windowMs phys)
      = scanningFor s.filter (keyEntries s) phys (unitsPerMs (scanInterval intervalMs)).toNat
          (unitsPerMs (scanWindow (scanInterval intervalMs) windowMs)).toNat := by
  unfold startScript setupScript
  rw [execAll_append, execAll_append, execAll_filterScript hcount, execAll_scanScript,
    filterPolicy_eq]
  rfl

/-! ## The units -/

/-- An interval or window as the controller gets it: sixteen bits. -/
theorem unitsPerMs_toNat (ms : UInt16) : (unitsPerMs ms).toNat = scanUnits ms % 65536 := by
  have hms : ms.toNat < 65536 := UInt16.toNat_lt ms
  have hprod : ms.toNat * 1000 % 4294967296 = ms.toNat * 1000 := Nat.mod_eq_of_lt (by omega)
  simp [unitsPerMs, scanUnits, hprod]

/-- It fits up to 40959 ms. -/
theorem unitsPerMs_eq_iff (ms : UInt16) :
    (unitsPerMs ms).toNat = scanUnits ms ↔ ms.toNat ≤ 40959 := by
  rw [unitsPerMs_toNat]
  unfold scanUnits
  omega

theorem scanWindow_le (intervalMs windowMs : UInt16) :
    (scanWindow intervalMs windowMs).toNat ≤ intervalMs.toNat := by
  unfold scanWindow
  split
  · exact Nat.le_refl _
  · rename_i hwindow
    have hle : ¬ windowMs > intervalMs := fun h => hwindow (.inr h)
    exact UInt16.le_iff_toNat_le.mp (UInt16.not_lt.mp hle)

/-- A PHY byte asks for at least one block. -/
theorem phyCount_pos (phys : UInt8) : 0 < phyCount phys := by
  have hall : ∀ n < 256, 0 < phyCount (UInt8.ofNat n) := by decide +kernel
  have h := hall phys.toNat (UInt8.toNat_lt phys)
  rwa [UInt8.ofNat_toNat] at h

/-- The interval and the window can be read off the scan. -/
theorem scanningFor_inj_iff (filter entries : List (List UInt8)) (phys : UInt8)
    (interval window interval' window' : Nat) :
    scanningFor filter entries phys interval window
        = scanningFor filter entries phys interval' window' ↔
      interval = interval' ∧ window = window' := by
  constructor
  · intro h
    have hscan := congrArg (fun c => (c.scan.map Scan.each)) h
    simp only [scanningFor, Option.map_some, Option.some.injEq] at hscan
    have hblock := (List.replicate_inj.mp hscan).2.resolve_left (Nat.pos_iff_ne_zero.mp (phyCount_pos phys))
    exact ⟨congrArg PhyScan.interval hblock, congrArg PhyScan.window hblock⟩
  · rintro ⟨rfl, rfl⟩
    rfl

/-- The script configures what was requested exactly when the interval fits its
sixteen bits: the window is never longer. -/
theorem execAll_startScript_eq_requested_iff {c : Controller} {s : BleRadio}
    (hcount : s.keyCount ≤ maxKeys) (intervalMs windowMs : UInt16) (phys : UInt8) :
    execAll c (startScript s intervalMs windowMs phys)
        = requested s.filter (keyEntries s) intervalMs windowMs phys ↔
      (scanInterval intervalMs).toNat ≤ 40959 := by
  have hwindow := scanWindow_le (scanInterval intervalMs) windowMs
  rw [execAll_startScript hcount, requested, scanningFor_inj_iff, unitsPerMs_eq_iff,
    unitsPerMs_eq_iff]
  omega

/-! ## Storing keys -/

/-- The `i`-th entry of a payload starts with the byte the check looks at. -/
theorem entry_head (payload : List UInt8) (i : Nat) :
    ((payload.drop (keyEntry * i)).take keyEntry).head? = payload[keyEntry * i]? := by
  rw [List.head?_take, List.head?_drop]
  rfl

/-- The type check finds nothing where every entry has a type that exists. -/
theorem badAddressType_eq_none_iff (payload : List UInt8) :
    badAddressType payload = none ↔
      (entriesOf payload).all (fun entry => entry.head?.any (· ≤ 1)) = true := by
  have hbyte : ∀ i < payload.length / keyEntry, ∃ type, payload[keyEntry * i]? = some type := by
    intro i hi
    have hlt : keyEntry * i < payload.length := by
      simp only [keyEntry] at hi ⊢
      omega
    exact ⟨_, List.getElem?_eq_getElem hlt⟩
  unfold badAddressType entriesOf
  simp only [List.findSome?_eq_none_iff, List.mem_range, List.all_map, List.all_eq_true,
    Function.comp_apply, entry_head]
  refine forall_congr' fun i => imp_congr_right fun hi => ?_
  obtain ⟨type, htype⟩ := hbyte i hi
  simp [htype]

/-- A payload that is not well formed is refused whole. -/
theorem snRadioBleSetKeys_malformed {payload : List UInt8} (h : wellFormed payload = false)
    (fw : Firmware) :
    ∃ line err, snRadioBleSetKeys fw payload = some (fw.logLine line, err) := by
  unfold snRadioBleSetKeys
  split
  · exact ⟨_, _, rfl⟩
  · rename_i hlength
    cases hbad : badAddressType payload with
    | some type => exact ⟨_, _, rfl⟩
    | none =>
        have htypes := (badAddressType_eq_none_iff payload).mp hbad
        simp [wellFormed, htypes] at h
        omega

/-- A well-formed one becomes the keys. -/
theorem snRadioBleSetKeys_wellFormed {payload : List UInt8} (h : wellFormed payload = true)
    (fw : Firmware) :
    ∃ keys, keyEntries { fw.ble with keys, keyCount := payload.length / keyEntry }
        = entriesOf payload ∧
      payload.length / keyEntry ≤ maxKeys ∧
      snRadioBleSetKeys fw payload
        = some ({ fw with ble := { fw.ble with keys, keyCount := payload.length / keyEntry } }.logLine
            (.deviceKeys (payload.length / keyEntry)), 0) := by
  simp only [wellFormed, Bool.and_eq_true, beq_iff_eq, decide_eq_true_eq] at h
  obtain ⟨⟨hmod, hle⟩, htypes⟩ := h
  have hbad := (badAddressType_eq_none_iff payload).mpr htypes
  have hfits : 0 + payload.length ≤ maxKeys * keyEntry := by
    simp only [maxKeys, keyEntry] at *
    omega
  obtain ⟨keys, hwrite, hbytes⟩ := (Lib.ByteBuffer.zero (maxKeys * keyEntry)).write_eq_some 0 payload hfits
  rw [List.take_zero, List.nil_append] at hbytes
  refine ⟨keys, ?_, hle, ?_⟩
  · apply List.map_congr_left
    intro i hi
    have hi : i < payload.length / keyEntry := List.mem_range.mp hi
    have hinside : keyEntry * i + keyEntry ≤ payload.length := by
      simp only [keyEntry] at hi ⊢
      omega
    simp only [keyAt, hbytes]
    rw [List.drop_append_of_le_length (by omega), List.take_append_of_le_length]
    simp only [List.length_drop]
    omega
  · unfold snRadioBleSetKeys
    have hlength : ¬ (payload.length % keyEntry ≠ 0 ∨ payload.length / keyEntry > maxKeys) := by
      omega
    rw [if_neg hlength, hbad, hwrite]
    rfl

/-- What a row of BLE_KEYS payloads may change. -/
structure KeysOnly (fw fw' : Firmware) : Prop where
  ble : ∃ keys keyCount, fw'.ble = { fw.ble with keys, keyCount }
  hci : fw'.hci = fw.hci

/-- **Storing keys.** After any payloads the stored keys are the entries of the
last well-formed one, or those stored before. -/
theorem storeKeys_spec (payloads : List (List UInt8)) (fw : Firmware)
    (hcount : fw.ble.keyCount ≤ maxKeys) :
    ∃ fw', storeKeys fw payloads = some fw' ∧ KeysOnly fw fw' ∧ fw'.ble.keyCount ≤ maxKeys ∧
      keyEntries fw'.ble
        = ((payloads.filter wellFormed).getLast?.map entriesOf).getD (keyEntries fw.ble) := by
  induction payloads generalizing fw with
  | nil => exact ⟨fw, rfl, ⟨⟨_, _, rfl⟩, rfl⟩, hcount, rfl⟩
  | cons payload payloads ih =>
      cases h : wellFormed payload with
      | false =>
          obtain ⟨line, err, hset⟩ := snRadioBleSetKeys_malformed h fw
          obtain ⟨fw', hstore, honly, hcount', hentries⟩ := ih (fw.logLine line) hcount
          refine ⟨fw', ?_, ⟨honly.ble, honly.hci⟩, hcount', ?_⟩
          · rw [storeKeys, hset]
            exact hstore
          · rw [hentries, List.filter_cons_of_neg (by simp [h])]
            rfl
      | true =>
          obtain ⟨keys, hstored, hle, hset⟩ := snRadioBleSetKeys_wellFormed h fw
          obtain ⟨fw', hstore, honly, hcount', hentries⟩ := ih
            ({ fw with ble := { fw.ble with keys, keyCount := payload.length / keyEntry } }.logLine
              (.deviceKeys (payload.length / keyEntry))) hle
          obtain ⟨_, _, hble⟩ := honly.ble
          refine ⟨fw', ?_, ⟨⟨_, _, hble⟩, honly.hci⟩, hcount', ?_⟩
          · rw [storeKeys, hset]
            exact hstore
          · rw [hentries, List.filter_cons_of_pos h, List.getLast?_cons]
            cases (payloads.filter wellFormed).getLast? with
            | none => exact hstored
            | some last => rfl

/-! ## Every START -/

/-- The interval fits its sixteen bits in the controller's units, or the
controller is not ready, or it does not accept every command of the script. -/
def IntervalCarried (fw : Firmware) (intervalMs windowMs : UInt16) (phys : UInt8) : Prop :=
  (fw.ble.ready = true ∧
    ∀ i < (startScript fw.ble intervalMs windowMs phys).length,
      (fw.hci.answers (fw.hci.log.length + i)).accepted = true) →
  (scanInterval intervalMs).toNat ≤ 40959

/-- Where the controller is not ready nothing is sent. -/
theorem startMeets_notReady {fw : Firmware} (hready : fw.ble.ready = false)
    (entries : List (List UInt8)) (intervalMs windowMs : UInt16) (phys : UInt8) :
    StartMeets fw entries intervalMs windowMs phys (snRadioBleStart fw intervalMs windowMs phys)
      [] := by
  have hrefused : snRadioBleStart fw intervalMs windowMs phys = (fw, -eNoDev) := by
    simp [snRadioBleStart, hready]
  rw [hrefused]
  refine ⟨(List.append_nil _).symm, by simp [hready, eNoDev], by simp, fun _ => ⟨rfl, rfl, rfl, rfl⟩,
    ?_⟩
  intro h
  cases h

/-- A ready board's START returns 0 exactly where every answer accepts. -/
theorem start_ok_iff_accepted {fw : Firmware} (hready : fw.ble.ready = true)
    (intervalMs windowMs : UInt16) (phys : UInt8) :
    (snRadioBleStart fw intervalMs windowMs phys).2 = 0 ↔
      ∀ i < (startScript fw.ble intervalMs windowMs phys).length,
        (fw.hci.answers (fw.hci.log.length + i)).accepted = true :=
  (snRadioBleStart_ok_iff hready intervalMs windowMs phys).trans (issued_all_ok_iff _ _)

/-- A START that meets its promise and is accepted carried its interval: what
it sent is the whole script, and the script executed is what was requested. -/
theorem StartMeets.carried {fw : Firmware} {intervalMs windowMs : UInt16} {phys : UInt8}
    {sent : List (HciCommand × HciAnswer)} (hready : fw.ble.ready = true)
    (hcount : fw.ble.keyCount ≤ maxKeys)
    (h : StartMeets fw (keyEntries fw.ble) intervalMs windowMs phys
      (snRadioBleStart fw intervalMs windowMs phys) sent) :
    IntervalCarried fw intervalMs windowMs phys := by
  rintro ⟨_, haccepted⟩
  have hzero := (start_ok_iff_accepted hready intervalMs windowMs phys).mpr haccepted
  have hall := (snRadioBleStart_ok_iff hready intervalMs windowMs phys).mp hzero
  have hlog := congrArg HciBus.log (snRadioBleStart_hci hready intervalMs windowMs phys)
  have hsent : sent = fw.hci.issues (startScript fw.ble intervalMs windowMs phys) :=
    List.append_cancel_left (h.sends.symm.trans hlog)
  have hscript : sent.map Prod.fst = startScript fw.ble intervalMs windowMs phys := by
    rw [hsent]
    exact issued_fst_of_all_ok hall
  have hconfigured := h.configures hzero {}
  rw [hscript] at hconfigured
  exact (execAll_startScript_eq_requested_iff hcount intervalMs windowMs phys).mp hconfigured

/-- A ready board's START that carries its interval meets its promise. -/
theorem startMeets_of_carried {fw : Firmware} {intervalMs windowMs : UInt16} {phys : UInt8}
    (hready : fw.ble.ready = true) (hcount : fw.ble.keyCount ≤ maxKeys)
    (hcarried : IntervalCarried fw intervalMs windowMs phys) :
    StartMeets fw (keyEntries fw.ble) intervalMs windowMs phys
      (snRadioBleStart fw intervalMs windowMs phys)
      (fw.hci.issues (startScript fw.ble intervalMs windowMs phys)) := by
  have hok := snRadioBleStart_ok_iff hready intervalMs windowMs phys
  refine ⟨congrArg HciBus.log (snRadioBleStart_hci hready intervalMs windowMs phys), ?_, ?_, ?_, ?_⟩
  · simpa [hready] using hok
  · intro pre x post heq hx
    exact issued_refused_last heq hx
  · intro hfailed
    obtain ⟨fw', ⟨_, _, _, _, rfl⟩, hr⟩ := snRadioBleStart_outcome hready intervalMs windowMs phys
    rw [hr, if_neg hfailed]
    exact ⟨rfl, rfl, rfl, rfl⟩
  · intro hzero c
    have hscript := issued_fst_of_all_ok (hok.mp hzero)
    have haccepted := (start_ok_iff_accepted hready intervalMs windowMs phys).mp hzero
    show execAll c ((issued _ _ _ _).map Prod.fst) = _
    rw [hscript]
    exact (execAll_startScript_eq_requested_iff hcount intervalMs windowMs phys).mpr
      (hcarried ⟨hready, haccepted⟩)

/-- **A START that succeeds configures what was asked for**, and one that fails
changes nothing a capture depends on, for every row of key payloads, filter,
PHY byte, interval, window and answers: exactly where the interval fits. -/
theorem start_configures_iff (fw : Firmware) (hcleared : fw.ble.keyCount = 0)
    (payloads : List (List UInt8)) (intervalMs windowMs : UInt16) (phys : UInt8) :
    ∃ fw', storeKeys fw payloads = some fw' ∧ fw'.ble.filter = fw.ble.filter ∧
      ((∃ sent, StartMeets fw' (lastEntries payloads) intervalMs windowMs phys
          (snRadioBleStart fw' intervalMs windowMs phys) sent) ↔
        IntervalCarried fw' intervalMs windowMs phys) := by
  have hnone : keyEntries fw.ble = [] := by simp [keyEntries, hcleared]
  obtain ⟨fw', hstore, honly, hcount, hentries⟩ := storeKeys_spec payloads fw (by omega)
  obtain ⟨keys, keyCount, hble⟩ := honly.ble
  rw [hnone] at hentries
  have hstored : keyEntries fw'.ble = lastEntries payloads := hentries
  refine ⟨fw', hstore, by rw [hble], ?_⟩
  rw [← hstored]
  cases hready : fw'.ble.ready with
  | false =>
      constructor
      · rintro _ ⟨hready', _⟩
        rw [hready] at hready'
        cases hready'
      · intro _
        exact ⟨[], startMeets_notReady hready _ _ _ _⟩
  | true =>
      constructor
      · rintro ⟨sent, h⟩
        exact h.carried hready hcount
      · intro hcarried
        exact ⟨_, startMeets_of_carried hready hcount hcarried⟩

/-- A BLE_KEYS payload of one entry: a public address and a key. -/
def oneKey : List UInt8 := [0, 1, 2, 3, 4, 5, 6] ++ List.replicate 16 0xAA

/-- A key, one cut short, and the default interval. -/
theorem start_configures_iff_one_key :
    ∃ fw', storeKeys (boot calmWorld) [oneKey, [0, 1, 2]] = some fw' ∧
      fw'.ble.filter = (boot calmWorld).ble.filter ∧
      ((∃ sent, StartMeets fw' (lastEntries [oneKey, [0, 1, 2]]) 0 0 1
          (snRadioBleStart fw' 0 0 1) sent) ↔ IntervalCarried fw' 0 0 1) :=
  start_configures_iff (boot calmWorld) rfl [oneKey, [0, 1, 2]] 0 0 1

/-- **A long interval wraps.** Asked to scan every 60 s, which is 96000 units,
the board scans every 30464 units, which is 19 s. -/
theorem long_interval_wraps :
    let r := snRadioBleStart (boot calmWorld) 60000 0 1
    r.2 = 0 ∧
      (execAll {} (r.1.hci.log.map Prod.fst)).scan.map Scan.each
        = some [{ passive := true, interval := 30464, window := 30464 }] ∧
      ¬ ∃ sent, StartMeets (boot calmWorld) (lastEntries []) 60000 0 1 r sent := by
  intro r
  refine ⟨by decide +kernel, by decide +kernel, ?_⟩
  rintro ⟨sent, h⟩
  have hzero : r.2 = 0 := by decide +kernel
  have hsent : r.1.hci.log = sent := h.sends
  have hconfigured := h.configures hzero {}
  rw [← hsent] at hconfigured
  have hwrapped : execAll {} (r.1.hci.log.map Prod.fst) ≠ requested [] (lastEntries []) 60000 0 1 := by
    decide +kernel
  exact hwrapped hconfigured

end Nrf54Sniffer.Ble
