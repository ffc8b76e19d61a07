/-
Nrf54Sniffer.Board.FlagIsScan — when the BLE running flag tells whether the
controller scans.

The flag and the scan go apart in three ways: a START that finds a capture
running has its Reset carried out and then fails; the answer to the last
command of a START is lost; a stop clears the flag and its Reset may not have
been carried out. `Settles` rules out the three, and nothing else: a step from
where flag and scan agree, in every controller that may be there, leads to
where they agree exactly when it settles.
-/
import Nrf54Sniffer.Board.AsStarted

namespace Nrf54Sniffer.Board

open Nrf54Sniffer.Lib
open Nrf54Sniffer.Wire
open Nrf54Sniffer.Ble

/-- Every controller that may be there scans where the flag says so, and only
there. -/
def FlagIsScan (fw : Firmware) : Prop :=
  ∀ c, MayHave fw.hci.log c → c.scanning = fw.ble.running

/-- START is left at its last command, the scan enable, which may have been
carried out. -/
def EnableInDoubt (fw : Firmware) : Prop :=
  ∃ i, i + 1 = fw.script.length ∧
    LeftAt HciAnswer.accepted fw.hci.answers fw.hci.log.length fw.script i ∧
    fate (fw.hci.answers (fw.hci.log.length + i)) ≠ .refused

/-- What must not be left open. -/
structure Settles (p : Platform) (fw : Firmware) (i : Input) : Prop where
  restart : StartsBle p fw i → fw.ble.running = true →
    fw.startAccepted ∨ fate fw.hci.next = .refused
  start : StartsBle p fw i → fw.ble.running = false → ¬ EnableInDoubt fw
  stop : StopsBle p fw i → fw.ble.running = true → fate fw.hci.next = .done

/-- Of a restart this asks what `RestartHolds` asks, and that its Reset is not
left in doubt. -/
theorem restart_settles_iff {fw : Firmware} (hselected : fw.selectedRadio = radioBle)
    (hrunning : fw.ble.running = true) :
    fw.startAccepted ∨ fate fw.hci.next = .refused ↔
      RestartHolds fw ∧ (fw.startAccepted ∨ fate fw.hci.next ≠ .unknown) := by
  have hholds : RestartHolds fw ↔ fw.hci.next.accepted = false ∨ fw.startAccepted :=
    ⟨fun h => h hselected hrunning, fun h _ _ => h⟩
  have hdone := accepted_iff_done fw.hci.next
  rw [hholds]
  cases hfate : fate fw.hci.next with
  | done => simp [hdone.mpr hfate]
  | refused =>
      have hnot : fw.hci.next.accepted = false := by
        rw [Bool.eq_false_iff, ne_eq, hdone, hfate]
        simp
      simp [hnot]
  | unknown =>
      simp only [reduceCtorEq, or_false, ne_eq, not_true_eq_false, iff_and_self]
      exact .inr

/-- So where every START settles, it is as `StartHolds` has it. -/
theorem Settles.startHolds {p : Platform} {fw : Firmware} {i : Input} (h : Settles p fw i)
    (hready : fw.ble.running = true → fw.ble.ready = true) : StartHolds p fw i := by
  unfold StartHolds
  split
  · intro hcommand hselected hrunning
    have hrestart := h.restart ⟨hcommand, hselected, hready hrunning⟩ hrunning
    exact ((restart_settles_iff hselected hrunning).mp hrestart).1 hselected hrunning
  · trivial

/-! ## One step -/

theorem not_starts_of_stops {p : Platform} {fw : Firmware} {i : Input} (h : StopsBle p fw i) :
    ¬ StartsBle p fw i := by
  intro hstarts
  obtain ⟨command, b0, b1, b2, b3, rest, rfl⟩ := h.command
  obtain ⟨hcommand, _⟩ := hstarts
  obtain ⟨h | ⟨h, _⟩ | ⟨h, _⟩, _⟩ := h
  · rw [hcommand] at h
    cases h
  · rw [hcommand] at h
    cases h
  · rw [hcommand] at h
    cases h

theorem Plain.settles {p : Platform} {fw : Firmware} {i : Input} (h : Plain p fw i) :
    Settles p fw i :=
  ⟨fun hstarts => absurd hstarts h.1, fun hstarts => absurd hstarts h.1,
    fun hstops => absurd hstops h.2⟩

/-- The whole script leaves the scan on. -/
theorem script_scans (s : Firmware) (c : Controller) : (execAll c s.script).scanning = true := by
  unfold Firmware.script startScript
  rw [execAll_append, execAll_scanScript]

/-- The controllers after a step are those its commands may have made of one
that may have been there before. -/
theorem flagIsScan_after {fw fw' : Firmware} {new : Traffic} (hadds : Adds fw fw' new) :
    FlagIsScan fw' ↔ ∀ c, MayHave fw.hci.log c → ∀ c', MayBe exec fate c new c' →
      c'.scanning = fw'.ble.running := by
  unfold FlagIsScan MayHave
  rw [hadds.log]
  constructor
  · intro h c hc c' hc'
    exact h c' (MayBe.append_iff.mpr ⟨c, hc, hc'⟩)
  · intro h c' hc'
    obtain ⟨c, hc, hmore⟩ := MayBe.append_iff.mp hc'
    exact h c hc c' hmore

/-- A stop. -/
theorem flagIsScan_stop_iff {fw fw' : Firmware} (h : FlagIsScan fw)
    (hadds : Adds fw fw' [(reset, fw.hci.next)]) (hoff : fw'.ble.running = false) :
    FlagIsScan fw' ↔ (fw.ble.running = true → fate fw.hci.next = .done) := by
  have hthere : MayHave fw.hci.log _ := .eager_mayBe exec fate {} fw.hci.log
  rw [flagIsScan_after hadds, hoff]
  constructor
  · intro hall hrunning
    refine Decidable.byContradiction fun hopen => ?_
    have hstill := hall _ hthere _ (MayBe.single_iff.mpr (.inr ⟨hopen, rfl⟩))
    rw [h _ hthere, hrunning] at hstill
    cases hstill
  · intro hdone c hc c' hc'
    rcases MayBe.single_iff.mp hc' with ⟨_, rfl⟩ | ⟨hopen, rfl⟩
    · rfl
    · rw [h c' hc]
      cases hrunning : fw.ble.running with
      | false => rfl
      | true => exact absurd (hdone hrunning) hopen

/-- A START that the controller accepts leaves both on. -/
theorem flagIsScan_started {fw fw' : Firmware} (haccepted : fw.startAccepted)
    (hadds : Adds fw fw' (fw.hci.issues fw.script)) (hon : fw'.ble.running = true) :
    FlagIsScan fw' := by
  rw [flagIsScan_after hadds, hon]
  intro c _ c' hc'
  rcases (MayBe.issued_iff accepted_iff_done).mp hc' with ⟨_, rfl⟩ | ⟨j, hleft, _⟩
  · exact script_scans fw c
  · exact absurd haccepted hleft.not_getsThrough

/-- One that fails leaves the flag, so it must leave the scan. -/
theorem flagIsScan_failed_iff {fw fw' : Firmware} {j : Nat} (h : FlagIsScan fw)
    (hleft : LeftAt HciAnswer.accepted fw.hci.answers fw.hci.log.length fw.script j)
    (hadds : Adds fw fw' (fw.hci.issues fw.script)) (hsame : fw'.ble.running = fw.ble.running) :
    FlagIsScan fw' ↔ (fw.ble.running = true → fate fw.hci.next = .refused) ∧
      (fw.ble.running = false → ¬ EnableInDoubt fw) := by
  have hthere : MayHave fw.hci.log _ := .eager_mayBe exec fate {} fw.hci.log
  have hstates : ∀ c c', MayBe exec fate c (fw.hci.issues fw.script) c' ↔
      c' = execAll c (fw.script.take j) ∨
        fate (fw.hci.answers (fw.hci.log.length + j)) ≠ .refused ∧
          c' = execAll c (fw.script.take (j + 1)) := by
    intro c c'
    constructor
    · intro hc'
      rcases (MayBe.issued_iff accepted_iff_done).mp hc' with ⟨hthrough, _⟩ | ⟨i, hleft', hstate⟩
      · exact absurd hthrough hleft.not_getsThrough
      · rw [hleft.unique hleft']
        exact hstate
    · intro hstate
      exact (MayBe.issued_iff accepted_iff_done).mpr (.inr ⟨j, hleft, hstate⟩)
  rw [flagIsScan_after hadds, hsame]
  simp only [hstates]
  constructor
  · intro hall
    refine ⟨fun hrunning => ?_, fun hrunning => ?_⟩
    · -- whatever was carried out but the Reset alone is a script that is cut
      refine Decidable.byContradiction fun hopen => ?_
      cases j with
      | zero =>
          have hstill := hall _ hthere _ (.inr ⟨hopen, rfl⟩)
          rw [hrunning] at hstill
          cases hstill
      | succ j =>
          have hstill := hall _ hthere _ (.inl rfl)
          rw [execAll_script_take, script_cut_silent hleft.1, hrunning] at hstill
          cases hstill
    · rintro ⟨i, hlast, hleft', hopen⟩
      rw [← hleft.unique hleft'] at hlast hopen
      have hstill := hall _ hthere _ (.inr ⟨hopen, rfl⟩)
      rw [hlast, List.take_length, script_scans, hrunning] at hstill
      cases hstill
  · rintro ⟨hrestart, hstart⟩ c hc c' hc'
    have hkept : execAll c (fw.script.take 0) = c := rfl
    cases hrunning : fw.ble.running with
    | true =>
        -- the Reset was refused, and nothing else was sent
        have hrefused := hrestart hrunning
        have hzero : j = 0 := by
          cases j with
          | zero => rfl
          | succ j =>
              have hdone := (accepted_iff_done _).mp (hleft.2.1 0 (Nat.succ_pos j))
              rw [show fw.hci.answers (fw.hci.log.length + 0) = fw.hci.next from rfl, hrefused]
                at hdone
              cases hdone
        subst hzero
        rcases hc' with hsame | ⟨hopen, _⟩
        · rw [hsame, hkept, h c hc, hrunning]
        · exact absurd hrefused hopen
    | false =>
        have hsilent : (execAll c (fw.script.take j)).scanning = false := by
          cases j with
          | zero => rw [hkept, h c hc, hrunning]
          | succ j => rw [execAll_script_take, script_cut_silent hleft.1]
        rcases hc' with rfl | ⟨hopen, rfl⟩
        · exact hsilent
        · rw [execAll_script_take]
          refine script_cut_silent (Nat.lt_of_le_of_ne hleft.1 fun hlast => ?_)
          exact hstart hrunning ⟨j, hlast, hleft, hopen⟩

/-- **One step.** -/
theorem flagIsScan_step_iff {p : Platform} {fw fw' : Firmware} {i : Input} (h : FlagIsScan fw)
    (hstep : step p fw i = some fw') : FlagIsScan fw' ↔ Settles p fw i := by
  obtain ⟨new, hadds, hissues⟩ := step_issues hstep
  rcases hissues.kinds with ⟨hstarts, rfl, hrunning⟩ | ⟨hstops, rfl, hoff⟩ | ⟨hplain, hfollows, hsame⟩
  · have hstops : ¬ StopsBle p fw i := fun hstops => not_starts_of_stops hstops hstarts
    rcases getsThrough_or_leftAt HciAnswer.accepted fw.hci.answers fw.hci.log.length fw.script with
      haccepted | ⟨j, hleft⟩
    · refine iff_of_true (flagIsScan_started haccepted hadds (hrunning.mpr (.inr haccepted))) ?_
      refine ⟨fun _ _ => .inl haccepted, ?_, fun h => absurd h hstops⟩
      rintro _ _ ⟨i, _, hleft, _⟩
      exact hleft.not_getsThrough haccepted
    · have hfailed : ¬ fw.startAccepted := hleft.not_getsThrough
      have hsame : fw'.ble.running = fw.ble.running := by
        rw [Bool.eq_iff_iff, hrunning]
        exact or_iff_left hfailed
      rw [flagIsScan_failed_iff h hleft hadds hsame]
      constructor
      · rintro ⟨hrestart, hstart⟩
        exact ⟨fun _ hon => .inr (hrestart hon), fun _ => hstart, fun h => absurd h hstops⟩
      · intro hsettles
        exact ⟨fun hon => (hsettles.restart hstarts hon).resolve_left hfailed,
          hsettles.start hstarts⟩
  · have hstarts := not_starts_of_stops hstops
    rw [flagIsScan_stop_iff h hadds hoff]
    constructor
    · intro hstop
      exact ⟨fun h => absurd h hstarts, fun h => absurd h hstarts, fun _ => hstop⟩
    · intro hsettles
      exact hsettles.stop hstops
  · refine iff_of_true ?_ hplain.settles
    rw [flagIsScan_after hadds, hsame]
    intro c hc c' hc'
    rw [hfollows.inert hc']
    exact h c hc

/-! ## Every run -/

/-- **The flag tells the scan**, at every moment of a run and whichever of the
commands left in doubt were carried out, exactly when every step of the run
settles. -/
theorem flag_is_scan_iff {p : Platform} {w : World} {inputs : List Input} {t : Firmware}
    (hrun : (machine p).run (boot w) inputs = some t) :
    (∀ s, (machine p).Visits (boot w) inputs s → FlagIsScan s) ↔
      (machine p).RunMeets (Settles p) (boot w) inputs := by
  have hboot : FlagIsScan (boot w) := by
    intro c hc
    cases hc
    rfl
  exact (machine p).visits_iff_runMeets (fun _ _ _ h hstep => flagIsScan_step_iff h hstep) hboot hrun

/-- SET_RADIO to BLE and a START, everything accepted: flag and scan are on. -/
theorem flag_is_scan_iff_started :
    ∃ t, (machine fullPlatform).run (boot calmWorld) (restart.take 2) = some t ∧
      t.ble.running = true ∧ FlagIsScan t := by
  have hruns : (((machine fullPlatform).run (boot calmWorld) (restart.take 2)).any fun t =>
      t.ble.running) = true := by decide +kernel
  obtain ⟨t, ht, hflag⟩ := (Option.any_eq_true _ _).mp hruns
  have hselects : Settles fullPlatform (boot calmWorld) (.hostFrame .controlCmd [4, 2, 0, 0, 0]) := by
    refine Plain.settles ⟨?_, ?_⟩
    · rintro ⟨h, _⟩
      cases h
    · rintro ⟨h | ⟨h, _⟩ | ⟨_, h, _⟩, _⟩ <;> cases h
  have hstarts : Settles fullPlatform selectedBle (.hostFrame .controlCmd [2, 0, 0, 0, 0]) := by
    have haccepted : selectedBle.startAccepted := fun _ _ => rfl
    refine ⟨fun _ _ => .inl haccepted, ?_, fun h => ?_⟩
    · rintro _ _ ⟨i, _, hleft, _⟩
      exact hleft.not_getsThrough haccepted
    · obtain ⟨h | ⟨h, _⟩ | ⟨h, _⟩, _⟩ := h <;> cases h
  have hmeets : (machine fullPlatform).RunMeets (Settles fullPlatform) (boot calmWorld)
      (restart.take 2) := by
    refine ⟨hselects, fun s hs => ⟨?_, fun _ _ => trivial⟩⟩
    have heq : selectedBle = s := Option.some.inj hs
    rw [← heq]
    exact hstarts
  exact ⟨t, ht, hflag, (flag_is_scan_iff ht).mpr hmeets t ⟨restart.take 2, [], rfl, ht⟩⟩

end Nrf54Sniffer.Board
