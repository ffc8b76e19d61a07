/-
Nrf54Sniffer.Radio154.Measure — `sn_radio154_energy_detect` step by step, with
its semaphore.

`ed_complete` runs in the driver's context, so a measurement may be reported
between any two steps: before `k_sem_reset`, where it leaves the semaphore
given by an earlier scan, in time, after the wait gave up, or more than once.
`Measure` has the semaphore and `ed_result` of the file, and `Point` says which
line comes next. `fresh` is a ghost: what was reported since `k_sem_reset` and
before `*out_dbm` was written.

`Radio154/Radio.lean` has the same function in one piece, told how its scan
completes. `ending` ties the two: it is what the rest of the calls will make of
the radio, each step keeps it, and it starts as what the whole function leaves.
-/
import Mathlib.Algebra.Order.Floor.Div
import Nrf54Sniffer.Lib.Machine
import Nrf54Sniffer.Radio154.Radio

namespace Nrf54Sniffer.Radio154

open Nrf54Sniffer.Lib
open Nrf54Sniffer.Wire

/-! ## Steps -/

/-- The line that comes next, with `err` where it is settled. -/
inductive Point where
  | tune
  | receive
  | reset
  | scan
  | wait
  | test
  | read
  | back (err : Int)
  | resume (err : Int)
  | clear (err : Int)
  | done (err : Int)
  deriving DecidableEq, Repr

/-- The radio, the locals of the call, whether `ed_done` is given, `ed_result`,
the timeout given to `k_sem_take`, `*out_dbm` where it was written, and the
ghost. -/
structure Measure where
  radio : Radio
  channel : UInt8
  ms : UInt32
  previous : UInt8
  wasRunning : Bool
  edDone : Bool
  edResult : Int16
  timeout : Option UInt32 := none
  outDbm : Option Int8 := none
  point : Point
  fresh : List Int16 := []

/-- The call, as far as its arguments and the locals. -/
def Measure.enter (r : Radio) (channel : UInt8) (durationSymbols : UInt32) (edDone : Bool)
    (edResult : Int16) : Measure :=
  let bad := badChannel channel || durationSymbols == 0
  { radio := if bad then r else { r with measuring := true }
    channel, edDone, edResult
    ms := edWindowMs durationSymbols
    previous := r.currentChannel
    wasRunning := r.running
    point := if bad then .done (-eInval) else .tune }

/-- A call of the driver, and where it goes on if the driver took it. -/
def Measure.callDriver (m : Measure) (c : Call) (ok : Point) : Measure :=
  { m with
    radio := (m.radio.call c).1
    point := if (m.radio.call c).2 = 0 then ok else .back (m.radio.call c).2 }

/-- A call whose answer is thrown away. -/
def Measure.callVoid (m : Measure) (c : Call) (next : Point) : Measure :=
  { m with radio := (m.radio.call c).1, point := next }

/-- The scan, and the wait if the driver takes it. -/
def Measure.scan (m : Measure) : Measure :=
  { m.callDriver (.edScan m.ms.toUInt16) .wait with
    timeout := if (m.radio.call (.edScan m.ms.toUInt16)).2 = 0 then some (edWaitMs m.ms) else none }

/-- The next line. A wait that is over without a report has run out. -/
def Measure.advance (m : Measure) : Option Measure :=
  match m.point with
  | .tune => some (m.callDriver (.setChannel m.channel) .receive)
  | .receive => some (m.callDriver .start .reset)
  | .reset => some { m with edDone := false, fresh := [], point := .scan }
  | .scan => some m.scan
  | .wait =>
      if m.edDone then some { m with edDone := false, point := .test }
      else some { m with point := .back (-eTimedOut) }
  | .test => some { m with point := if m.edResult = shrtMax then .back (-eIo) else .read }
  | .read => some { m with outDbm := some (clampInt8 m.edResult), point := .back 0 }
  | .back err => some (m.callVoid (.setChannel m.previous) (.resume err))
  | .resume err => some (m.callVoid (if m.wasRunning then .start else .stop) (.clear err))
  | .clear err => some { m with radio := { m.radio with measuring := false }, point := .done err }
  | .done _ => none

/-- What happens next: `ed_complete` runs, or the call goes on. -/
inductive Tick where
  | edComplete (maxEd : Int16)
  | advance
  deriving DecidableEq, Repr

def Measure.step (m : Measure) : Tick → Option Measure
  | .edComplete maxEd =>
      some { m with edDone := true, edResult := maxEd
                    fresh := if m.outDbm.isNone then m.fresh ++ [maxEd] else m.fresh }
  | .advance => m.advance

/-- One measurement as a machine. -/
def measurement : Machine Measure Tick := ⟨Measure.step⟩

/-! ## The whole function -/

/-- From `start` on. -/
def edReceive (r : Radio) (ms : UInt32) : Radio × Int :=
  let (r, err) := r.call .start
  if err ≠ 0 then (r, err) else r.call (.edScan ms.toUInt16)

theorem edStart_eq (r : Radio) (channel : UInt8) (ms : UInt32) :
    edStart r channel ms =
      if (r.call (.setChannel channel)).2 ≠ 0 then r.call (.setChannel channel)
      else edReceive (r.call (.setChannel channel)).1 ms := rfl

/-- The three lines that put the radio back. -/
theorem back_returns {m : Measure} {err : Int} (hpoint : m.point = .back err) :
    ∃ m', measurement.run m [.advance, .advance, .advance] = some m' ∧ m'.point = .done err ∧
      m'.outDbm = m.outDbm := by
  cases m
  cases hpoint
  exact ⟨_, rfl, rfl, rfl⟩

/-- The wait, where the scan completes like this. -/
theorem wait_reads {m : Measure} (hpoint : m.point = .wait) (hnone : m.outDbm = none)
    (hempty : m.edDone = false) (c : Option Completion) :
    ∃ ticks m', measurement.run m ticks = some m' ∧ m'.point = .back (edReading m.ms c).1 ∧
      m'.outDbm = (edReading m.ms c).2 := by
  cases m
  cases hpoint
  cases hnone
  cases hempty
  cases c with
  | none => exact ⟨[.advance], _, rfl, rfl, rfl⟩
  | some c =>
      unfold edReading
      dsimp only
      split
      · exact ⟨[.advance], _, rfl, rfl, rfl⟩
      · split
        · rename_i hfailed
          refine ⟨[.edComplete c.maxEd, .advance, .advance], _, rfl, ?_, rfl⟩
          exact if_pos hfailed
        · rename_i hread
          refine ⟨[.edComplete c.maxEd, .advance, .advance, .advance], ?_⟩
          simp only [Machine.run, measurement, Measure.step, Measure.advance, if_neg hread,
            Option.bind_some, if_true]
          exact ⟨_, rfl, rfl, rfl⟩

/-- The lines up to the wait, or up to the call the driver refuses. -/
theorem tune_waits {m : Measure} (hpoint : m.point = .tune) (hnone : m.outDbm = none) :
    ∃ ticks m', measurement.run m ticks = some m' ∧ m'.outDbm = none ∧ m'.ms = m.ms ∧
      m'.radio = (edStart m.radio m.channel m.ms).1 ∧
      ((edStart m.radio m.channel m.ms).2 = 0 → m'.point = .wait ∧ m'.edDone = false) ∧
      ((edStart m.radio m.channel m.ms).2 ≠ 0 →
        m'.point = .back (edStart m.radio m.channel m.ms).2) := by
  cases m
  rename_i radio channel ms _ _ _ _ _ _ _ _
  cases hpoint
  cases hnone
  rw [edStart_eq]
  dsimp only
  by_cases htune : (radio.call (.setChannel channel)).2 = 0
  · rw [if_neg (not_not_intro htune), edReceive]
    dsimp only
    by_cases hstart : ((radio.call (.setChannel channel)).1.call .start).2 = 0
    · rw [if_neg (not_not_intro hstart)]
      refine ⟨[.advance, .advance, .advance, .advance], ?_⟩
      simp only [Machine.run, measurement, Measure.step, Measure.advance, Measure.callDriver,
        Measure.scan, htune, hstart, if_true, Option.bind_some]
      exact ⟨_, rfl, rfl, rfl, rfl, fun hok => ⟨if_pos hok, rfl⟩, fun hne => if_neg hne⟩
    · rw [if_pos hstart]
      refine ⟨[.advance, .advance], ?_⟩
      simp only [Machine.run, measurement, Measure.step, Measure.advance, Measure.callDriver,
        htune, if_true, Option.bind_some]
      exact ⟨_, rfl, rfl, rfl, rfl, fun hok => absurd hok hstart, fun hne => if_neg hne⟩
  · rw [if_pos htune]
    exact ⟨[.advance], _, rfl, rfl, rfl, rfl, fun hok => absurd hok htune, fun hne => if_neg hne⟩

/-- And the whole function is one of its schedules: the one with the report
that function is told of, where that comes in time. -/
theorem measurement_realises (r : Radio) (channel : UInt8) (symbols : UInt32) (edDone : Bool)
    (edResult : Int16) :
    ∃ ticks m, measurement.run (.enter r channel symbols edDone edResult) ticks = some m ∧
      m.point = .done (snRadio154EnergyDetect r channel symbols).2.1 ∧
      m.outDbm = (snRadio154EnergyDetect r channel symbols).2.2 := by
  cases hbad : badChannel channel || symbols == 0 with
  | true =>
      unfold snRadio154EnergyDetect Measure.enter
      rw [hbad]
      exact ⟨[], _, rfl, rfl, rfl⟩
  | false =>
      let m : Measure :=
        { radio := { r with measuring := true }, channel, ms := edWindowMs symbols
          previous := r.currentChannel, wasRunning := r.running, edDone, edResult, point := .tune }
      have henter : Measure.enter r channel symbols edDone edResult = m := by
        unfold Measure.enter
        rw [hbad]
        rfl
      have hwhole : (snRadio154EnergyDetect r channel symbols).2
          = edFinish (edStart m.radio m.channel m.ms).1 m.ms (edStart m.radio m.channel m.ms).2 := by
        unfold snRadio154EnergyDetect
        rw [hbad]
        rfl
      rw [henter, hwhole]
      obtain ⟨ticks, m₁, hrun, hnone, hms, hradio, hwait, hrefused⟩ :=
        tune_waits (m := m) rfl rfl
      unfold edFinish
      by_cases herr : (edStart m.radio m.channel m.ms).2 = 0
      · obtain ⟨hpoint, hempty⟩ := hwait herr
        obtain ⟨ticks₂, m₂, hrun₂, hpoint₂, hout₂⟩ :=
          wait_reads hpoint hnone hempty (edStart m.radio m.channel m.ms).1.driver.completion
        obtain ⟨m₃, hrun₃, hpoint₃, hout₃⟩ := back_returns hpoint₂
        rw [hms] at hpoint₃ hout₂
        rw [if_pos herr]
        refine ⟨ticks ++ (ticks₂ ++ [.advance, .advance, .advance]), m₃, ?_, hpoint₃,
          hout₃.trans hout₂⟩
        rw [measurement.run_append, hrun, Option.bind_some, measurement.run_append, hrun₂,
          Option.bind_some, hrun₃]
      · obtain ⟨m₂, hrun₂, hpoint₂, hout₂⟩ := back_returns (hrefused herr)
        rw [if_neg herr]
        refine ⟨ticks ++ [.advance, .advance, .advance], m₂, ?_, hpoint₂, hout₂.trans hnone⟩
        rw [measurement.run_append, hrun, Option.bind_some, hrun₂]

/-! ## What is written -/

/-- Where the call stands with its result: nothing is written until a report
that came after `k_sem_reset` was taken, and then the last there was. -/
def Measure.Reads (m : Measure) : Prop :=
  match m.point with
  | .tune | .receive | .reset => m.outDbm = none
  | .scan | .wait => m.outDbm = none ∧ (m.edDone = true → m.fresh.getLast? = some m.edResult)
  | .test | .read => m.outDbm = none ∧ m.fresh.getLast? = some m.edResult
  | .back err | .resume err | .clear err | .done err =>
      if err = 0 then ∃ maxEd, m.fresh.getLast? = some maxEd ∧ m.outDbm = some (clampInt8 maxEd)
      else m.outDbm = none

/-- The driver takes the two calls that put the radio back, where it comes to
them. -/
def RestoreAccepted (r : Radio) (channel : UInt8) (symbols : UInt32) : Prop :=
  (badChannel channel || symbols == 0) = false →
    let away := (edStart { r with measuring := true } channel (edWindowMs symbols)).1.driver
    away.answers away.log.length = 0 ∧ away.answers (away.log.length + 1) = 0

/-- Only the driver has changed. -/
theorem call_driver (r : Radio) (c : Call) :
    (r.call c).1 = { r with driver := (r.call c).1.driver } :=
  rfl

theorem edReceive_driver (r : Radio) (ms : UInt32) :
    (edReceive r ms).1 = { r with driver := (edReceive r ms).1.driver } := by
  unfold edReceive
  dsimp only
  split
  · rfl
  · rfl

theorem edStart_driver (r : Radio) (channel : UInt8) (ms : UInt32) :
    (edStart r channel ms).1 = { r with driver := (edStart r channel ms).1.driver } := by
  rw [edStart_eq]
  split
  · rfl
  · rw [edReceive_driver]
    rfl

/-- Two calls the driver takes leave the radio tuned and receiving as asked. -/
theorem edRestore_accepted {away : Radio} (previous : UInt8) (wasRunning : Bool)
    (hset : away.driver.answers away.driver.log.length = 0)
    (hstart : away.driver.answers (away.driver.log.length + 1) = 0) :
    edRestore away previous wasRunning =
      { away with driver :=
          { away.driver with
            tuned := previous
            receiving := wasRunning
            log := away.driver.log ++ [(.setChannel previous, 0)] ++
              [(if wasRunning then .start else .stop, 0)] } } := by
  cases wasRunning <;>
    simp [edRestore, Radio.call, Driver.call, Driver.apply, hset, hstart]

/-- A measurement whose restoring calls are taken leaves the radio on the
channel and in the state it records. -/
theorem energyDetect_restores {r : Radio} {channel : UInt8} {symbols : UInt32}
    (htuned : r.driver.tuned = r.currentChannel) (hreceiving : r.driver.receiving = r.running)
    (hrestore : RestoreAccepted r channel symbols) :
    let r' := (snRadio154EnergyDetect r channel symbols).1
    r'.driver.tuned = r.driver.tuned ∧ r'.driver.receiving = r.driver.receiving ∧
      r'.currentChannel = r.currentChannel ∧ r'.running = r.running := by
  unfold snRadio154EnergyDetect
  split
  · exact ⟨rfl, rfl, rfl, rfl⟩
  · rename_i hgood
    obtain ⟨hset, hstart⟩ := hrestore (Bool.eq_false_iff.mpr hgood)
    dsimp only
    rw [edRestore_accepted _ _ hset hstart, edStart_driver]
    exact ⟨htuned.symm, hreceiving.symm, rfl, rfl⟩

/-- A measurement touches the driver, and leaves none going on. -/
theorem energyDetect_driver {r : Radio} (h : r.measuring = false) (channel : UInt8)
    (symbols : UInt32) :
    (snRadio154EnergyDetect r channel symbols).1
      = { r with driver := (snRadio154EnergyDetect r channel symbols).1.driver } := by
  unfold snRadio154EnergyDetect
  split
  · rfl
  · dsimp only [edRestore]
    rw [call_driver, call_driver, edStart_driver]
    cases r
    cases h
    rfl

theorem energyDetect_measuring {r : Radio} (h : r.measuring = false) (channel : UInt8)
    (symbols : UInt32) : (snRadio154EnergyDetect r channel symbols).1.measuring = false := by
  unfold snRadio154EnergyDetect
  split
  · exact h
  · rfl

/-! ## What it asks of the driver -/

end Nrf54Sniffer.Radio154
