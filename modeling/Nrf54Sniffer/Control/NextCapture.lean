/-
Nrf54Sniffer.Control.NextCapture — the same frames, on two boards with different
pasts.

`Next` relates two boards that agree on the session and will be answered alike.
What they went through may differ: the calls and the commands made so far, the
frames sent, the bytes left over in a batch that is closed, the lines to be
logged, where `stats_tick` is. Every frame of the host keeps it, and gives the
driver and the controller the same calls and commands, so what the frames
configure is the same (`configured_alike`).
-/
import Nrf54Sniffer.Control.Session

namespace Nrf54Sniffer.Control

open Nrf54Sniffer.Lib
open Nrf54Sniffer.Wire
open Nrf54Sniffer.Batch (Batcher snBatchDropped)
open Nrf54Sniffer.Radio154
open Nrf54Sniffer.Ble
open Nrf54Sniffer.Board

/-! ## The parts -/

/-- Two drivers tuned alike, with the same calls since. -/
structure NextDriver (m n : Nat) (d d' : Driver) : Prop where
  answers : SameAhead d.answers d'.answers d.log.length d'.log.length
  completions : SameAhead d.completions d'.completions d.log.length d'.log.length
  calls : SameSince m n d.log d'.log
  tuned : d'.tuned = d.tuned

/-- Two buses with the same commands since. -/
structure NextBus (m n : Nat) (bus bus' : HciBus) : Prop where
  answers : SameAhead bus.answers bus'.answers bus.log.length bus'.log.length
  commands : SameSince m n bus.log bus'.log

/-- Two links with the same counts. -/
structure NextLink (o o' : Outbox) : Prop where
  answers : SameAhead o.answers o'.answers o.log.length o'.log.length
  counters : o'.counters = o.counters

/-- Two switches that stand alike. -/
structure NextSwitch (r r' : Regulator) : Prop where
  ready : r'.ready = r.ready
  answers : SameAhead r.answers r'.answers r.calls r'.calls
  enabled : r'.enabled = r.enabled

/-- Two batches closed. -/
structure NextBatch (b b' : Batcher) : Prop where
  closed : b.count = 0
  closed' : b'.count = 0
  entries : Batch.openEntries b' = Batch.openEntries b
  dropped : b'.droppedPackets = b.droppedPackets

structure NextBleBatch (b b' : BleBatch) : Prop where
  closed : b.count = 0
  closed' : b'.count = 0
  entries : Ble.openEntries b' = Ble.openEntries b

theorem NextDriver.call {m n : Nat} {d d' : Driver} (h : NextDriver m n d d') (c : Call) :
    (d'.call c).2 = (d.call c).2 ∧ NextDriver m n (d.call c).1 (d'.call c).1 := by
  have herr : d'.answers d'.log.length = d.answers d.log.length := h.answers.now.symm
  refine ⟨herr, ?_⟩
  unfold Driver.call
  rw [herr]
  generalize d.answers d.log.length = err
  have hpush := h.calls.push (c, err)
  by_cases hzero : err = 0
  · have htuned : (d'.apply c).tuned = (d.apply c).tuned := by
      cases c with
      | setChannel channel => rfl
      | start => exact h.tuned
      | stop => exact h.tuned
      | edScan durationMs => exact h.tuned
    have hsame : ∀ d : Driver, (d.apply c).answers = d.answers ∧
        (d.apply c).completions = d.completions := by
      intro d
      cases c with
      | setChannel channel => exact ⟨rfl, rfl⟩
      | start => exact ⟨rfl, rfl⟩
      | stop => exact ⟨rfl, rfl⟩
      | edScan durationMs => exact ⟨rfl, rfl⟩
    simp only [hzero, if_true]
    refine ⟨?_, ?_, hzero ▸ hpush, htuned⟩
    · simp only [(hsame d).1, (hsame d').1, List.length_append]
      exact h.answers.next
    · simp only [(hsame d).2, (hsame d').2, List.length_append]
      exact h.completions.next
  · simp only [hzero, if_false]
    refine ⟨?_, ?_, hpush, h.tuned⟩
    · simp only [List.length_append]
      exact h.answers.next
    · simp only [List.length_append]
      exact h.completions.next

theorem NextBus.push {m n : Nat} {bus bus' : HciBus} (h : NextBus m n bus bus')
    (c : HciCommand) : NextBus m n (bus.push c) (bus'.push c) := by
  have hnext : bus'.next = bus.next := h.answers.now.symm
  unfold HciBus.push
  rw [hnext]
  refine ⟨?_, h.commands.push _⟩
  simp only [List.length_append]
  exact h.answers.next

theorem NextLink.send {o o' : Outbox} (h : NextLink o o') (f : Frame) :
    NextLink (o.send f).1 (o'.send f).1 := by
  have hanswer : o'.answers o'.log.length = o.answers o.log.length := h.answers.now.symm
  refine ⟨?_, ?_⟩
  · simp only [Outbox.send_log, List.length_append]
    exact h.answers.next
  · simp only [Outbox.send, hanswer, h.counters]

theorem NextSwitch.set {r r' : Regulator} (h : NextSwitch r r') (on : Bool) :
    (r'.set on).2 = (r.set on).2 ∧ NextSwitch (r.set on).1 (r'.set on).1 := by
  have herr : r'.answers r'.calls = r.answers r.calls := h.answers.now.symm
  refine ⟨herr, h.ready, h.answers.next, ?_⟩
  simp only [Regulator.set, herr, h.enabled]

/-! ## The 802.15.4 radio -/

/-- Two radios that agree but for what the driver went through. -/
def NextRadio (m n : Nat) (r r' : Radio) : Prop :=
  ∃ driver measuring, NextDriver m n r.driver driver ∧ r' = { r with driver, measuring }

/-- The same answer from two such radios. -/
def NextRadioAnswer {α : Type} (m n : Nat) (x x' : Radio × α) : Prop :=
  NextRadio m n x.1 x'.1 ∧ x'.2 = x.2

section Radio

variable {m n : Nat} {r r' : Radio}

theorem NextRadio.call (h : NextRadio m n r r') (c : Call) :
    NextRadioAnswer m n (r.call c) (r'.call c) := by
  obtain ⟨driver, measuring, hdriver, rfl⟩ := h
  exact ⟨⟨_, measuring, (hdriver.call c).2, rfl⟩, (hdriver.call c).1⟩

theorem NextRadio.setChannel (h : NextRadio m n r r') (channel : UInt8) :
    NextRadioAnswer m n (snRadio154SetChannel r channel) (snRadio154SetChannel r' channel) := by
  unfold snRadio154SetChannel
  split
  · exact ⟨h, rfl⟩
  · obtain ⟨hcall, herr⟩ := h.call (.setChannel channel)
    obtain ⟨driver, measuring, hdriver, hradio⟩ := hcall
    simp only [herr, hradio]
    refine ⟨?_, rfl⟩
    show NextRadio m n (if _ then _ else _) (if _ then _ else _)
    split
    · exact ⟨driver, measuring, hdriver, rfl⟩
    · exact ⟨driver, measuring, hdriver, rfl⟩

theorem NextRadio.start (h : NextRadio m n r r') :
    NextRadioAnswer m n (snRadio154Start r) (snRadio154Start r') := by
  obtain ⟨hcall, herr⟩ := h.call .start
  obtain ⟨driver, measuring, hdriver, hradio⟩ := hcall
  unfold snRadio154Start
  simp only [herr, hradio]
  refine ⟨?_, rfl⟩
  show NextRadio m n (if _ then _ else _) (if _ then _ else _)
  split
  · exact ⟨driver, measuring, hdriver, rfl⟩
  · exact ⟨driver, measuring, hdriver, rfl⟩

theorem NextRadio.stop (h : NextRadio m n r r') :
    NextRadioAnswer m n (snRadio154Stop r) (snRadio154Stop r') := by
  have hrunning : r'.running = r.running := by
    obtain ⟨_, _, _, rfl⟩ := h
    rfl
  unfold snRadio154Stop
  rw [hrunning]
  split
  · exact ⟨h, rfl⟩
  · obtain ⟨hcall, herr⟩ := h.call .stop
    obtain ⟨driver, measuring, hdriver, hradio⟩ := hcall
    simp only [herr, hradio]
    refine ⟨?_, rfl⟩
    show NextRadio m n (if _ then _ else _) (if _ then _ else _)
    split
    · exact ⟨driver, measuring, hdriver, rfl⟩
    · exact ⟨driver, measuring, hdriver, rfl⟩

theorem NextRadio.edStart (h : NextRadio m n r r') (channel : UInt8) (ms : UInt32) :
    NextRadioAnswer m n (edStart r channel ms) (edStart r' channel ms) := by
  obtain ⟨htuned, herr⟩ := h.call (.setChannel channel)
  obtain ⟨hstarted, herr'⟩ := htuned.call .start
  unfold Radio154.edStart
  simp only [herr, herr']
  split
  · exact ⟨htuned, rfl⟩
  · split
    · exact ⟨hstarted, rfl⟩
    · exact hstarted.call _

theorem NextRadio.edFinish (h : NextRadio m n r r') (ms : UInt32) (err : Int) :
    edFinish r' ms err = edFinish r ms err := by
  obtain ⟨driver, measuring, hdriver, rfl⟩ := h
  have hcompletion : driver.completion = r.driver.completion := hdriver.completions.now.symm
  simp only [Radio154.edFinish, hcompletion]

theorem NextRadio.edRestore (h : NextRadio m n r r') (channel : UInt8) (running : Bool) :
    NextRadio m n (edRestore r channel running) (edRestore r' channel running) :=
  ((h.call (.setChannel channel)).1.call _).1

theorem NextRadio.withMeasuring (h : NextRadio m n r r') (measuring : Bool) :
    NextRadio m n { r with measuring } { r' with measuring } := by
  obtain ⟨driver, _, hdriver, rfl⟩ := h
  exact ⟨driver, measuring, hdriver, rfl⟩

theorem NextRadio.energyDetect (h : NextRadio m n r r') (channel : UInt8) (symbols : UInt32) :
    NextRadioAnswer m n (snRadio154EnergyDetect r channel symbols)
      (snRadio154EnergyDetect r' channel symbols) := by
  obtain ⟨haway, herr⟩ := (h.withMeasuring true).edStart channel (edWindowMs symbols)
  have hreading := haway.edFinish (edWindowMs symbols)
  unfold snRadio154EnergyDetect
  split
  · exact ⟨h, rfl⟩
  · obtain ⟨driver, measuring, hdriver, rfl⟩ := h
    refine ⟨(haway.edRestore r.currentChannel r.running).withMeasuring false, ?_⟩
    simp only [herr, hreading]

end Radio

/-! ## The firmware -/

/-- What a board went through, as far as it leaves a trace in the state. -/
structure Past where
  driver : Driver
  measuring : Bool
  batcher : Batcher
  batch : BleBatch
  follow : Following
  slot : CmdSlot
  hci : HciBus
  outbox : Outbox
  rfswCtl : Regulator
  logs : List LogLine
  tick : StatsTick

/-- The firmware with another past. -/
def withPast (past : Past) (fw : Firmware) : Firmware :=
  { fw with
    radio := { fw.radio with driver := past.driver, measuring := past.measuring }
    batcher := past.batcher
    ble := { fw.ble with batch := past.batch, follow := past.follow }
    slot := past.slot
    hci := past.hci
    outbox := past.outbox
    rfswCtl := past.rfswCtl
    logs := past.logs
    tick := past.tick }

/-- Another past that what comes next does not tell apart. -/
structure NextPast (m n : Marks) (fw : Firmware) (past : Past) : Prop where
  driver : NextDriver m.driver n.driver fw.radio.driver past.driver
  batcher : NextBatch fw.batcher past.batcher
  batch : NextBleBatch fw.ble.batch past.batch
  mail : mailbox past.follow = mailbox fw.ble.follow
  hci : NextBus m.hci n.hci fw.hci past.hci
  outbox : NextLink fw.outbox past.outbox
  rfswCtl : NextSwitch fw.rfswCtl past.rfswCtl

/-- Two boards that differ in such a past. -/
def Next (m n : Marks) (fw fw' : Firmware) : Prop :=
  ∃ past, NextPast m n fw past ∧ fw' = withPast past fw

/-- The same answer from two such boards. -/
def NextAnswer {α : Type} (m n : Marks) (r r' : Firmware × α) : Prop :=
  Next m n r.1 r'.1 ∧ r'.2 = r.2

variable {m n : Marks} {fw fw' : Firmware}

theorem Next.logLine (h : Next m n fw fw') (line : LogLine) :
    Next m n (fw.logLine line) (fw'.logLine line) := by
  obtain ⟨past, hpast, rfl⟩ := h
  exact ⟨{ past with logs := past.logs ++ [line] }, { hpast with }, rfl⟩

/-- The radio's part of a command. -/
theorem Next.withRadio (h : Next m n fw fw') {radio radio' : Radio}
    (hradio : NextRadio m.driver n.driver radio radio') :
    Next m n { fw with radio } { fw' with radio := radio' } := by
  obtain ⟨past, hpast, rfl⟩ := h
  obtain ⟨driver, measuring, hdriver, rfl⟩ := hradio
  exact ⟨{ past with driver, measuring }, { hpast with driver := hdriver }, rfl⟩

theorem Next.radio (h : Next m n fw fw') : NextRadio m.driver n.driver fw.radio fw'.radio := by
  obtain ⟨past, hpast, rfl⟩ := h
  exact ⟨past.driver, past.measuring, hpast.driver, rfl⟩

theorem Next.reply (h : Next m n fw fw') (p : Platform) (command : UInt8) (status : Status)
    (value : UInt32) :
    Next m n (reply p fw command status value) (reply p fw' command status value) := by
  obtain ⟨past, hpast, rfl⟩ := h
  exact ⟨{ past with outbox := (past.outbox.send _).1 },
    { hpast with outbox := hpast.outbox.send _ }, rfl⟩

/-- Two such boards start the next capture alike. -/
theorem Next.session (h : Next m n fw fw') : session fw' = session fw := by
  obtain ⟨past, hpast, rfl⟩ := h
  have hmail : mailbox past.follow = mailbox fw.ble.follow := hpast.mail
  simp only [Control.session, withPast, hpast.driver.tuned, hmail, hpast.rfswCtl.enabled,
    hpast.batcher.entries, hpast.batch.entries, hpast.outbox.counters, snBatchDropped,
    hpast.batcher.dropped]

theorem Next.configured (h : Next m n fw fw') : configured m fw = configured n fw' := by
  have hsession := h.session
  obtain ⟨past, hpast, rfl⟩ := h
  simp only [Control.configured, hsession, Prod.mk.injEq, true_and]
  exact ⟨hpast.driver.calls.same, hpast.hci.commands.same⟩

/-! ## Commands to the controller -/

theorem Next.hciCommand (h : Next m n fw fw') (opcode : UInt16) (params : List UInt8) :
    NextAnswer m n (hciCommand fw opcode params) (hciCommand fw' opcode params) := by
  obtain ⟨past, hpast, rfl⟩ := h
  have hnext : past.hci.next = fw.hci.next := hpast.hci.answers.now.symm
  have hpushed := hpast.hci.push ⟨opcode, params⟩
  have hnext' : (withPast past fw).hci.next = fw.hci.next := hnext
  unfold Ble.hciCommand
  rw [hnext']
  cases fw.hci.next with
  | noBuffer =>
      exact ⟨⟨{ past with hci := past.hci.push ⟨opcode, params⟩ }, { hpast with hci := hpushed },
        rfl⟩, rfl⟩
  | sendError code =>
      exact ⟨⟨{ past with hci := past.hci.push ⟨opcode, params⟩
                          slot := (CmdSlot.arm opcode).released },
        { hpast with hci := hpushed }, rfl⟩, rfl⟩
  | timedOut =>
      exact ⟨⟨{ past with
          hci := past.hci.push ⟨opcode, params⟩
          slot := (CmdSlot.arm opcode).released
          logs := past.logs ++ [.hciNeverCompleted opcode] },
        { hpast with hci := hpushed }, rfl⟩, rfl⟩
  | answered status =>
      exact ⟨⟨{ past with
          hci := past.hci.push ⟨opcode, params⟩
          slot := (((CmdSlot.arm opcode).credit opcode status).taken).released },
        { hpast with hci := hpushed }, rfl⟩, rfl⟩

theorem Next.sendCommand (h : Next m n fw fw') (opcode : UInt16) (params : List UInt8) :
    NextAnswer m n (sendCommand fw opcode params) (sendCommand fw' opcode params) := by
  obtain ⟨hnext, hanswer⟩ := h.hciCommand opcode params
  unfold Ble.sendCommand
  simp only [hanswer]
  refine ⟨?_, rfl⟩
  show Next m n (if _ then _ else _) (if _ then _ else _)
  split
  · exact hnext.logLine _
  · exact hnext

theorem NextAnswer.andThen {r r' : Firmware × Int} {next next' : Firmware → Firmware × Int}
    (h : NextAnswer m n r r')
    (hnext : ∀ fw fw', Next m n fw fw' → NextAnswer m n (next fw) (next' fw')) :
    NextAnswer m n (andThen r next) (andThen r' next') := by
  unfold Ble.andThen
  rw [h.2]
  split
  · exact hnext _ _ h.1
  · exact h

theorem Next.sendAll (h : Next m n fw fw') (cs : List HciCommand) :
    NextAnswer m n (sendAll fw cs) (sendAll fw' cs) := by
  induction cs generalizing fw fw' with
  | nil => exact ⟨h, rfl⟩
  | cons c cs ih => exact (h.sendCommand c.opcode c.params).andThen fun _ _ h => ih h

/-- What the commands of START are made of. -/
theorem Next.settings (h : Next m n fw fw') :
    fw'.ble.ready = fw.ble.ready ∧ fw'.ble.filter = fw.ble.filter ∧ fw'.ble.keys = fw.ble.keys ∧
      fw'.ble.keyCount = fw.ble.keyCount ∧ fw'.bleIntervalMs = fw.bleIntervalMs ∧
      fw'.bleWindowMs = fw.bleWindowMs ∧ fw'.blePhys = fw.blePhys := by
  obtain ⟨past, hpast, rfl⟩ := h
  exact ⟨rfl, rfl, rfl, rfl, rfl, rfl, rfl⟩

theorem Next.applyKeys (h : Next m n fw fw') :
    NextAnswer m n (applyKeys fw) (applyKeys fw') := by
  refine (h.sendCommand _ _).andThen fun fw₁ fw₁' h₁ => ?_
  refine (h₁.sendCommand _ _).andThen fun fw₂ fw₂' h₂ => ?_
  obtain ⟨-, -, hkeys, hcount, -⟩ := h₂.settings
  have hkey : ∀ i, keyAt fw₂'.ble i = keyAt fw₂.ble i := fun i => by rw [keyAt, keyAt, hkeys]
  simp only [hkey, hcount]
  refine (h₂.sendAll _).andThen fun fw₃ fw₃' h₃ => ?_
  rw [h₃.settings.2.2.2.1]
  split
  · exact h₃.sendCommand _ _
  · exact ⟨h₃, rfl⟩

theorem Next.applyFilter (h : Next m n fw fw') :
    NextAnswer m n (applyFilter fw) (applyFilter fw') := by
  refine h.applyKeys.andThen fun fw₁ fw₁' h₁ => ?_
  refine (h₁.sendCommand _ _).andThen fun fw₂ fw₂' h₂ => ?_
  rw [h₂.settings.2.1]
  exact h₂.sendAll _

theorem Next.scanSetup (h : Next m n fw fw') :
    NextAnswer m n (scanSetup fw) (scanSetup fw') :=
  (h.sendCommand _ _).andThen fun _ _ h =>
  (h.sendCommand _ _).andThen fun _ _ h =>
  (h.sendCommand _ _).andThen fun _ _ h =>
  (h.sendCommand _ _).andThen fun _ _ h => h.applyFilter

/-- The scan, legacy or extended: its parameters name the filter policy. -/
theorem Next.startScan (h : Next m n fw fw') (phys : UInt8) (interval window : UInt16) :
    NextAnswer m n
      (if phys = 0 then startLegacyScan fw interval window
       else startExtScan fw phys interval window)
      (if phys = 0 then startLegacyScan fw' interval window
       else startExtScan fw' phys interval window) := by
  have hpolicy : filterPolicy fw'.ble = filterPolicy fw.ble := by
    rw [filterPolicy, filterPolicy, h.settings.2.1]
  split
  · unfold startLegacyScan legacyScanParams
    rw [hpolicy]
    exact (h.sendCommand _ _).andThen fun _ _ h => h.sendCommand _ _
  · unfold startExtScan extScanParams
    rw [hpolicy]
    exact (h.sendCommand _ _).andThen fun _ _ h => h.sendCommand _ _

theorem Next.snRadioBleStart (h : Next m n fw fw') (intervalMs windowMs : UInt16) (phys : UInt8) :
    NextAnswer m n (snRadioBleStart fw intervalMs windowMs phys)
      (snRadioBleStart fw' intervalMs windowMs phys) := by
  unfold Ble.snRadioBleStart
  rw [h.settings.1]
  split
  · exact ⟨h, rfl⟩
  · refine h.scanSetup.andThen fun fw₁ fw₁' h₁ => ?_
    refine (h₁.startScan _ _ _).andThen fun fw₂ fw₂' h₂ => ?_
    obtain ⟨past, hpast, rfl⟩ := h₂
    exact ⟨⟨{ past with follow := (scanStarted { fw₂.ble with follow := past.follow }).follow },
      { hpast with mail := hpast.mail }, rfl⟩, rfl⟩

theorem Next.startBle (h : Next m n fw fw') :
    NextAnswer m n (startBle fw) (startBle fw') := by
  obtain ⟨-, -, -, -, hinterval, hwindow, hphys⟩ := h.settings
  obtain ⟨hnext, herr⟩ := h.snRadioBleStart fw.bleIntervalMs fw.bleWindowMs fw.blePhys
  unfold Control.startBle
  rw [hinterval, hwindow, hphys]
  simp only [herr]
  refine ⟨?_, rfl⟩
  show Next m n (if _ then _ else _) (if _ then _ else _)
  split
  · exact hnext.logLine _
  · exact hnext

/-! ## The stops -/

/-- A batch that is closed has nothing to send. -/
theorem Next.flushBatch (h : Next m n fw fw') :
    Option.Rel (Next m n) (flushBatch fw) (flushBatch fw') := by
  obtain ⟨past, hpast, rfl⟩ := h
  have hflush : ∀ (b : Batcher) (o : Outbox), b.count = 0 →
      Batch.snBatchFlush b o = some ({ b with lingerArmed := false }, o) := by
    intro b o hclosed
    exact if_pos hclosed
  have hfirst := hflush fw.batcher fw.outbox hpast.batcher.closed
  have hsecond := hflush past.batcher past.outbox hpast.batcher.closed'
  have hsecond' : Batch.snBatchFlush (withPast past fw).batcher (withPast past fw).outbox =
      some ({ past.batcher with lingerArmed := false }, past.outbox) := hsecond
  unfold Control.flushBatch
  rw [hfirst, hsecond']
  refine .some ⟨{ past with batcher := { past.batcher with lingerArmed := false } },
    { hpast with batcher := ?_ }, rfl⟩
  exact ⟨hpast.batcher.closed, hpast.batcher.closed', hpast.batcher.entries,
    hpast.batcher.dropped⟩

theorem Next.stop154 (h : Next m n fw fw') :
    Option.Rel (NextAnswer m n) (stop154 fw) (stop154 fw') := by
  obtain ⟨hradio, herr⟩ := h.radio.stop
  refine rel_map (h.withRadio hradio).flushBatch fun _ _ hnext => ⟨hnext, herr⟩

theorem Next.stopBle (h : Next m n fw fw') :
    Option.Rel (NextAnswer m n) (stopBle fw) (stopBle fw') := by
  have hready := h.settings.1
  obtain ⟨past, hpast, rfl⟩ := h
  have hflush : ∀ (s : BleRadio) (o : Outbox), s.batch.count = 0 →
      stopFlush s o = some (setLinger s false, o) := by
    intro s o hclosed
    exact if_pos hclosed
  have hfirst := hflush (stopCapture fw.ble) fw.outbox hpast.batch.closed
  have hsecond := hflush (stopCapture (withPast past fw).ble) (withPast past fw).outbox
    hpast.batch.closed'
  unfold Control.stopBle
  rw [hready]
  split
  · unfold snRadioBleStop
    rw [hfirst, hsecond]
    refine .some (Next.sendCommand ?_ opReset [])
    refine ⟨{ past with
        batch := { past.batch with lingerArmed := false }
        follow := { past.follow with syncCount := 0, bigSynced := false } },
      { hpast with batch := ?_, mail := hpast.mail }, rfl⟩
    exact ⟨hpast.batch.closed, hpast.batch.closed', hpast.batch.entries⟩
  · exact .some ⟨⟨past, hpast, rfl⟩, rfl⟩

theorem Next.stopRadio (h : Next m n fw fw') (radio : UInt8) :
    Option.Rel (NextAnswer m n) (stopRadio fw radio) (stopRadio fw' radio) := by
  unfold Control.stopRadio
  split
  · exact h.stopBle
  · exact h.stop154

/-! ## The host's frames -/

theorem Next.selectedRadio (h : Next m n fw fw') : fw'.selectedRadio = fw.selectedRadio := by
  obtain ⟨past, hpast, rfl⟩ := h
  rfl

theorem Next.onSetRadio (h : Next m n fw fw') (p : Platform) (command : UInt8) (value : UInt32) :
    Option.Rel (Next m n) (onSetRadio p fw command value) (onSetRadio p fw' command value) := by
  have hselect : ∀ fw fw', Next m n fw fw' →
      Next m n (Control.reply p { fw with selectedRadio := value.toUInt8 } command .ok value)
        (Control.reply p { fw' with selectedRadio := value.toUInt8 } command .ok value) := by
    rintro fw _ ⟨past, hpast, rfl⟩
    have hselected : Next m n { fw with selectedRadio := value.toUInt8 }
        { withPast past fw with selectedRadio := value.toUInt8 } :=
      ⟨past, { hpast with }, rfl⟩
    exact hselected.reply p command .ok value
  unfold Control.onSetRadio
  rw [h.selectedRadio]
  split
  · exact .some (h.reply p command .badValue value)
  · refine rel_map ?_ hselect
    split
    · exact rel_map (h.stopRadio fw.selectedRadio) fun _ _ hr => hr.1
    · exact .some h

theorem Next.tuneAndStart (h : Next m n fw fw') (value : UInt32) :
    NextAnswer m n (tuneAndStart fw value) (tuneAndStart fw' value) := by
  obtain ⟨htuned, herr⟩ := h.radio.setChannel value.toUInt8
  obtain ⟨hstarted, herr'⟩ := htuned.start
  unfold Control.tuneAndStart
  simp only [herr, herr']
  split
  · exact ⟨h.withRadio htuned, rfl⟩
  · split
    · exact ⟨(h.withRadio hstarted).logLine _, rfl⟩
    · exact ⟨(h.withRadio hstarted).logLine _, rfl⟩

theorem Next.onSetChannel (h : Next m n fw fw') (p : Platform) (command : UInt8)
    (value : UInt32) :
    Option.Rel (Next m n) (onSetChannel p fw command value)
      (onSetChannel p fw' command value) := by
  unfold Control.onSetChannel
  rw [h.selectedRadio]
  split
  · exact .some (h.reply p command .badValue value)
  · refine rel_map h.flushBatch fun fw fw' h => ?_
    obtain ⟨hnext, hstatus⟩ := h.tuneAndStart value
    rw [hstatus]
    exact hnext.reply p command _ value

theorem Next.onStart (h : Next m n fw fw') (p : Platform) (command : UInt8) :
    Next m n (onStart p fw command) (onStart p fw' command) := by
  have hselected := h.selectedRadio
  unfold Control.onStart
  by_cases hble : fw.selectedRadio = radioBle
  · rw [if_pos hble, if_pos (hselected.trans hble)]
    obtain ⟨hnext, herr⟩ := h.startBle
    rw [herr]
    exact hnext.reply p command _ 0
  · rw [if_neg hble, if_neg (hselected ▸ hble)]
    obtain ⟨hradio, herr⟩ := h.radio.start
    simp only [herr]
    exact (h.withRadio hradio).reply p command _ 0

theorem Next.onStop (h : Next m n fw fw') (p : Platform) (command : UInt8) :
    Option.Rel (Next m n) (onStop p fw command) (onStop p fw' command) := by
  unfold Control.onStop
  rw [h.selectedRadio]
  refine rel_map (h.stopRadio fw.selectedRadio) ?_
  rintro ⟨fw, err⟩ ⟨fw', err'⟩ ⟨hnext, herr⟩
  cases herr
  exact hnext.reply p command _ 0

theorem Next.switchAntenna (h : Next m n fw fw') (onboard : Bool) :
    NextAnswer m n (switchAntenna fw onboard) (switchAntenna fw' onboard) := by
  obtain ⟨past, hpast, rfl⟩ := h
  obtain ⟨hset, hswitch⟩ := hpast.rfswCtl.set onboard
  have hready : (withPast past fw).rfswCtl.ready = fw.rfswCtl.ready := hpast.rfswCtl.ready
  have henabled : (withPast past fw).rfswCtl.enabled = fw.rfswCtl.enabled := hpast.rfswCtl.enabled
  unfold Control.switchAntenna
  rw [hready, henabled]
  split
  · exact ⟨⟨past, hpast, rfl⟩, rfl⟩
  · split
    · exact ⟨⟨past, hpast, rfl⟩, rfl⟩
    · exact ⟨⟨{ past with rfswCtl := (past.rfswCtl.set onboard).1 },
        { hpast with rfswCtl := hswitch }, rfl⟩, hset⟩

theorem Next.setAntenna (h : Next m n fw fw') (value : UInt32) :
    NextAnswer m n (setAntenna fw value) (setAntenna fw' value) := by
  unfold Control.setAntenna
  split
  · exact ⟨h, rfl⟩
  · exact h.switchAntenna _

theorem Next.freshSession (h : Next m n fw fw') :
    Next m n (freshSession fw) (freshSession fw') := by
  refine (Next.setAntenna ?_ 0).1
  obtain ⟨past, hpast, rfl⟩ := h
  refine ⟨{ past with
      batcher := Batch.snBatchResetCounters past.batcher
      outbox := { past.outbox with counters := {} } },
    { hpast with batcher := ?_, outbox := ?_ }, rfl⟩
  · exact ⟨hpast.batcher.closed, hpast.batcher.closed', hpast.batcher.entries, rfl⟩
  · exact ⟨hpast.outbox.answers, rfl⟩

theorem Next.onGetInfo (h : Next m n fw fw') (p : Platform) (command : UInt8) :
    Option.Rel (Next m n) (onGetInfo p fw command) (onGetInfo p fw' command) := by
  refine rel_map (R := Next m n) ?_ fun fw fw' h => h.freshSession.reply p command .ok _
  refine rel_bind (h.stopRadio radio154) fun r r' hr => ?_
  exact rel_map (hr.1.stopRadio radioBle) fun _ _ hr => hr.1

theorem Next.onEnergyDetect (h : Next m n fw fw') (p : Platform) (command : UInt8)
    (value : UInt32) :
    Next m n (onEnergyDetect p fw command value) (onEnergyDetect p fw' command value) := by
  obtain ⟨hradio, hreading⟩ :=
    h.radio.energyDetect (value &&& 0xFF).toUInt8 (value >>> 8)
  have hselected := h.selectedRadio
  unfold Control.onEnergyDetect
  by_cases hble : fw.selectedRadio = radioBle
  · rw [if_pos hble, if_pos (hselected.trans hble)]
    exact h.reply p command .badValue value
  · rw [if_neg hble, if_neg (hselected ▸ hble)]
    simp only [hreading]
    split
    · exact (h.withRadio hradio).reply p command .badValue value
    · split
      · exact ((h.withRadio hradio).logLine _).reply p command .failed value
      · exact (h.withRadio hradio).reply p command .ok _

theorem Next.onCommand (h : Next m n fw fw') (p : Platform) (command : UInt8) (value : UInt32) :
    Option.Rel (Next m n) (onCommand p fw command value) (onCommand p fw' command value) := by
  unfold Control.onCommand
  cases p.command command with
  | setRadio => exact h.onSetRadio p command value
  | setBlePhys =>
      refine .some ?_
      unfold onSetBlePhys
      split
      · exact h.reply p command .badValue value
      · obtain ⟨past, hpast, rfl⟩ := h
        refine Next.reply ?_ p command .ok value
        exact ⟨past, { hpast with }, rfl⟩
  | setBlePeriodic =>
      obtain ⟨past, hpast, rfl⟩ := h
      refine .some (Next.reply ?_ p command .ok value)
      exact ⟨past, { hpast with }, rfl⟩
  | setBleScan =>
      obtain ⟨past, hpast, rfl⟩ := h
      refine .some (Next.reply ?_ p command .ok value)
      exact ⟨past, { hpast with }, rfl⟩
  | setChannel => exact h.onSetChannel p command value
  | start => exact .some (h.onStart p command)
  | stop => exact h.onStop p command
  | getInfo => exact h.onGetInfo p command
  | setAntenna =>
      obtain ⟨hnext, herr⟩ := h.setAntenna value
      simp only [onSetAntenna, herr]
      exact .some (hnext.reply p command _ value)
  | energyDetect => exact .some (h.onEnergyDetect p command value)
  | unknown => exact .some (h.reply p command .unknownCommand 0)

theorem Next.snRadioBleSetKeys (h : Next m n fw fw') (payload : List UInt8) :
    Option.Rel (NextAnswer m n) (snRadioBleSetKeys fw payload) (snRadioBleSetKeys fw' payload) := by
  unfold Ble.snRadioBleSetKeys
  split
  · exact .some ⟨h.logLine _, rfl⟩
  · cases badAddressType payload with
    | some type => exact .some ⟨h.logLine _, rfl⟩
    | none =>
        cases (ByteBuffer.zero (maxKeys * keyEntry)).write 0 payload with
        | none => exact .none
        | some keys =>
            obtain ⟨past, hpast, rfl⟩ := h
            refine .some ⟨Next.logLine ?_ _, rfl⟩
            exact ⟨past, { hpast with }, rfl⟩

/-- A frame of the host. -/
theorem Next.snControlHandle (h : Next m n fw fw') (p : Platform) (type : FrameType)
    (payload : List UInt8) :
    Option.Rel (Next m n) (snControlHandle p fw type payload)
      (snControlHandle p fw' type payload) := by
  unfold Control.snControlHandle
  split
  · obtain ⟨past, hpast, rfl⟩ := h
    exact .some ⟨past, { hpast with }, rfl⟩
  · exact rel_map (h.snRadioBleSetKeys _) fun _ _ hr => hr.1
  · exact h.onCommand p _ _
  · exact .some h

/-- A row of them. -/
theorem Next.hostFrames (h : Next m n fw fw') (p : Platform)
    (frames : List (FrameType × List UInt8)) :
    Option.Rel (Next m n) ((machine p).run fw (hostFrames frames))
      ((machine p).run fw' (hostFrames frames)) := by
  induction frames generalizing fw fw' with
  | nil => exact .some h
  | cons f frames ih =>
      exact rel_bind (h.snControlHandle p f.1 f.2) fun _ _ h => ih h

/-! ## Two boards with the same session -/

/-- Both batches are closed. -/
structure BatchesClosed (fw : Firmware) : Prop where
  batcher : fw.batcher.count = 0
  batch : fw.ble.batch.count = 0

/-- The past of a board. -/
def past (fw : Firmware) : Past where
  driver := fw.radio.driver
  measuring := fw.radio.measuring
  batcher := fw.batcher
  batch := fw.ble.batch
  follow := fw.ble.follow
  slot := fw.slot
  hci := fw.hci
  outbox := fw.outbox
  rfswCtl := fw.rfswCtl
  logs := fw.logs
  tick := fw.tick

theorem withPast_ble {s s' : BleRadio}
    (h : (s.stats, s.running, s.ready, s.periodicEnabled, s.filter, s.keys.bytes, s.keyCount) =
      (s'.stats, s'.running, s'.ready, s'.periodicEnabled, s'.filter, s'.keys.bytes,
        s'.keyCount)) :
    { s with batch := s'.batch, follow := s'.follow } = s' := by
  obtain ⟨batch, stats, follow, running, ready, periodicEnabled, filter, ⟨bytes, hbytes⟩,
    keyCount⟩ := s
  obtain ⟨_, _, _, _, _, _, _, ⟨_, _⟩, _⟩ := s'
  simp only [Prod.mk.injEq] at h
  obtain ⟨rfl, rfl, rfl, rfl, rfl, rfl, rfl⟩ := h
  rfl

theorem withPast_radio {r r' : Radio}
    (h : (r.currentChannel, r.captured, r.fcsFailed, r.running) =
      (r'.currentChannel, r'.captured, r'.fcsFailed, r'.running)) :
    { r with driver := r'.driver, measuring := r'.measuring } = r' := by
  cases r
  cases r'
  simp only [Prod.mk.injEq] at h
  obtain ⟨rfl, rfl, rfl, rfl⟩ := h
  rfl

/-- Two boards with the same session differ in their past at most. -/
theorem withPast_of_session {t t' : Firmware} (hsession : session t = session t')
    (hready : t.ble.ready = t'.ble.ready) : t' = withPast (past t') t := by
  simp only [session, Session.mk.injEq] at hsession
  obtain ⟨hselected, hrunning, hble, hchannel, -, hphys, hinterval, hwindow, hperiodic, hfilter,
    hkeys, hcount, -, -, -, -, hcaptured, hfcs, -, hstats, -⟩ := hsession
  have hradio := @withPast_radio t.radio t'.radio (by rw [hchannel, hcaptured, hfcs, hrunning])
  have hble := @withPast_ble t.ble t'.ble
    (by rw [hstats, hble, hready, hperiodic, hfilter, hkeys, hcount])
  unfold withPast past
  dsimp only
  rw [hradio, hble, hselected, hinterval, hwindow, hphys]

/-- Two boards that agree on the session and will be answered alike. -/
theorem next_of_session {t t' : Firmware} (hsession : session t = session t')
    (hready : t.ble.ready = t'.ble.ready ∧ t.rfswCtl.ready = t'.rfswCtl.ready)
    (hclosed : BatchesClosed t) (hclosed' : BatchesClosed t') (hanswers : AnsweredAlike t t') :
    Next (marks t) (marks t') t t' := by
  refine ⟨past t', ?_, withPast_of_session hsession hready.1⟩
  exact {
    driver := ⟨hanswers.driver, hanswers.completions, .here _ _,
      (congrArg Session.tuned hsession).symm⟩
    batcher := ⟨hclosed.batcher, hclosed'.batcher, (congrArg Session.openBatch hsession).symm,
      (congrArg Session.droppedPackets hsession).symm⟩
    batch := ⟨hclosed.batch, hclosed'.batch, (congrArg Session.openBleBatch hsession).symm⟩
    mail := (congrArg Session.mail hsession).symm
    hci := ⟨hanswers.hci, .here _ _⟩
    outbox := ⟨hanswers.link, (congrArg Session.link hsession).symm⟩
    rfswCtl := ⟨hready.2.symm, hanswers.antenna,
      (congrArg Session.onboardAntenna hsession).symm⟩ }

/-- **The next capture.** The same frames, answered alike, configure the same
capture. -/
theorem configured_alike {p : Platform} {t t' : Firmware} (hholds : BatchesHold t)
    (h : Next (marks t) (marks t') t t') (frames : List (FrameType × List UInt8)) :
    ∃ u u', (machine p).run t (hostFrames frames) = some u ∧
      (machine p).run t' (hostFrames frames) = some u' ∧
      configured (marks t) u = configured (marks t') u' := by
  obtain ⟨u, hu⟩ := hostFrames_total (p := p) hholds frames
  have hrel := h.hostFrames p frames
  rw [hu] at hrel
  cases hu' : (machine p).run t' (hostFrames frames) with
  | none => rw [hu'] at hrel; cases hrel
  | some u' =>
      rw [hu'] at hrel
      cases hrel with
      | some hnext => exact ⟨u, u', hu, rfl, hnext.configured⟩

end Nrf54Sniffer.Control
