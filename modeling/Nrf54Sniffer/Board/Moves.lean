/-
Nrf54Sniffer.Board.Moves — what a command is made of.

Every command makes a row of moves and then one reply. A move is one of a dozen
changes: the 802.15.4 radio is called, a setting is stored, commands go to the
controller, a batch is flushed. Every input that is no host frame makes a row
of turns in the same way. What each move or turn keeps, a whole row of them
keeps (`row_keeps`), so a law about what the firmware leaves alone or hands
over is checked move by move and turn by turn, and once for the reply. `E` says
which measurements a row may have: a law that asks something of each of them
gives it.
-/
import Mathlib.Logic.Relation
import Nrf54Sniffer.Board.Effects

namespace Nrf54Sniffer.Board

open Nrf54Sniffer.Wire
open Nrf54Sniffer.Radio154
open Nrf54Sniffer.Ble
open Nrf54Sniffer.Control

variable {E : Radio → UInt8 → UInt32 → Prop}

/-! ## Moves -/

/-- One call of `radio154.c`. -/
inductive Called (E : Radio → UInt8 → UInt32 → Prop) : Radio → Radio → Prop
  | setChannel (r : Radio) (channel : UInt8) : Called E r (snRadio154SetChannel r channel).1
  | start (r : Radio) : Called E r (snRadio154Start r).1
  | stop (r : Radio) : Called E r (snRadio154Stop r).1
  | energyDetect {r : Radio} {channel : UInt8} {symbols : UInt32} (h : E r channel symbols) :
      Called E r (snRadio154EnergyDetect r channel symbols).1

/-- One change on the way to a reply. -/
inductive Move (E : Radio → UInt8 → UInt32 → Prop) : Firmware → Firmware → Prop
  | radio {fw : Firmware} {radio : Radio} (h : Called E fw.radio radio) : Move E fw { fw with radio }
  | selected (fw : Firmware) (selectedRadio : UInt8) : Move E fw { fw with selectedRadio }
  | phys (fw : Firmware) (blePhys : UInt8) : Move E fw { fw with blePhys }
  | timing (fw : Firmware) (bleIntervalMs bleWindowMs : UInt16) :
      Move E fw { fw with bleIntervalMs, bleWindowMs }
  | periodic (fw : Firmware) (enable : Bool) :
      Move E fw { fw with ble := snRadioBleSetPeriodic fw.ble enable }
  | antenna (fw : Firmware) (rfswCtl : Regulator) : Move E fw { fw with rfswCtl }
  | counters (fw : Firmware) : Move E fw (resetCounters fw)
  | hci {fw fw' : Firmware} (h : OnlyHci fw fw') : Move E fw fw'
  | scan (fw : Firmware) : Move E fw { fw with ble := scanStarted fw.ble }
  | flush {fw fw' : Firmware} (h : flushBatch fw = some fw') : Move E fw fw'
  | stopBle {fw : Firmware} {r : BleRadio × Outbox}
      (h : stopFlush (stopCapture fw.ble) fw.outbox = some r) : Move E fw (flushedStop fw r)

/-- A row of moves. -/
abbrev Moves (E : Radio → UInt8 → UInt32 → Prop) : Firmware → Firmware → Prop :=
  Relation.ReflTransGen (Move E)

/-- What every change of some kind keeps, a row of them keeps. -/
theorem row_keeps {S R : Firmware → Firmware → Prop} (hrefl : ∀ fw, R fw fw)
    (htrans : ∀ {fw fw' fw''}, R fw fw' → R fw' fw'' → R fw fw'')
    (hone : ∀ {fw fw'}, S fw fw' → R fw fw') {fw fw' : Firmware}
    (h : Relation.ReflTransGen S fw fw') : R fw fw' := by
  induction h with
  | refl => exact hrefl fw
  | tail _ hlast ih => exact htrans ih (hone hlast)

theorem Move.row {fw fw' : Firmware} (h : Move E fw fw') : Moves E fw fw' := .single h

theorem logLine_moves (fw : Firmware) (line : LogLine) : Moves E fw (fw.logLine line) :=
  Move.row (.hci (.logLine fw line))

/-! ## The stops -/

theorem stop154_moves {fw fw' : Firmware} {err : Int} (h : stop154 fw = some (fw', err)) :
    Moves E fw fw' := by
  obtain ⟨fw₁, hflush, heq⟩ := Option.map_eq_some_iff.mp h
  cases heq
  exact (Move.radio (.stop fw.radio)).row.tail (.flush hflush)

theorem stopBle_moves {fw fw' : Firmware} {err : Int} (h : stopBle fw = some (fw', err)) :
    Moves E fw fw' := by
  unfold stopBle at h
  split at h
  · obtain ⟨r, hflush, heq⟩ := Option.map_eq_some_iff.mp h
    have hsent := sendCommand_onlyHci (flushedStop fw r) opReset []
    rw [heq] at hsent
    exact (Move.stopBle hflush).row.tail (.hci hsent)
  · cases h
    exact .refl

theorem stopRadio_moves {fw fw' : Firmware} {radio : UInt8} {err : Int}
    (h : stopRadio fw radio = some (fw', err)) : Moves E fw fw' := by
  unfold stopRadio at h
  split at h
  · exact stopBle_moves h
  · exact stop154_moves h

theorem stopBoth_moves {fw fw' : Firmware} (h : stopBoth fw = some fw') : Moves E fw fw' := by
  obtain ⟨⟨fw₁, err₁⟩, hfirst, hrest⟩ := Option.bind_eq_some_iff.mp h
  obtain ⟨⟨fw₂, err₂⟩, hsecond, heq⟩ := Option.map_eq_some_iff.mp hrest
  cases heq
  exact (stopRadio_moves hfirst).trans (stopRadio_moves hsecond)

/-! ## The rest of each command -/

theorem setAntenna_moves (fw : Firmware) (value : UInt32) : Moves E fw (setAntenna fw value).1 := by
  unfold setAntenna switchAntenna
  split
  · exact .refl
  · split
    · exact .refl
    · split
      · exact .refl
      · exact (Move.antenna fw _).row

theorem freshSession_moves (fw : Firmware) : Moves E fw (freshSession fw) := by
  have hselected : Move E fw _ := .selected fw radio154
  have hcounters : Move E _ _ := .counters { fw with selectedRadio := radio154 }
  refine .trans (hselected.row.tail hcounters) ?_
  have hphys : Move E _ _ := .phys (resetCounters { fw with selectedRadio := radio154 }) 1
  exact ((hphys.row.tail (.timing _ 0 0)).tail (.periodic _ false)).trans (setAntenna_moves _ 0)

theorem tuneAndStart_moves (fw : Firmware) (value : UInt32) :
    Moves E fw (tuneAndStart fw value).1 := by
  have htuned : Moves E fw { fw with radio := (snRadio154SetChannel fw.radio value.toUInt8).1 } :=
    (Move.radio (.setChannel fw.radio value.toUInt8)).row
  have hstarted := htuned.tail (.radio (.start _))
  unfold tuneAndStart
  dsimp only
  split
  · exact htuned
  · split
    · exact hstarted.trans (logLine_moves _ _)
    · exact hstarted.trans (logLine_moves _ _)

theorem startBle_moves (fw : Firmware) : Moves E fw (startBle fw).1 := by
  obtain ⟨fw', honly, hcases⟩ :=
    snRadioBleStart_cases fw fw.bleIntervalMs fw.bleWindowMs fw.blePhys
  have hstart : Moves E fw (snRadioBleStart fw fw.bleIntervalMs fw.bleWindowMs fw.blePhys).1 := by
    rcases hcases with heq | heq
    · rw [heq]
      exact (Move.hci honly).row
    · rw [heq]
      exact (Move.hci honly).row.tail (.scan fw')
  unfold startBle
  dsimp only
  split
  · exact hstart.trans (logLine_moves _ _)
  · exact hstart

/-! ## Every command -/

/-- A row of moves, then one reply to the command. -/
def Replied (E : Radio → UInt8 → UInt32 → Prop) (p : Platform) (fw fw' : Firmware)
    (command : UInt8) : Prop :=
  ∃ fw₁ status value, Moves E fw fw₁ ∧ fw' = reply p fw₁ command status value

theorem replied_of_moves {p : Platform} {fw fw' : Firmware} {command : UInt8} {status : Status}
    {value : UInt32} (h : Moves E fw fw') :
    Replied E p fw (reply p fw' command status value) command :=
  ⟨fw', status, value, h, rfl⟩

theorem onSetRadio_replied {p : Platform} {fw fw' : Firmware} {command : UInt8} {value : UInt32}
    (h : onSetRadio p fw command value = some fw') : Replied E p fw fw' command := by
  unfold onSetRadio at h
  split at h
  · cases h
    exact replied_of_moves .refl
  · obtain ⟨fw₁, hstopped, heq⟩ := Option.map_eq_some_iff.mp h
    cases heq
    have hmoves : Moves E fw fw₁ := by
      split at hstopped
      · obtain ⟨⟨fw₂, err⟩, hstop, heq⟩ := Option.map_eq_some_iff.mp hstopped
        cases heq
        exact stopRadio_moves hstop
      · cases hstopped
        exact .refl
    exact replied_of_moves (hmoves.tail (.selected fw₁ value.toUInt8))

theorem onSetBlePhys_replied (p : Platform) (fw : Firmware) (command : UInt8) (value : UInt32) :
    Replied E p fw (onSetBlePhys p fw command value) command := by
  unfold onSetBlePhys
  split
  · exact replied_of_moves .refl
  · exact replied_of_moves (Move.phys fw value.toUInt8).row

theorem onSetChannel_replied {p : Platform} {fw fw' : Firmware} {command : UInt8} {value : UInt32}
    (h : onSetChannel p fw command value = some fw') : Replied E p fw fw' command := by
  unfold onSetChannel at h
  split at h
  · cases h
    exact replied_of_moves .refl
  · obtain ⟨fw₁, hflush, heq⟩ := Option.map_eq_some_iff.mp h
    cases heq
    exact replied_of_moves ((Move.flush hflush).row.trans (tuneAndStart_moves fw₁ value))

theorem onStart_replied (p : Platform) (fw : Firmware) (command : UInt8) :
    Replied E p fw (onStart p fw command) command := by
  unfold onStart
  split
  · exact replied_of_moves (startBle_moves fw)
  · exact replied_of_moves (Move.radio (.start fw.radio)).row

theorem onStop_replied {p : Platform} {fw fw' : Firmware} {command : UInt8}
    (h : onStop p fw command = some fw') : Replied E p fw fw' command := by
  obtain ⟨⟨fw₁, err⟩, hstop, heq⟩ := Option.map_eq_some_iff.mp h
  cases heq
  exact replied_of_moves (stopRadio_moves hstop)

theorem onGetInfo_replied {p : Platform} {fw fw' : Firmware} {command : UInt8}
    (h : onGetInfo p fw command = some fw') : Replied E p fw fw' command := by
  obtain ⟨fw₁, hboth, heq⟩ := Option.map_eq_some_iff.mp h
  cases heq
  exact replied_of_moves ((stopBoth_moves hboth).trans (freshSession_moves fw₁))

/-- The measurement a command makes is one that `E` allows. -/
def Measures (E : Radio → UInt8 → UInt32 → Prop) (p : Platform) (fw : Firmware) (command : UInt8)
    (value : UInt32) : Prop :=
  p.command command = .energyDetect → fw.selectedRadio ≠ radioBle →
    E fw.radio (value &&& 0xFF).toUInt8 (value >>> 8)

theorem onEnergyDetect_replied {p : Platform} {fw : Firmware} {command : UInt8} {value : UInt32}
    (hE : fw.selectedRadio ≠ radioBle → E fw.radio (value &&& 0xFF).toUInt8 (value >>> 8)) :
    Replied E p fw (onEnergyDetect p fw command value) command := by
  unfold onEnergyDetect
  split
  · exact replied_of_moves .refl
  · rename_i h154
    have hmeasured := (Move.radio (.energyDetect (hE h154))).row
    dsimp only
    split
    · exact replied_of_moves hmeasured
    · split
      · exact replied_of_moves (hmeasured.trans (logLine_moves _ _))
      · exact replied_of_moves hmeasured

/-- **Every command makes its moves and then replies, once.** -/
theorem onCommand_replied {p : Platform} {fw fw' : Firmware} {command : UInt8} {value : UInt32}
    (hE : Measures E p fw command value) (h : onCommand p fw command value = some fw') :
    Replied E p fw fw' command := by
  unfold onCommand at h
  cases hcommand : p.command command with
  | setRadio => simp only [hcommand] at h; exact onSetRadio_replied h
  | setBlePhys => simp only [hcommand] at h; cases h; exact onSetBlePhys_replied p fw command value
  | setBlePeriodic =>
      simp only [hcommand] at h
      cases h
      exact replied_of_moves (Move.periodic fw _).row
  | setBleScan =>
      simp only [hcommand] at h
      cases h
      exact replied_of_moves (Move.timing fw _ _).row
  | setChannel => simp only [hcommand] at h; exact onSetChannel_replied h
  | start => simp only [hcommand] at h; cases h; exact onStart_replied p fw command
  | stop => simp only [hcommand] at h; exact onStop_replied h
  | getInfo => simp only [hcommand] at h; exact onGetInfo_replied h
  | setAntenna =>
      simp only [hcommand] at h
      cases h
      exact replied_of_moves (setAntenna_moves fw value)
  | energyDetect =>
      simp only [hcommand] at h
      cases h
      exact onEnergyDetect_replied (hE hcommand)
  | unknown => simp only [hcommand] at h; cases h; exact replied_of_moves .refl

/-! ## The other threads -/

/-- One change of the radios, the work items, the timers, `stats_tick` or the
logging thread. -/
inductive Turn : Firmware → Firmware → Prop
  | receive {fw fw' : Firmware} {pkt : Option NetPkt} (h : receive fw pkt = some fw') : Turn fw fw'
  | packet {fw fw' : Firmware} {h4 : UInt8} {data : List UInt8} {now : Readings}
      (h : fwdLoop fw h4 data now = some fw') : Turn fw fw'
  | batchLinger {fw fw' : Firmware} (h : batchLinger fw = some fw') : Turn fw fw'
  | bleLinger {fw fw' : Firmware} (h : bleLinger fw = some fw') : Turn fw fw'
  | radioEvent (fw : Firmware) (event : RadioEvent) :
      Turn fw { fw with radio := radioEvent fw.radio event }
  | hci {fw fw' : Firmware} (h : OnlyHci fw fw') : Turn fw fw'
  | follow (fw : Firmware) (follow : Following) : Turn fw { fw with ble := { fw.ble with follow } }
  | tick (fw : Firmware) (tick : StatsTick) : Turn fw { fw with tick }
  | send (fw : Firmware) (f : Frame) (hf : f.type = .stats ∨ f.type = .link ∨ f.type = .log) :
      Turn fw { fw with outbox := (fw.outbox.send f).1 }

/-- A row of turns. -/
abbrev Turns : Firmware → Firmware → Prop := Relation.ReflTransGen Turn

theorem Turn.row {fw fw' : Firmware} (h : Turn fw fw') : Turns fw fw' := .single h

theorem onlyFollow_turns {fw fw' : Firmware} (h : OnlyFollow fw fw') : Turns fw fw' := by
  obtain ⟨hci, slot, logs, n, follow, rfl⟩ := h
  exact (Turn.hci ⟨hci, slot, logs, n, rfl⟩).row.tail
    (.follow (withHci fw hci slot logs n) follow)

theorem processLog_turns {p : Platform} {fw fw' : Firmware} (h : processLog p fw = some fw') :
    Turns fw fw' := by
  have hpieces : ∀ (pieces : List (List UInt8)) (fw : Firmware),
      Turns fw { fw with outbox := sendLog fw.outbox pieces } := by
    intro pieces
    induction pieces with
    | nil => intro fw; exact .refl
    | cons piece pieces ih =>
        intro fw
        exact (Turn.send fw ⟨.log, piece⟩ (.inr (.inr rfl))).row.trans (ih _)
  unfold processLog at h
  split at h
  · cases h
  · rename_i line logs _
    cases h
    exact (Turn.hci ⟨fw.hci, fw.slot, logs, fw.ble.stats.commandTimeouts, rfl⟩).row.trans
      (hpieces _ { fw with logs })

/-- **Every input but a host frame is a row of turns.** -/
theorem step_turns {p : Platform} {fw fw' : Firmware} {i : Input}
    (hi : ∀ type payload, i ≠ .hostFrame type payload) (h : step p fw i = some fw') :
    Turns fw fw' := by
  cases i with
  | hostFrame type payload => exact absurd rfl (hi type payload)
  | received pkt => exact (Turn.receive h).row
  | radioEvent event => cases h; exact (Turn.radioEvent fw event).row
  | hciPacket h4 data now =>
      simp only [step] at h
      split at h
      · exact (Turn.packet h).row
      · cases h
  | batchLinger => exact (Turn.batchLinger h).row
  | bleLinger => exact (Turn.bleLinger h).row
  | syncWork => exact onlyFollow_turns (syncWorkFn_onlyFollow h)
  | bigWork uptime =>
      simp only [step] at h
      split at h
      · cases h
        exact onlyFollow_turns (bigWorkFn_onlyFollow fw uptime)
      · cases h
  | isoPathWork => exact onlyFollow_turns (isoPathWorkFn_onlyFollow h)
  | statsRead =>
      obtain ⟨_, rfl⟩ := statsRead_eq h
      exact (Turn.tick fw _).row
  | linkRead queued =>
      obtain ⟨_, rfl⟩ := linkRead_eq h
      exact (Turn.tick fw _).row
  | tickSend =>
      obtain ⟨f, hf, rfl⟩ := tickSend_eq h
      have htype : f.type = .stats ∨ f.type = .link ∨ f.type = .log :=
        (StatsTick.frame_type hf).imp_right .inl
      exact (Turn.tick fw fw.tick.sent).row.tail (.send { fw with tick := fw.tick.sent } f htype)
  | log => exact processLog_turns h

/-! ## Host frames -/

/-- A host frame stores the filter, offers keys, is a command, or does
nothing. -/
inductive Handled (p : Platform) (fw : Firmware) : FrameType → List UInt8 → Firmware → Prop
  | filter (payload : List UInt8) :
      Handled p fw .bleFilter payload { fw with ble := snRadioBleSetFilter fw.ble payload }
  | keys {payload : List UInt8} {fw' : Firmware} {err : Int}
      (h : snRadioBleSetKeys fw payload = some (fw', err)) : Handled p fw .bleKeys payload fw'
  | command {command b0 b1 b2 b3 : UInt8} {rest : List UInt8} {fw' : Firmware}
      (h : onCommand p fw command (getLe32 b0 b1 b2 b3) = some fw') :
      Handled p fw .controlCmd (command :: b0 :: b1 :: b2 :: b3 :: rest) fw'
  | ignored {type : FrameType} {payload : List UInt8} (hfilter : type ≠ .bleFilter)
      (hkeys : type ≠ .bleKeys) (hshort : type = .controlCmd → payload.length < 5) :
      Handled p fw type payload fw

theorem snControlHandle_handled {p : Platform} {fw fw' : Firmware} {type : FrameType}
    {payload : List UInt8} (h : snControlHandle p fw type payload = some fw') :
    Handled p fw type payload fw' := by
  unfold snControlHandle at h
  split at h
  · cases h
    exact .filter _
  · obtain ⟨⟨fw₁, err⟩, hset, heq⟩ := Option.map_eq_some_iff.mp h
    cases heq
    exact .keys hset
  · exact .command h
  · rename_i hfilter hkeys hcommand
    cases h
    refine .ignored hfilter hkeys fun htype => ?_
    subst htype
    match payload, hcommand with
    | [], _ | [_], _ | [_, _], _ | [_, _, _], _ | [_, _, _, _], _ => simp
    | command :: b0 :: b1 :: b2 :: b3 :: rest, hcommand =>
        exact absurd rfl (hcommand command b0 b1 b2 b3 rest rfl)

end Nrf54Sniffer.Board
