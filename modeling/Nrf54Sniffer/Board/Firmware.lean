/-
Nrf54Sniffer.Board.Firmware — the whole firmware's state.

`Firmware` gathers the statics of every file: `control.c`'s settings, the two
radios, the 802.15.4 batcher, the command slot, and the four things outside
that answer calls (the 802.15.4 driver, the controller, the antenna switch and
the link). The threads that share it take turns here, a whole call at a time;
where their interleaving matters, a machine of its own has the steps.

A log line is kept as what it says and formatted when the logging thread gets
to it. `Platform` holds what the two submodule headers and the log library
fix: the numbers of the commands and of the statuses, and the text of a line.
-/
import Nrf54Sniffer.Ble.Hci
import Nrf54Sniffer.Ble.Forward
import Nrf54Sniffer.Radio154.Radio

namespace Nrf54Sniffer.Board

open Nrf54Sniffer.Wire
open Nrf54Sniffer.Batch (Batcher)
open Nrf54Sniffer.Radio154 (Radio Driver Completion)
open Nrf54Sniffer.Ble (BleRadio HciBus HciAnswer CmdSlot)

/-- The lines the firmware logs, by what they say. -/
inductive LogLine where
  | controllerWouldNotStart
  | linkUp (mode : Nat) (firmware : UInt32)
  | channelWouldNotStart (channel : UInt32)
  | channelReceiving (channel : UInt32)
  | bleScanWouldNotStart (err : Int)
  | energyDetectionFailed (channel : UInt32) (err : Int)
  | hciNeverCompleted (opcode : UInt16)
  | hciRefused (opcode : UInt16) (status : UInt8)
  | keysRejectedLength (len : Nat)
  | keysRejectedType (type : UInt8)
  | deviceKeys (count : Nat)
  deriving DecidableEq, Repr

/-- The commands this board honours; the header names more. -/
inductive Command where
  | setRadio
  | setBlePhys
  | setBlePeriodic
  | setBleScan
  | setChannel
  | start
  | stop
  | getInfo
  | setAntenna
  | energyDetect
  | unknown
  deriving DecidableEq, Repr

/-- `SN_STATUS_*`. -/
inductive Status where
  | ok
  | badValue
  | failed
  | unknownCommand
  deriving DecidableEq, Repr

/-- What is fixed outside these files. -/
structure Platform where
  command : UInt8 → Command
  status : Status → UInt8
  format : LogLine → List (List UInt8)

/-- `rfsw_ctl`, the fixed regulator behind the antenna switch: whether it came
up, its answers, the calls so far, and whether it is on. On is the onboard
antenna. -/
structure Regulator where
  ready : Bool
  answers : Nat → Int
  calls : Nat := 0
  enabled : Bool := true

/-- `regulator_enable` and `regulator_disable`. -/
def Regulator.set (r : Regulator) (on : Bool) : Regulator × Int :=
  let err := r.answers r.calls
  ({ r with calls := r.calls + 1, enabled := if err = 0 then on else r.enabled }, err)

/-- `RADIO_154` and `RADIO_BLE`. -/
def radio154 : UInt8 := 0
def radioBle : UInt8 := 2

/-- `SN_FIRMWARE_VERSION`. -/
def snFirmwareVersion : UInt32 := 7

/-- `SN_MODE_CAPTURE`. -/
def snModeCapture : Nat := 2

/-- Where `stats_tick` is: what it has read and not handed over yet. Other
threads may run in between, since the counters are read before `encode_lock` is
asked for. -/
inductive StatsTick where
  | idle
  | stats (fields : List Nat)
  /-- STATS is handed over, and `link` not read yet. -/
  | between
  | link (fields : List Nat)

/-- Every static of the firmware, and where `stats_tick` is. -/
structure Firmware where
  selectedRadio : UInt8 := radio154
  bleIntervalMs : UInt16 := 0
  bleWindowMs : UInt16 := 0
  blePhys : UInt8 := 1
  rfswCtl : Regulator
  radio : Radio
  batcher : Batcher := {}
  ble : BleRadio
  slot : CmdSlot := {}
  hci : HciBus
  outbox : Outbox
  logs : List LogLine := []
  tick : StatsTick := .idle

/-- `LOG_ERR`, `LOG_WRN` and `LOG_INF`. -/
def Firmware.logLine (fw : Firmware) (line : LogLine) : Firmware :=
  { fw with logs := fw.logs ++ [line] }

/-- Everything the world will answer, and how the boot went. -/
structure World where
  driverAnswers : Nat → Int
  completions : Nat → Option Completion
  hciAnswers : Nat → HciAnswer
  controllerUp : Bool
  antennaReady : Bool
  antennaAnswers : Nat → Int
  linkAnswers : Nat → SendResult

/-- The firmware when `main` has set it up for capture. -/
def boot (w : World) : Firmware where
  rfswCtl := { ready := w.antennaReady, answers := w.antennaAnswers }
  radio := { driver := { answers := w.driverAnswers, completions := w.completions } }
  ble := { ready := w.controllerUp }
  hci := { answers := w.hciAnswers }
  outbox := { answers := w.linkAnswers }
  logs :=
    (if w.controllerUp then [] else [.controllerWouldNotStart])
      ++ [.linkUp snModeCapture snFirmwareVersion]

end Nrf54Sniffer.Board
