/-
Nrf54Sniffer.Control.Handle — `control.c`: the frames the host sends and what
each command does.

Every command has its own function, named after it. `reply` hands the answer
to the link; the status bytes and the command ids are the platform's.
-/
import Nrf54Sniffer.Ble.Commands

namespace Nrf54Sniffer.Control

open Nrf54Sniffer.Wire
open Nrf54Sniffer.Batch (snBatchFlush snBatchResetCounters)
open Nrf54Sniffer.Radio154
open Nrf54Sniffer.Ble
open Nrf54Sniffer.Board

/-! ## Helpers -/

/-- The antenna switch, for a value that is 0 or 1. -/
def switchAntenna (fw : Firmware) (onboard : Bool) : Firmware × Int :=
  if !fw.rfswCtl.ready then (fw, -eNoDev)
  else if onboard = fw.rfswCtl.enabled then (fw, 0)
  else ({ fw with rfswCtl := (fw.rfswCtl.set onboard).1 }, (fw.rfswCtl.set onboard).2)

/-- `set_antenna`. -/
def setAntenna (fw : Firmware) (value : UInt32) : Firmware × Int :=
  if value > 1 then (fw, -eInval) else switchAntenna fw (value == 0)

/-- `sn_batch_flush`, on the firmware. -/
def flushBatch (fw : Firmware) : Option Firmware :=
  (snBatchFlush fw.batcher fw.outbox).map fun (batcher, outbox) => { fw with batcher, outbox }

/-- The 802.15.4 half of `stop_radio`. -/
def stop154 (fw : Firmware) : Option (Firmware × Int) :=
  let stopped := snRadio154Stop fw.radio
  (flushBatch { fw with radio := stopped.1 }).map fun fw => (fw, stopped.2)

/-- The BLE half: nothing where the controller never came up. -/
def stopBle (fw : Firmware) : Option (Firmware × Int) :=
  if fw.ble.ready then snRadioBleStop fw else some (fw, 0)

/-- `stop_radio`. -/
def stopRadio (fw : Firmware) (radio : UInt8) : Option (Firmware × Int) :=
  if radio = radioBle then stopBle fw else stop154 fw

/-- The payload of a reply. -/
def replyPayload (p : Platform) (command : UInt8) (status : Status) (value : UInt32) :
    List UInt8 :=
  [command, p.status status] ++ putLe32 value

/-- `reply`. -/
def reply (p : Platform) (fw : Firmware) (command : UInt8) (status : Status) (value : UInt32) :
    Firmware :=
  { fw with outbox := (fw.outbox.send ⟨.controlReply, replyPayload p command status value⟩).1 }

/-- `err == 0 ? SN_STATUS_OK : SN_STATUS_FAILED`. -/
def okOrFailed (err : Int) : Status := if err = 0 then .ok else .failed

/-- `-EINVAL` is told apart from the other errors. -/
def okOrBadValue (err : Int) : Status :=
  if err = 0 then .ok else if err = -eInval then .badValue else .failed

/-! ## The commands -/

/-- `SN_CMD_SET_RADIO`. -/
def onSetRadio (p : Platform) (fw : Firmware) (command : UInt8) (value : UInt32) :
    Option Firmware :=
  if value ≠ radio154.toUInt32 ∧ value ≠ radioBle.toUInt32 then
    some (reply p fw command .badValue value)
  else
    (if value ≠ fw.selectedRadio.toUInt32 then (stopRadio fw fw.selectedRadio).map Prod.fst
     else some fw).map fun fw =>
      reply p { fw with selectedRadio := value.toUInt8 } command .ok value

/-- `SN_CMD_SET_BLE_PHYS`. -/
def onSetBlePhys (p : Platform) (fw : Firmware) (command : UInt8) (value : UInt32) : Firmware :=
  if value > 0xFF then reply p fw command .badValue value
  else reply p { fw with blePhys := value.toUInt8 } command .ok value

/-- `SN_CMD_SET_BLE_PERIODIC`. -/
def onSetBlePeriodic (p : Platform) (fw : Firmware) (command : UInt8) (value : UInt32) :
    Firmware :=
  reply p { fw with ble := snRadioBleSetPeriodic fw.ble (value != 0) } command .ok value

/-- `SN_CMD_SET_BLE_SCAN`: the interval in the low half, the window above it. -/
def onSetBleScan (p : Platform) (fw : Firmware) (command : UInt8) (value : UInt32) : Firmware :=
  reply p
    { fw with
      bleIntervalMs := (value &&& 0xFFFF).toUInt16
      bleWindowMs := (value >>> 16).toUInt16 } command .ok value

/-- The radio's part of `SN_CMD_SET_CHANNEL`, and its two log lines. -/
def tuneAndStart (fw : Firmware) (value : UInt32) : Firmware × Status :=
  let (radio, err) := snRadio154SetChannel fw.radio value.toUInt8
  if err ≠ 0 then ({ fw with radio }, .badValue)
  else
    let (radio, err) := snRadio154Start radio
    if err ≠ 0 then ({ fw with radio }.logLine (.channelWouldNotStart value), .failed)
    else ({ fw with radio }.logLine (.channelReceiving value), .ok)

/-- `SN_CMD_SET_CHANNEL`. -/
def onSetChannel (p : Platform) (fw : Firmware) (command : UInt8) (value : UInt32) :
    Option Firmware :=
  if fw.selectedRadio = radioBle then some (reply p fw command .badValue value)
  else (flushBatch fw).map fun fw =>
    reply p (tuneAndStart fw value).1 command (tuneAndStart fw value).2 value

/-- A failed BLE START is logged. -/
def startBle (fw : Firmware) : Firmware × Int :=
  let (fw, err) := snRadioBleStart fw fw.bleIntervalMs fw.bleWindowMs fw.blePhys
  (if err ≠ 0 then fw.logLine (.bleScanWouldNotStart err) else fw, err)

/-- `SN_CMD_START`. -/
def onStart (p : Platform) (fw : Firmware) (command : UInt8) : Firmware :=
  if fw.selectedRadio = radioBle then
    reply p (startBle fw).1 command (okOrFailed (startBle fw).2) 0
  else
    let (radio, err) := snRadio154Start fw.radio
    reply p { fw with radio } command (okOrFailed err) 0

/-- `SN_CMD_STOP`. -/
def onStop (p : Platform) (fw : Firmware) (command : UInt8) : Option Firmware :=
  (stopRadio fw fw.selectedRadio).map fun (fw, err) => reply p fw command (okOrFailed err) 0

/-- The four counter resets of `SN_CMD_GET_INFO`. -/
def resetCounters (fw : Firmware) : Firmware :=
  { fw with
    outbox := { fw.outbox with counters := {} }
    batcher := snBatchResetCounters fw.batcher
    radio := snRadio154ResetCounters fw.radio
    ble := snRadioBleResetCounters fw.ble }

/-- "Every setting back to its default", the antenna apart. -/
def defaultSettings (fw : Firmware) : Firmware :=
  { fw with
    blePhys := 1
    bleIntervalMs := 0
    bleWindowMs := 0
    ble := snRadioBleSetPeriodic fw.ble false }

/-- The stops of `SN_CMD_GET_INFO`: both radios. -/
def stopBoth (fw : Firmware) : Option Firmware :=
  (stopRadio fw radio154).bind fun (fw, _) => (stopRadio fw radioBle).map Prod.fst

/-- What follows the stops. -/
def freshSession (fw : Firmware) : Firmware :=
  (setAntenna (defaultSettings (resetCounters { fw with selectedRadio := radio154 })) 0).1

/-- `SN_CMD_GET_INFO`. -/
def onGetInfo (p : Platform) (fw : Firmware) (command : UInt8) : Option Firmware :=
  (stopBoth fw).map fun fw => reply p (freshSession fw) command .ok snFirmwareVersion

/-- `SN_CMD_SET_ANTENNA`. -/
def onSetAntenna (p : Platform) (fw : Firmware) (command : UInt8) (value : UInt32) : Firmware :=
  let (fw, err) := setAntenna fw value
  reply p fw command (okOrBadValue err) value

/-- `SN_CMD_ENERGY_DETECT`: the channel in the low byte, the window above it.
The answer carries the reading, which started as 0. -/
def onEnergyDetect (p : Platform) (fw : Firmware) (command : UInt8) (value : UInt32) :
    Firmware :=
  if fw.selectedRadio = radioBle then reply p fw command .badValue value
  else
    let (radio, err, dbm) := snRadio154EnergyDetect fw.radio (value &&& 0xFF).toUInt8 (value >>> 8)
    if err = -eInval then reply p { fw with radio } command .badValue value
    else if err ≠ 0 then
      reply p ({ fw with radio }.logLine (.energyDetectionFailed (value &&& 0xFF) err)) command
        .failed value
    else reply p { fw with radio } command .ok (dbm.getD 0).toUInt8.toUInt32

/-! ## `sn_control_handle` -/

/-- The switch on the command id. -/
def onCommand (p : Platform) (fw : Firmware) (command : UInt8) (value : UInt32) :
    Option Firmware :=
  match p.command command with
  | .setRadio => onSetRadio p fw command value
  | .setBlePhys => some (onSetBlePhys p fw command value)
  | .setBlePeriodic => some (onSetBlePeriodic p fw command value)
  | .setBleScan => some (onSetBleScan p fw command value)
  | .setChannel => onSetChannel p fw command value
  | .start => some (onStart p fw command)
  | .stop => onStop p fw command
  | .getInfo => onGetInfo p fw command
  | .setAntenna => some (onSetAntenna p fw command value)
  | .energyDetect => some (onEnergyDetect p fw command value)
  | .unknown => some (reply p fw command .unknownCommand 0)

/-- `sn_control_handle`: a filter, keys, or a command of at least five bytes. -/
def snControlHandle (p : Platform) (fw : Firmware) (type : FrameType) (payload : List UInt8) :
    Option Firmware :=
  match type, payload with
  | .bleFilter, payload => some { fw with ble := snRadioBleSetFilter fw.ble payload }
  | .bleKeys, payload => (snRadioBleSetKeys fw payload).map Prod.fst
  | .controlCmd, command :: b0 :: b1 :: b2 :: b3 :: _ =>
      onCommand p fw command (getLe32 b0 b1 b2 b3)
  | _, _ => some fw

end Nrf54Sniffer.Control
