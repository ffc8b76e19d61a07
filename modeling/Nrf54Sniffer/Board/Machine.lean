/-
Nrf54Sniffer.Board.Machine — the firmware as a machine: what may happen to it,
one whole call at a time.

The inputs are the host's frames, what the two radios hand over, the timers,
the work items that have been submitted, the once-a-second `stats_tick`, and
the logging thread. The outcomes of the calls the firmware makes are in the
`World` it booted with. A work item that loops takes a turn for each pass, and
`stats_tick` one for each reading and one for each call. The timers and the tick
run on the queue the loops run on, so the code never has them between two
passes; the machine does not rule it out.

A net_buf's length is sixteen bits, so an HCI packet with its H4 byte has at
most 65535.
-/
import Nrf54Sniffer.Control.Handle
import Nrf54Sniffer.Lib.Machine
import Nrf54Sniffer.Link.Transmit

namespace Nrf54Sniffer.Board

open Nrf54Sniffer.Lib
open Nrf54Sniffer.Wire
open Nrf54Sniffer.Batch (snBatchDropped lingerExpired)
open Nrf54Sniffer.Radio154
open Nrf54Sniffer.Ble
open Nrf54Sniffer.Control

/-! ## Statistics -/

/-- The counters of `struct sn_ble_stats`, in order. -/
def bleStatsFields (s : BleStats) : List Nat :=
  [s.captured, s.advReports, s.forwarded, s.oversized, 0, s.dropped, s.commandTimeouts,
   s.periodicSeen, s.periodicSynced, s.periodicReports, s.periodicRefused]

/-- The counters of `struct sn_stats_full`, in order. -/
def statsFields (fw : Firmware) : List Nat :=
  [fw.outbox.counters.framesSent.toNat, fw.outbox.counters.framesDropped.toNat, 0, 0,
   fw.outbox.counters.bytesSent.toNat, fw.radio.captured, 0, snBatchDropped fw.batcher]
    ++ List.replicate 13 0 ++ bleStatsFields fw.ble.stats ++ [fw.radio.fcsFailed]

/-- 32-bit fields one after another. -/
def put32s (fields : List Nat) : List UInt8 := fields.flatMap fun n => putLe32 (UInt32.ofNat n)

/-- The counters of `struct sn_link_status`, in order. -/
def linkFields (fw : Firmware) (queued : Nat) : List Nat :=
  [queued, fw.outbox.counters.queuedHighWater, Link.snLinkCapacity]

/-- `stats_tick` reads `stats`. -/
def statsRead (fw : Firmware) : Option Firmware :=
  match fw.tick with
  | .idle => some { fw with tick := .stats (statsFields fw) }
  | _ => none

/-- Between its two calls it reads `link`, the ring's occupancy among it. -/
def linkRead (fw : Firmware) (queued : Nat) : Option Firmware :=
  match fw.tick with
  | .between => some { fw with tick := .link (linkFields fw queued) }
  | _ => none

/-- What has been read, as a frame. -/
def StatsTick.frame : StatsTick → Option Frame
  | .stats fields => some ⟨.stats, put32s fields⟩
  | .link fields => some ⟨.link, put32s fields⟩
  | .idle | .between => none

/-- Where `stats_tick` is once that is handed over. -/
def StatsTick.sent : StatsTick → StatsTick
  | .stats _ => .between
  | _ => .idle

/-- Either call of `sn_link_send`. -/
def tickSend (fw : Firmware) : Option Firmware :=
  fw.tick.frame.map fun f => { fw with tick := fw.tick.sent, outbox := (fw.outbox.send f).1 }

/-! ## The logging thread -/

/-- `out` of `log_backend_sn.c`, for each piece of a formatted line. -/
def sendLog (o : Outbox) (pieces : List (List UInt8)) : Outbox :=
  pieces.foldl (fun o piece => (o.send ⟨.log, piece⟩).1) o

/-- The next line. -/
def processLog (p : Platform) (fw : Firmware) : Option Firmware :=
  match fw.logs with
  | [] => none
  | line :: logs => some { fw with logs, outbox := sendLog fw.outbox (p.format line) }

/-! ## The machine -/

/-- What may happen next. -/
inductive Input where
  | hostFrame (type : FrameType) (payload : List UInt8)
  | received (pkt : Option NetPkt)
  | radioEvent (event : RadioEvent)
  | hciPacket (h4 : UInt8) (data : List UInt8) (now : Readings)
  | batchLinger
  | bleLinger
  | syncWork
  | bigWork (uptime : Int)
  | isoPathWork
  | statsRead
  | linkRead (queued : Nat)
  | tickSend
  | log

/-- The inputs that neither come from the host nor carry or send a packet. -/
def Input.background : Input → Bool
  | .radioEvent _ | .syncWork | .bigWork _ | .isoPathWork | .statsRead | .linkRead _ | .tickSend
  | .log => true
  | _ => false

/-- A packet of the 802.15.4 radio. -/
def receive (fw : Firmware) (pkt : Option NetPkt) : Option Firmware :=
  (netRecvData fw.radio fw.batcher fw.outbox pkt).map fun (radio, batcher, outbox, _) =>
    { fw with radio, batcher, outbox }

/-- The linger timer of `batch.c`. -/
def batchLinger (fw : Firmware) : Option Firmware :=
  (lingerExpired fw.batcher fw.outbox).map fun (batcher, outbox) => { fw with batcher, outbox }

/-- The linger timer of `radio_ble.c`. -/
def bleLinger (fw : Firmware) : Option Firmware :=
  (bleLingerExpired fw.ble fw.outbox).map fun (ble, outbox) => { fw with ble, outbox }

/-- One input. -/
def step (p : Platform) (fw : Firmware) : Input → Option Firmware
  | .hostFrame type payload => snControlHandle p fw type payload
  | .received pkt => receive fw pkt
  | .radioEvent event => some { fw with radio := radioEvent fw.radio event }
  | .hciPacket h4 data now => if data.length ≤ 65534 then fwdLoop fw h4 data now else none
  | .batchLinger => batchLinger fw
  | .bleLinger => bleLinger fw
  | .syncWork => syncWorkFn fw
  | .bigWork uptime =>
      if fw.ble.follow.bigWork ∧ fw.ble.follow.loop = .idle then some (bigWorkFn fw uptime)
      else none
  | .isoPathWork => isoPathWorkFn fw
  | .statsRead => statsRead fw
  | .linkRead queued => linkRead fw queued
  | .tickSend => tickSend fw
  | .log => processLog p fw

/-- The firmware as a machine. -/
def machine (p : Platform) : Machine Firmware Input := ⟨step p⟩

/-- Reached from a boot by some inputs. -/
def Reachable (p : Platform) (fw : Firmware) : Prop :=
  ∃ w inputs, (machine p).run (boot w) inputs = some fw

/-! ## A calm board -/

/-- A world in which every call succeeds. -/
def calmWorld : World where
  driverAnswers _ := 0
  completions _ := none
  hciAnswers _ := .answered 0
  controllerUp := true
  antennaReady := true
  antennaAnswers _ := 0
  linkAnswers _ := .sent 16

/-- A platform with GET_INFO as command 1, START as 2 and STOP as 3. -/
def plainPlatform : Platform where
  command
    | 1 => .getInfo
    | 2 => .start
    | 3 => .stop
    | _ => .unknown
  status
    | .ok => 0
    | .unknownCommand => 1
    | .badValue => 2
    | .failed => 3
  format _ := [[]]

/-- The same with the settings: SET_RADIO as 4, SET_CHANNEL as 5,
SET_BLE_PHYS as 6, SET_ANTENNA as 7 and ENERGY_DETECT as 8. -/
def fullPlatform : Platform where
  command
    | 1 => .getInfo
    | 2 => .start
    | 3 => .stop
    | 4 => .setRadio
    | 5 => .setChannel
    | 6 => .setBlePhys
    | 7 => .setAntenna
    | 8 => .energyDetect
    | _ => .unknown
  status := plainPlatform.status
  format := plainPlatform.format

end Nrf54Sniffer.Board
