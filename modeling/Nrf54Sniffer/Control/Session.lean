/-
Nrf54Sniffer.Control.Session — what a capture starts from.

`Session` is everything that decides what the next capture contains, as
`control.c` and the README mean it when they say that GET_INFO starts a fresh
session: the selected radio, what runs, every setting, the filter and the
keys, the antenna, the open batches and the counters; and the two things no
setting names, the channel the 802.15.4 driver is tuned to and a BIG Create Sync
still to be sent. `session` reads it off a state. `Session.fresh` is the session
GET_INFO leaves, given what it does not set: `Carried`, and what the link made
of the reply.

`configured` is what the frames sent since made of it, with the commands the
driver and the controller were given: two boards are `Isolated` when they agree
on the session, and on that after any frames, the same on both, that the
drivers answer alike.
-/
import Nrf54Sniffer.Lib.TwoRuns
import Nrf54Sniffer.Board.Replies

namespace Nrf54Sniffer.Control

open Nrf54Sniffer.Lib
open Nrf54Sniffer.Wire
open Nrf54Sniffer.Batch (snBatchDropped)
open Nrf54Sniffer.Radio154
open Nrf54Sniffer.Ble
open Nrf54Sniffer.Board

/-- The mailbox of `big_work`: whether it is taken, and the request in it that
is still to be sent. -/
def mailbox (f : Following) : Bool × Option (List UInt8) :=
  (f.bigPending, if f.bigWork then some f.bigParams else none)

/-- What decides what a capture contains. -/
structure Session where
  selectedRadio : UInt8
  running154 : Bool
  runningBle : Bool
  channel : UInt8
  tuned : UInt8
  blePhys : UInt8
  bleIntervalMs : UInt16
  bleWindowMs : UInt16
  periodicEnabled : Bool
  filter : List (List UInt8)
  keys : List UInt8
  keyCount : Nat
  mail : Bool × Option (List UInt8)
  onboardAntenna : Bool
  openBatch : Option (List Batch.Recorded)
  openBleBatch : Option (List Ble.Recorded)
  captured : Nat
  fcsFailed : Nat
  droppedPackets : Nat
  bleStats : BleStats
  link : LinkCounters

/-- The session of a state. -/
def session (fw : Firmware) : Session where
  selectedRadio := fw.selectedRadio
  running154 := fw.radio.running
  runningBle := fw.ble.running
  channel := fw.radio.currentChannel
  tuned := fw.radio.driver.tuned
  blePhys := fw.blePhys
  bleIntervalMs := fw.bleIntervalMs
  bleWindowMs := fw.bleWindowMs
  periodicEnabled := fw.ble.periodicEnabled
  filter := fw.ble.filter
  keys := fw.ble.keys.bytes
  keyCount := fw.ble.keyCount
  mail := mailbox fw.ble.follow
  onboardAntenna := fw.rfswCtl.enabled
  openBatch := Batch.openEntries fw.batcher
  openBleBatch := Ble.openEntries fw.ble.batch
  captured := fw.radio.captured
  fcsFailed := fw.radio.fcsFailed
  droppedPackets := snBatchDropped fw.batcher
  bleStats := fw.ble.stats
  link := fw.outbox.counters

/-- The bytes of an encoded reply. -/
def replyFrameLen : Nat := snHeaderLen + 6

/-- What GET_INFO carries over. -/
structure Carried where
  filter : List (List UInt8)
  channel : UInt8
  tuned : UInt8
  mail : Bool × Option (List UInt8)

def carried (fw : Firmware) : Carried where
  filter := fw.ble.filter
  channel := fw.radio.currentChannel
  tuned := fw.radio.driver.tuned
  mail := mailbox fw.ble.follow

/-- Everything at its default, but for what is carried over and the link's
account of the reply. -/
def Session.fresh (c : Carried) (replied : SendResult) : Session where
  selectedRadio := radio154
  running154 := false
  runningBle := false
  channel := c.channel
  tuned := c.tuned
  blePhys := 1
  bleIntervalMs := 0
  bleWindowMs := 0
  periodicEnabled := false
  filter := c.filter
  keys := List.replicate (maxKeys * keyEntry) 0
  keyCount := 0
  mail := c.mail
  onboardAntenna := true
  openBatch := some []
  openBleBatch := some []
  captured := 0
  fcsFailed := 0
  droppedPackets := 0
  bleStats := {}
  link := LinkCounters.account {} replyFrameLen replied

/-- A command frame of `command`, whatever its value. -/
def IsCommand (p : Platform) (command : Command) : List UInt8 → Prop
  | id :: _ :: _ :: _ :: _ :: _ => p.command id = command
  | _ => False

/-- The controller is ready, and the calls a GET_INFO may make succeed: the
driver's stop, the controller's reset, the antenna switch. -/
structure GetInfoSucceeds (fw : Firmware) : Prop where
  ready : fw.ble.ready = true
  stopped : fw.radio.driver.answers fw.radio.driver.log.length = 0
  reset : fw.hci.next = .answered 0
  antennaReady : fw.rfswCtl.ready = true
  antennaSet : fw.rfswCtl.answers fw.rfswCtl.calls = 0

/-- The frames a flush of both batches hands over. -/
def openBatches (fw : Firmware) : Nat :=
  (if fw.batcher.count = 0 then 0 else 1) + (if fw.ble.batch.count = 0 then 0 else 1)

/-- What the link answers when the reply of a GET_INFO is handed to it: the
frames of the open batches come first. -/
def replyAnswer (fw : Firmware) : SendResult :=
  fw.outbox.answers (fw.outbox.log.length + openBatches fw)

/-! ## The same frames afterwards -/

/-- How many commands the driver and the controller have been given. -/
structure Marks where
  driver : Nat
  hci : Nat

def marks (fw : Firmware) : Marks := ⟨fw.radio.driver.log.length, fw.hci.log.length⟩

/-- What a capture starts from, and what the driver and the controller were told
since the marks, with their answers. -/
def configured (m : Marks) (fw : Firmware) :
    Session × List (Call × Int) × List (HciCommand × HciAnswer) :=
  (session fw, fw.radio.driver.log.drop m.driver, fw.hci.log.drop m.hci)

/-- From here on everything answers the two boards alike. -/
structure AnsweredAlike (t t' : Firmware) : Prop where
  driver : SameAhead t.radio.driver.answers t'.radio.driver.answers
    t.radio.driver.log.length t'.radio.driver.log.length
  completions : SameAhead t.radio.driver.completions t'.radio.driver.completions
    t.radio.driver.log.length t'.radio.driver.log.length
  hci : SameAhead t.hci.answers t'.hci.answers t.hci.log.length t'.hci.log.length
  antenna : SameAhead t.rfswCtl.answers t'.rfswCtl.answers t.rfswCtl.calls t'.rfswCtl.calls
  link : SameAhead t.outbox.answers t'.outbox.answers t.outbox.log.length t'.outbox.log.length

/-- The two boards agree on what decides a capture, and the same frames,
answered alike, configure the same capture on both. -/
structure Isolated (p : Platform) (t t' : Firmware) : Prop where
  session : session t = session t'
  frames : AnsweredAlike t t' → ∀ frames, ∃ u u',
    (machine p).run t (hostFrames frames) = some u ∧
    (machine p).run t' (hostFrames frames) = some u' ∧
    configured (marks t) u = configured (marks t') u'

end Nrf54Sniffer.Control
