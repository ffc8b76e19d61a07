/-
Nrf54Sniffer.Radio154.Radio — `radio154.c`: the IEEE 802.15.4 radio.

The driver below it is `Driver154`: what it answers to each call comes from
outside, and a call it refuses has no effect. A call it takes changes the
channel it is tuned to, or whether it receives.

`sn_radio154_energy_detect` is put together from the steps it takes, because
frames may be heard and delivered between any two of them. A received packet
arrives in one buffer, as the driver fills it.
-/
import Nrf54Sniffer.Batch.Batcher

namespace Nrf54Sniffer.Radio154

open Nrf54Sniffer.Wire
open Nrf54Sniffer.Batch (Batcher Packet snBatchAdd)

/-! ## The driver -/

/-- The calls of `struct ieee802154_radio_api` the file makes. -/
inductive Call where
  | setChannel (channel : UInt8)
  | start
  | stop
  | edScan (durationMs : UInt16)
  deriving DecidableEq, Repr

/-- What `ed_complete` reports, and how many milliseconds after the scan was
started. -/
structure Completion where
  afterMs : Nat
  maxEd : Int16
  deriving DecidableEq, Repr

/-- The driver: its answers, one for each call, the completions of its energy
scans, the calls so far, and the radio as they left it. -/
structure Driver where
  answers : Nat → Int
  completions : Nat → Option Completion
  log : List (Call × Int) := []
  tuned : UInt8 := 11
  receiving : Bool := false

namespace Driver

/-- A call the driver takes. -/
def apply (d : Driver) : Call → Driver
  | .setChannel channel => { d with tuned := channel }
  | .start => { d with receiving := true }
  | .stop => { d with receiving := false }
  | .edScan _ => d

/-- One call. -/
def call (d : Driver) (c : Call) : Driver × Int :=
  let err := d.answers d.log.length
  let d' := if err = 0 then d.apply c else d
  ({ d' with log := d.log ++ [(c, err)] }, err)

/-- The completion of the scan just started. -/
def completion (d : Driver) : Option Completion := d.completions d.log.length

end Driver

/-! ## State -/

/-- The statics of `radio154.c` and the driver. The counters are natural
numbers, read before they wrap. -/
structure Radio where
  driver : Driver
  currentChannel : UInt8 := 11
  captured : Nat := 0
  fcsFailed : Nat := 0
  running : Bool := false
  measuring : Bool := false

/-- A call through `api`. -/
def Radio.call (r : Radio) (c : Call) : Radio × Int :=
  ({ r with driver := (r.driver.call c).1 }, (r.driver.call c).2)

/-! ## Control -/

/-- `channel < 11u || channel > 26u`. -/
def badChannel (channel : UInt8) : Bool := channel < 11 || channel > 26

/-- `sn_radio154_set_channel`. -/
def snRadio154SetChannel (r : Radio) (channel : UInt8) : Radio × Int :=
  if badChannel channel then (r, -eInval)
  else
    let (r, err) := r.call (.setChannel channel)
    (if err = 0 then { r with currentChannel := channel } else r, err)

/-- `sn_radio154_start`. -/
def snRadio154Start (r : Radio) : Radio × Int :=
  let (r, err) := r.call .start
  (if err = 0 then { r with running := true } else r, err)

/-- `sn_radio154_stop`. -/
def snRadio154Stop (r : Radio) : Radio × Int :=
  if !r.running then (r, 0)
  else
    let (r, err) := r.call .stop
    (if err = 0 then { r with running := false } else r, err)

/-- `sn_radio154_reset_counters`. -/
def snRadio154ResetCounters (r : Radio) : Radio := { r with captured := 0, fcsFailed := 0 }

/-! ## Energy detection -/

/-- The window in milliseconds: symbols of 16 us, rounded up and capped. -/
def edWindowMs (durationSymbols : UInt32) : UInt32 :=
  let ms := (durationSymbols * 16 + 999) / 1000
  if ms > 0xFFFF then 0xFFFF else ms

/-- How long the wait for the completion is. -/
def edWaitMs (ms : UInt32) : UInt32 := ms + 100

/-- `SHRT_MAX`: this driver's failed measurement. -/
def shrtMax : Int16 := 32767

/-- `(int8_t)CLAMP(x, INT8_MIN, INT8_MAX)`. -/
def clampInt8 (x : Int16) : Int8 := Int8.ofInt (max (-128) (min x.toInt 127))

/-- Tunes away, receives and starts the scan, each only if the one before
worked. -/
def edStart (r : Radio) (channel : UInt8) (ms : UInt32) : Radio × Int :=
  let (r, err) := r.call (.setChannel channel)
  if err ≠ 0 then (r, err)
  else
    let (r, err) := r.call .start
    if err ≠ 0 then (r, err) else r.call (.edScan ms.toUInt16)

/-- What the wait makes of the completion: the error, and `*out_dbm` where it
is written. -/
def edReading (ms : UInt32) : Option Completion → Int × Option Int8
  | none => (-eTimedOut, none)
  | some c =>
      if c.afterMs > (edWaitMs ms).toNat then (-eTimedOut, none)
      else if c.maxEd = shrtMax then (-eIo, none)
      else (0, some (clampInt8 c.maxEd))

/-- The wait, if the scan was started. -/
def edFinish (r : Radio) (ms : UInt32) (err : Int) : Int × Option Int8 :=
  if err = 0 then edReading ms r.driver.completion else (err, none)

/-- Puts the radio back as it was. -/
def edRestore (r : Radio) (previousChannel : UInt8) (wasRunning : Bool) : Radio :=
  let (r, _) := r.call (.setChannel previousChannel)
  (r.call (if wasRunning then .start else .stop)).1

/-- `sn_radio154_energy_detect`: the error, and what it wrote to `*out_dbm`. -/
def snRadio154EnergyDetect (r : Radio) (channel : UInt8) (durationSymbols : UInt32) :
    Radio × Int × Option Int8 :=
  if badChannel channel || durationSymbols == 0 then (r, -eInval, none)
  else
    let ms := edWindowMs durationSymbols
    let (away, err) := edStart { r with measuring := true } channel ms
    let (err, dbm) := edFinish away ms err
    ({ edRestore away r.currentChannel r.running with measuring := false }, err, dbm)

/-! ## Reception -/

/-- Why a reception failed: `enum ieee802154_rx_fail_reason`. -/
inductive RxFailReason where
  | invalidFcs
  | notReceived
  | addrFiltered
  | other
  deriving DecidableEq, Repr

/-- An event of the driver and its parameters, where it has any. -/
inductive RadioEvent where
  | rxFailed (reason : Option RxFailReason)
  | other
  deriving DecidableEq, Repr

/-- `radio_event`. -/
def radioEvent (r : Radio) : RadioEvent → Radio
  | .rxFailed (some reason) =>
      if !r.running || r.measuring then r
      else if reason = .invalidFcs then { r with fcsFailed := r.fcsFailed + 1 }
      else r
  | _ => r

/-- What `net_recv_data` reads of a packet. -/
structure NetPkt where
  psdu : List UInt8
  second : UInt64
  nanosecond : UInt32
  lqi : UInt8
  rssiDbm : Int16
  deriving DecidableEq, Repr

/-- `SN_154_MAX_PSDU`. -/
def sn154MaxPsdu : Nat := 127

/-- `timestamp_us`. -/
def NetPkt.timestampUs (pkt : NetPkt) : UInt64 :=
  pkt.second * 1000000 + pkt.nanosecond.toUInt64 / 1000

/-- The tests that drop a packet: heard while tuned away, or delivered after
the capture ended. -/
def Radio.takes (r : Radio) : Bool := !r.measuring && r.running

/-- The call of `sn_batch_add`: the channel is the one current now. -/
def Radio.packetOf (r : Radio) (pkt : NetPkt) : Packet where
  channel := r.currentChannel
  timestampUs := pkt.timestampUs
  lqi := pkt.lqi
  rssiDbm := pkt.rssiDbm.toInt8
  psdu := pkt.psdu.take sn154MaxPsdu

/-- `net_recv_data`, with its return value. -/
def netRecvData (r : Radio) (b : Batcher) (o : Outbox) :
    Option NetPkt → Option (Radio × Batcher × Outbox × Int)
  | none => some (r, b, o, -eInval)
  | some pkt =>
      if pkt.psdu = [] then some (r, b, o, -eNoData)
      else if !r.takes then some (r, b, o, 0)
      else (snBatchAdd b o (r.packetOf pkt)).map fun (b, o) =>
        ({ r with captured := r.captured + 1 }, b, o, 0)

/-- A frame of one byte. -/
def oneByte : NetPkt where
  psdu := [0x42]
  second := 1
  nanosecond := 0
  lqi := 200
  rssiDbm := -60

end Nrf54Sniffer.Radio154
