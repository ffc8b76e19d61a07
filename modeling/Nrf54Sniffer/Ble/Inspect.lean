/-
Nrf54Sniffer.Ble.Inspect — what the forwarding thread reads of an event, byte by
byte.

`Notes` gives each of the five functions a list of bytes. Here each is given what
the code gives it, a pointer and a length: it is a `Look` program, so the bytes
before and behind the event are in its reach and every read is on record, in the
order of the source. `inspect` is their callers, `fwd_loop` and `forward`, with
the event itself and `peek`, a static array in which the bytes of an earlier
event are still there behind the copy.
-/
import Nrf54Sniffer.Lib.ByteBuffer
import Nrf54Sniffer.Lib.Look
import Nrf54Sniffer.Ble.Commands

namespace Nrf54Sniffer.Ble.Inspect

open Nrf54Sniffer.Lib
open Nrf54Sniffer.Wire

/-! ## The five functions -/

/-- `sys_get_le16`. -/
def sysGetLe16 (i : Nat) : Look Nat UInt16 := do
  let lo ← Look.byte i
  let hi ← Look.byte (i + 1)
  return getLe16 lo hi

/-- `note_command_result`. -/
def noteCommandResult (slot : CmdSlot) (len : Nat) : Look Nat CmdSlot := do
  let code ← Look.byte 0
  if code = evtCmdComplete ∧ 6 ≤ len then
    let opcode ← sysGetLe16 3
    let status ← Look.byte 5
    return slot.credit opcode status
  else if code = evtCmdStatus ∧ 6 ≤ len then
    let status ← Look.byte 2
    let opcode ← sysGetLe16 4
    return slot.credit opcode status
  else return slot

/-- The loop of `note_big_established`, from stream `i` on, with `room` left of
`MAX_BIS`. -/
def keepHandles (n len : Nat) : Nat → Nat → Look Nat (List UInt16)
  | 0, _ => return []
  | room + 1, i =>
      if i < n ∧ 1 + 2 * (i + 1) ≤ len then do
        let handle ← sysGetLe16 (1 + 2 * i)
        let more ← keepHandles n len room (i + 1)
        return handle :: more
      else return []

/-- `note_big_established`. -/
def noteBigEstablished (s : BleRadio) (len : Nat) : Look Nat BleRadio := do
  let n ← Look.byte 0
  let kept ← keepHandles n.toNat len maxBis 0
  return { s with follow := { s.follow with bisHandles := kept, isoPathWork := true } }

/-- `len >= need && evt[3] == BT_HCI_ERR_SUCCESS`. -/
def eventSucceeded (need len : Nat) : Look Nat Bool :=
  if need ≤ len then do
    let status ← Look.byte 3
    return status == hciSuccess
  else return false

/-- The two cases of the BIG Sync Established event. -/
def noteBigSync (s : BleRadio) (len : Nat) (uptime : Int) : Look Nat BleRadio := do
  let ok ← eventSucceeded 17 len
  if ok then
    (noteBigEstablished { s with follow := { s.follow with bigSynced := true } }
      (len - 16)).relocate (16 + ·)
  else
    return { s with follow :=
               { s.follow with bigSynced := false, bigRetryAt := uptime + bigRetryMs } }

/-- The two cases of the Periodic Advertising Sync Established event. -/
def notePeriodicSync (s : BleRadio) (len : Nat) : Look Nat BleRadio := do
  let ok ← eventSucceeded 4 len
  if ok then
    return { s with stats := { s.stats with periodicSynced := s.stats.periodicSynced + 1 } }
  else
    return { s with
             stats := { s.stats with periodicRefused := s.stats.periodicRefused + 1 }
             follow := freeSyncSlot s.follow }

/-- `note_counts`. -/
def noteCounts (s : BleRadio) (len : Nat) (uptime : Int) : Look Nat BleRadio :=
  if len < 3 then return s
  else do
    let code ← Look.byte 0
    if code ≠ evtLeMeta then return s
    else
      let sub ← Look.byte 2
      if sub = leAdvertisingReport ∨ sub = leExtAdvertisingReport then
        return { s with stats := { s.stats with advReports := s.stats.advReports + 1 } }
      else if sub = lePerAdvertisingReport ∨ sub = lePerAdvertisingReportV2 then
        return { s with stats := { s.stats with periodicReports := s.stats.periodicReports + 1 } }
      else if sub = lePerAdvSyncEstablished ∨ sub = lePerAdvSyncEstablishedV2 then
        notePeriodicSync s len
      else if sub = lePerAdvSyncLost then
        return { s with follow := freeSyncSlot s.follow }
      else if sub = leBigSyncEstablished then
        noteBigSync s len uptime
      else if sub = leBigSyncLost then
        return { s with follow := { s.follow with bigSynced := false } }
      else return s

/-- `note_periodic`. -/
def notePeriodic (s : BleRadio) (len : Nat) : Look Nat BleRadio :=
  if len < 21 then return s
  else do
    let code ← Look.byte 1
    if code ≠ evtLeMeta then return s
    else
      let sub ← Look.byte 3
      if sub ≠ leExtAdvertisingReport then return s
      else
        let interval ← sysGetLe16 19
        if interval = 0 then return s
        else
          let addrType ← Look.byte 7
          if addrType = 0xFF then return s
          else
            let sid ← Look.byte 16
            let addr ← Look.range 8 6
            return { s with
                     stats := { s.stats with periodicSeen := s.stats.periodicSeen + 1 }
                     follow := putSyncReq s.follow ⟨sid, addrType &&& 0x01, addr⟩ }

/-- `note_biginfo`. -/
def noteBigInfo (s : BleRadio) (len : Nat) (uptime : Int) : Look Nat BleRadio :=
  if len < 23 then return s
  else do
    let code ← Look.byte 1
    if code ≠ evtLeMeta then return s
    else
      let sub ← Look.byte 3
      if sub ≠ leBigInfoAdvReport then return s
      else if s.follow.bigSynced ∨ uptime < s.follow.bigRetryAt then return s
      else
        let syncHandle ← sysGetLe16 4
        let numBis ← Look.byte 6
        if numBis = 0 then return s
        else
          let encrypted ← Look.byte 22
          if encrypted ≠ 0 then return s
          else if s.follow.bigPending then return s
          else
            return { s with follow :=
                       { s.follow with
                         bigPending := true
                         bigParams := bigCreateSyncParams syncHandle (min numBis.toNat maxBis)
                         bigWork := true } }

/-! ## Their callers -/

/-- A byte of the event, or of `peek`. -/
inductive Place where
  | event (i : Nat)
  | peek (i : Nat)
  deriving DecidableEq, Repr

/-- `sizeof(peek)`. -/
def peekSize : Nat := 32

/-- `n` in `forward`. -/
def peekLen (len : Nat) : Nat := if len + 1 > peekSize then peekSize else len + 1

/-- The two copies into `peek`, which keeps what is behind them. -/
def fillPeek (peek : ByteBuffer peekSize) (data : List UInt8) : Option (ByteBuffer peekSize) := do
  let peek ← peek.write 0 [h4Event]
  let (head, _) ← takeExact (peekLen data.length - 1) data
  peek.write 1 head

/-- `oversized++` for an event that is cut. -/
def noteOversized (s : BleRadio) (len : Nat) : BleRadio :=
  if (UInt16.ofNat (len + 1)).toNat > snBleMaxPacket then
    { s with stats := { s.stats with oversized := s.stats.oversized + 1 } }
  else s

/-- `if (h4_type == H4_EVENT) note_counts(...)`. -/
def counts (s : BleRadio) (h4 : UInt8) (len : Nat) (now : Readings) : Look Place BleRadio :=
  if h4 = h4Event then (noteCounts s len now.uptimeCounts).relocate .event else return s

/-- The look for trains and broadcasts, when it is on. -/
def peeks (s : BleRadio) (h4 : UInt8) (len : Nat) (now : Readings) : Look Place BleRadio :=
  if s.periodicEnabled ∧ h4 = h4Event then do
    let s ← (notePeriodic s (peekLen len)).relocate .peek
    (noteBigInfo s (peekLen len) now.uptimeBigInfo).relocate .peek
  else return s

/-- `if (h4 == BT_HCI_H4_EVT && buf->len >= 2u) note_command_result(...)`. -/
def answers (slot : CmdSlot) (h4 : UInt8) (len : Nat) : Look Place CmdSlot :=
  if h4 = h4Event ∧ 2 ≤ len then (noteCommandResult slot len).relocate .event else return slot

/-- Whether `fwd_loop` hands the packet to `forward`. -/
def takes (running : Bool) (h4 : UInt8) (len : Nat) : Look Place Bool :=
  if running ∧ h4 = h4Iso then return true
  else if running ∧ h4 = h4Event ∧ 0 < len then do
    let code ← Look.byte (.event 0)
    return code != evtCmdComplete && code != evtCmdStatus
  else return false

/-- One turn of `fwd_loop`, as far as it looks at the event. -/
def inspect (slot : CmdSlot) (s : BleRadio) (h4 : UInt8) (len : Nat) (now : Readings) :
    Look Place (CmdSlot × BleRadio) := do
  let slot ← answers slot h4 len
  let forwards ← takes s.running h4 len
  if forwards then
    let s ← counts (noteOversized s len) h4 len now
    let s ← peeks s h4 len now
    return (slot, s)
  else return (slot, s)

end Nrf54Sniffer.Ble.Inspect
