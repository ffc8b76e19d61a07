/-
Nrf54Sniffer.Board.Locks — the threads of the firmware and their mutexes.

Five threads meet at four mutexes: the reader of the link, which runs the
control plane; the driver's thread in `net_recv_data`; the forwarding thread of
`radio_ble.c`; the system work queue with the timers and work items; and the
logging thread. `cmd_lock` is held while a command waits for its answer, and
the forwarding thread delivers the answer. So what that thread waits for must
never be held by one that waits for a command.

Here a function is what it locks, what it signals and where it waits, with a
branch where its data decide. Each of these calls ends with nothing held, so the
functions above them (`sn_control_handle`, the work items) are rows of calls.
The transmit thread takes no mutex, and nobody waits for it.
-/
import Nrf54Sniffer.Ble.Commands
import Nrf54Sniffer.Lib.LockOrder

namespace Nrf54Sniffer.Board.Locks

open Nrf54Sniffer.Lib

inductive Thread where
  | reader
  | rx
  | forwarder
  | workQueue
  | logging
  deriving DecidableEq, Repr

instance : Fintype Thread where
  elems := {.reader, .rx, .forwarder, .workQueue, .logging}
  complete t := by cases t <;> decide

/-- `lock` is the one of `batch.c`. -/
inductive Mutex where
  | cmdLock
  | lock
  | block
  | encodeLock
  deriving DecidableEq, Repr

/-- What a thread waits for: `k_fifo_get`, `bt_buf_get_tx` and the semaphores
`cmd_done` and `ed_done`. -/
inductive Wait where
  | hciRx
  | cmdBuffer
  | cmdDone
  | edDone
  deriving DecidableEq, Repr

inductive Act where
  | giveTxReady
  | giveCmdDone
  | resetCmdDone
  | unrefBuffer
  | resetEdDone
  deriving DecidableEq, Repr

/-- What comes from the controller, the drivers and the transmit thread. -/
inductive Outside where
  | hciPacket
  | bufferSent
  | edComplete
  | takeTxReady
  deriving DecidableEq, Repr

/-- The packets in `hci_rx`, whether the one command buffer is free, and the
semaphores. -/
structure Signals where
  hciRx : Nat := 0
  cmdBuffer : Bool := true
  cmdDone : Bool := false
  edDone : Bool := false
  txReady : Bool := false
  deriving DecidableEq, Repr

def Signals.take (s : Signals) : Wait → Option Signals
  | .hciRx => if s.hciRx = 0 then none else some { s with hciRx := s.hciRx - 1 }
  | .cmdBuffer => if s.cmdBuffer then some { s with cmdBuffer := false } else none
  | .cmdDone => if s.cmdDone then some { s with cmdDone := false } else none
  | .edDone => if s.edDone then some { s with edDone := false } else none

def Signals.perform (s : Signals) : Act → Signals
  | .giveTxReady => { s with txReady := true }
  | .giveCmdDone => { s with cmdDone := true }
  | .resetCmdDone => { s with cmdDone := false }
  | .unrefBuffer => { s with cmdBuffer := true }
  | .resetEdDone => { s with edDone := false }

def Signals.happen (s : Signals) : Outside → Signals
  | .hciPacket => { s with hciRx := s.hciRx + 1 }
  | .bufferSent => { s with cmdBuffer := true }
  | .edComplete => { s with edDone := true }
  | .takeTxReady => { s with txReady := false }

/-! ## The calls -/

abbrev Call : Type := Code Mutex Wait Act

/-- `sn_link_send`: refused, or put in the ring. -/
def snLinkSend (next : Call) : Call :=
  .lock .encodeLock (.branch (.unlock .encodeLock next)
    (.unlock .encodeLock (.act .giveTxReady next)))

/-- `flush_locked`: nothing to send, or one frame. -/
def flushLocked (next : Call) : Call := .branch next (snLinkSend next)

/-- `if (...) flush_locked();` -/
def flushIf (next : Call) : Call := .branch next (flushLocked next)

/-- `linger_expired`. -/
def lingerExpired : Call := .lock .lock (flushLocked (.unlock .lock .ret))

/-- `sn_batch_flush`. -/
def snBatchFlush : Call := .lock .lock (flushLocked (.unlock .lock .ret))

/-- `sn_batch_add`: an early close, and one of a full batch. -/
def snBatchAdd : Call := .lock .lock (flushIf (flushIf (.unlock .lock .ret)))

/-- `ble_flush_locked`: nothing to send, or one frame. -/
def bleFlushLocked (next : Call) : Call := .branch next (snLinkSend next)

/-- `if (...) ble_flush_locked();` -/
def bleFlushIf (next : Call) : Call := .branch next (bleFlushLocked next)

/-- `ble_linger_expired`. -/
def bleLingerExpired : Call := .lock .block (bleFlushLocked (.unlock .block .ret))

/-- The flush of `sn_radio_ble_stop`. -/
def stopFlush : Call := .lock .block (bleFlushLocked (.unlock .block .ret))

/-- The part of `forward` under the lock. -/
def appendLocked : Call := .lock .block (bleFlushIf (bleFlushIf (.unlock .block .ret)))

/-- `note_command_result`: not the answer waited for, or it is. -/
def noteCommandResult (next : Call) : Call := .branch next (.act .giveCmdDone next)

/-- One round of `fwd_loop`: not every packet is looked at for an answer, and
not every one is captured. -/
def fwdLoop : Call :=
  let rest := .branch .ret appendLocked
  .await .hciRx (.branch rest (noteCommandResult rest))

/-- `hci_command`: no buffer within a second, refused by `bt_send`, or sent, with
two seconds for the answer. -/
def hciCommand : Call :=
  .lock .cmdLock (.awaitFor .cmdBuffer
    (.act .resetCmdDone (.branch
      (.act .unrefBuffer (.unlock .cmdLock .ret))
      (.awaitFor .cmdDone (.unlock .cmdLock .ret) (.unlock .cmdLock .ret))))
    (.unlock .cmdLock .ret))

/-- `sn_radio154_energy_detect`: a bad argument or a driver that refuses, a scan
that is refused, or one to wait for. -/
def snRadio154EnergyDetect : Call :=
  .branch .ret (.act .resetEdDone (.branch .ret (.awaitFor .edDone .ret .ret)))

/-- The calls each thread makes. -/
def calls : Thread → List Call
  | .reader => [hciCommand, snBatchFlush, stopFlush, snLinkSend .ret, snRadio154EnergyDetect]
  | .rx => [snBatchAdd]
  | .forwarder => [fwdLoop]
  | .workQueue => [lingerExpired, bleLingerExpired, hciCommand, snLinkSend .ret]
  | .logging => [snLinkSend .ret]

def threads : ThreadSystem Thread Mutex Wait Act Outside Signals where
  calls := calls
  take := Signals.take
  perform := Signals.perform
  happen := Signals.happen

abbrev State : Type := ThreadSystem.State Thread Mutex Wait Act Signals
abbrev Label : Type := ThreadSystem.Label Thread Outside

/-- At boot. -/
def initial : State := ThreadSystem.initial {}

/-! ## Their order -/

/-- A batch's lock before the link's. `cmd_lock` is never for the forwarding
thread, and what waits for the controller holds nothing else. -/
def order : Discipline Thread Mutex Wait where
  rank
    | .cmdLock => 0
    | .lock | .block => 1
    | .encodeLock => 2
  mayLock t m := m != .cmdLock || t == .reader || t == .workQueue
  mayAwait t w := t == .forwarder && w == .hciRx
  mayHope t held w :=
    match w with
    | .cmdBuffer | .cmdDone => (t == .reader || t == .workQueue) && held == [.cmdLock]
    | .edDone => t == .reader && held == []
    | .hciRx => false

theorem order_rank (m : Mutex) : order.rank m < 3 := by
  cases m <;> decide

theorem calls_keep : threads.Keeps order := by
  unfold ThreadSystem.Keeps
  decide

/-- The turns of the longest call. -/
def callTurns : Nat := 19

theorem calls_depth : ∀ t, ∀ c ∈ calls t, c.depth ≤ callTurns := by
  decide

end Nrf54Sniffer.Board.Locks
