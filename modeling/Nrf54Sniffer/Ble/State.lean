/-
Nrf54Sniffer.Ble.State — the statics of `radio_ble.c`.

The file keeps four kinds of state, and each has its record here: the open
batch (`bbuf` and what goes with it), the ten counters of the STATS frame, the
state of periodic and broadcast following, and what the host configured. `BleRadio`
puts them together.

Event codes, opcodes and limits are the ones of the Bluetooth headers and of
`prj.conf`. Counters are natural numbers, read before they wrap; `sync_count`
and `bcount` stay far below their eight bits.
-/
import Nrf54Sniffer.Lib.ByteBuffer
import Nrf54Sniffer.Wire.Fields

namespace Nrf54Sniffer.Ble

open Nrf54Sniffer.Lib
open Nrf54Sniffer.Wire

/-! ## Constants -/

def h4Event : UInt8 := 0x04
def h4Iso : UInt8 := 0x05

def evtCmdComplete : UInt8 := 0x0E
def evtCmdStatus : UInt8 := 0x0F
def evtLeMeta : UInt8 := 0x3E

def leAdvertisingReport : UInt8 := 0x02
def leExtAdvertisingReport : UInt8 := 0x0D
def lePerAdvSyncEstablished : UInt8 := 0x0E
def lePerAdvertisingReport : UInt8 := 0x0F
def lePerAdvSyncLost : UInt8 := 0x10
def leBigSyncEstablished : UInt8 := 0x1D
def leBigSyncLost : UInt8 := 0x1E
def leBigInfoAdvReport : UInt8 := 0x22
def lePerAdvSyncEstablishedV2 : UInt8 := 0x24
def lePerAdvertisingReportV2 : UInt8 := 0x25

/-- `BT_HCI_ERR_SUCCESS`. -/
def hciSuccess : UInt8 := 0

def maxFilter : Nat := 8
def filterEntry : Nat := 7
def keyEntry : Nat := 23

/-- `CONFIG_BT_CTLR_RL_SIZE`. -/
def maxKeys : Nat := 8

def maxSyncs : Nat := 1

/-- `CONFIG_BT_CTLR_SYNC_ISO_STREAM_COUNT`, which follows
`CONFIG_BT_ISO_MAX_CHAN`. -/
def maxBis : Nat := 2

def bigRetryMs : Int := 5000

/-- The depth of `sync_q`. -/
def syncQueueDepth : Nat := 4

def bleBatchBuf : Nat := 2048
def bleMaxEntries : Nat := 32

/-- u64 base timestamp, u8 count. -/
def bleBatchHdrLen : Nat := 9

/-- u16 dt, u16 orig_len, u8 flags, u16 len. -/
def bleEntryLen : Nat := 7

/-- `SN_BLE_MAX_PACKET`. -/
def snBleMaxPacket : Nat := 300

/-- `SN_BLE_FLAG_TRUNCATED`. -/
def flagTruncated : UInt8 := 0x01

/-! ## Records -/

/-- `bbuf`, `bused`, `bcount`, `bbase_us`, `blast_us` and the linger timer. -/
structure BleBatch where
  buf : ByteBuffer bleBatchBuf := .zero _
  used : Nat := bleBatchHdrLen
  count : Nat := 0
  baseUs : UInt64 := 0
  lastUs : UInt64 := 0
  lingerArmed : Bool := false

/-- The counters `sn_radio_ble_reset_counters` zeroes. -/
structure BleStats where
  captured : Nat := 0
  advReports : Nat := 0
  forwarded : Nat := 0
  oversized : Nat := 0
  dropped : Nat := 0
  periodicSeen : Nat := 0
  periodicSynced : Nat := 0
  periodicReports : Nat := 0
  periodicRefused : Nat := 0
  commandTimeouts : Nat := 0
  deriving DecidableEq, Repr

/-- `struct sync_req`. -/
structure SyncReq where
  sid : UInt8
  addrType : UInt8
  addr : List UInt8
  deriving DecidableEq, Repr

/-- Where the work queue is in the loop of `sync_work_fn` or of
`iso_path_work_fn`: before `k_msgq_get`, or before stream `i`. -/
inductive Loop where
  | idle
  | syncing
  | pathing (i : Nat)
  deriving DecidableEq, Repr

/-- Periodic and broadcast following: the two slots, the requests handed to
the work items, which work items are submitted, and which loop is at work.
`bis_count` is the length of `bisHandles`, `big_len` that of `bigParams`. -/
structure Following where
  syncCount : Nat := 0
  bigSynced : Bool := false
  bigRetryAt : Int := 0
  bisHandles : List UInt16 := []
  syncQ : List SyncReq := []
  bigParams : List UInt8 := []
  bigPending : Bool := false
  syncWork : Bool := false
  bigWork : Bool := false
  isoPathWork : Bool := false
  loop : Loop := .idle
  deriving DecidableEq, Repr

/-- Everything `radio_ble.c` keeps. `filter` holds the `filter_count` entries
in use. -/
structure BleRadio where
  batch : BleBatch := {}
  stats : BleStats := {}
  follow : Following := {}
  running : Bool := false
  ready : Bool := false
  periodicEnabled : Bool := false
  filter : List (List UInt8) := []
  keys : ByteBuffer (maxKeys * keyEntry) := .zero _
  keyCount : Nat := 0

/-- `struct sn_ble_meta`: timestamp, orig_len, flags, reserved, packed. -/
def snBleMeta (timestampUs : UInt64) (origLen : UInt16) (flags : UInt8) : List UInt8 :=
  putLe64 timestampUs ++ putLe16 origLen ++ [flags, 0]

/-- `sizeof(struct sn_ble_meta)`. -/
def snBleMetaLen : Nat := 12

end Nrf54Sniffer.Ble
