import Nrf54Sniffer.Lib.Bytes
import Nrf54Sniffer.Lib.ByteBuffer
import Nrf54Sniffer.Lib.Machine
import Nrf54Sniffer.Lib.DeltaLog
import Nrf54Sniffer.Lib.SinceMark
import Nrf54Sniffer.Lib.PackedStream
import Nrf54Sniffer.Lib.MergedStreams
import Nrf54Sniffer.Lib.PackingCost
import Nrf54Sniffer.Lib.ClaimRing
import Nrf54Sniffer.Lib.Scanner
import Nrf54Sniffer.Lib.Script
import Nrf54Sniffer.Lib.InDoubt
import Nrf54Sniffer.Lib.Covered
import Nrf54Sniffer.Lib.TwoRuns
import Nrf54Sniffer.Lib.DelayedFlush
import Nrf54Sniffer.Lib.TimedFlush
import Nrf54Sniffer.Lib.GreedyCut
import Nrf54Sniffer.Lib.Look
import Nrf54Sniffer.Lib.Potential
import Nrf54Sniffer.Lib.Gauge
import Nrf54Sniffer.Lib.LockOrder
import Nrf54Sniffer.Wire.Fields
import Nrf54Sniffer.Wire.Frame
import Nrf54Sniffer.Wire.TwoLinks
import Nrf54Sniffer.Batch.Batcher
import Nrf54Sniffer.Batch.BatcherTheorems
import Nrf54Sniffer.Batch.FewestFrames
import Nrf54Sniffer.Batch.Accounting
import Nrf54Sniffer.Link.Transmit
import Nrf54Sniffer.Link.TransmitTheorems
import Nrf54Sniffer.Link.ReserveTheorems
import Nrf54Sniffer.Link.HighWater
import Nrf54Sniffer.Link.Reader
import Nrf54Sniffer.Link.ReaderTheorems
import Nrf54Sniffer.Link.LostByte
import Nrf54Sniffer.Link.LostByteTheorems
import Nrf54Sniffer.Link.Reference
import Nrf54Sniffer.Link.RxBuf
import Nrf54Sniffer.Link.Progress
import Nrf54Sniffer.Link.TxThread
import Nrf54Sniffer.Link.HostView
import Nrf54Sniffer.Link.Delivery
import Nrf54Sniffer.Link.RxPath
import Nrf54Sniffer.Radio154.Radio
import Nrf54Sniffer.Radio154.Threads
import Nrf54Sniffer.Radio154.ThreadTheorems
import Nrf54Sniffer.Radio154.Measure
import Nrf54Sniffer.Ble.State
import Nrf54Sniffer.Ble.Notes
import Nrf54Sniffer.Ble.Reports
import Nrf54Sniffer.Ble.Hci
import Nrf54Sniffer.Ble.Forward
import Nrf54Sniffer.Ble.ForwardTheorems
import Nrf54Sniffer.Ble.Tallies
import Nrf54Sniffer.Ble.FewestFrames
import Nrf54Sniffer.Ble.Announcements
import Nrf54Sniffer.Ble.Commands
import Nrf54Sniffer.Ble.CommandTheorems
import Nrf54Sniffer.Ble.StartScript
import Nrf54Sniffer.Ble.Protocol
import Nrf54Sniffer.Ble.ProtocolTheorems
import Nrf54Sniffer.Ble.Slots
import Nrf54Sniffer.Ble.SlotTheorems
import Nrf54Sniffer.Ble.Controller
import Nrf54Sniffer.Ble.ControllerTheorems
import Nrf54Sniffer.Ble.Requests
import Nrf54Sniffer.Ble.RequestTurns
import Nrf54Sniffer.Ble.RequestTheorems
import Nrf54Sniffer.Ble.Mailbox
import Nrf54Sniffer.Ble.MailboxTheorems
import Nrf54Sniffer.Ble.MailboxTurns
import Nrf54Sniffer.Ble.Inspect
import Nrf54Sniffer.Ble.InspectTheorems
import Nrf54Sniffer.Ble.Secrets
import Nrf54Sniffer.Ble.Accounting
import Nrf54Sniffer.Control.Domain
import Nrf54Sniffer.Control.ScanTiming
import Nrf54Sniffer.Control.Handle
import Nrf54Sniffer.Control.Session
import Nrf54Sniffer.Control.SessionTheorems
import Nrf54Sniffer.Board.Firmware
import Nrf54Sniffer.Board.Machine
import Nrf54Sniffer.Board.MachineTheorems
import Nrf54Sniffer.Board.Effects
import Nrf54Sniffer.Board.Moves
import Nrf54Sniffer.Board.OneRadio
import Nrf54Sniffer.Board.Stop
import Nrf54Sniffer.Board.StopTheorems
import Nrf54Sniffer.Board.KeyLife
import Nrf54Sniffer.Board.KeySecrecy
import Nrf54Sniffer.Board.ScanFlag
import Nrf54Sniffer.Board.FilterApplied
import Nrf54Sniffer.Board.Restored
import Nrf54Sniffer.Board.Refused
import Nrf54Sniffer.Board.Replies
import Nrf54Sniffer.Board.InBounds
import Nrf54Sniffer.Board.Handed
import Nrf54Sniffer.Board.Linger
import Nrf54Sniffer.Board.Latency
import Nrf54Sniffer.Board.Accounting
import Nrf54Sniffer.Board.CaptureDelivery
import Nrf54Sniffer.Board.LinkCost
import Nrf54Sniffer.Board.Audit
import Nrf54Sniffer.Board.Recorder
import Nrf54Sniffer.Board.Dialogue
import Nrf54Sniffer.Board.Congestion
import Nrf54Sniffer.Board.Bus
import Nrf54Sniffer.Board.AsStarted
import Nrf54Sniffer.Board.FlagIsScan
import Nrf54Sniffer.Board.Provenance
import Nrf54Sniffer.Board.CommandBound
import Nrf54Sniffer.Board.Locks
import Nrf54Sniffer.Board.LockTheorems
import Nrf54Sniffer.Board.LockWays
