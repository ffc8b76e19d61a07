/-
Nrf54Sniffer.Board.Accounting — the counters balance over whole runs.

On the BLE side every packet captured is forwarded, refused or open. On the
802.15.4 side every frame captured is in a frame the link accepted since the
last GET_INFO, charged as dropped, or open. `batchEvent` says which call of
`batch.c` an input makes, and the ghost of the machine `accounted` collects
what those calls handed to the link, starting again at each GET_INFO.

The counters live in four files and GET_INFO resets them one after another, so
the balance needs both batches empty by then: the stops have flushed them, and
where the controller never came up no packet ever joined.
-/
import Nrf54Sniffer.Batch.Accounting
import Nrf54Sniffer.Ble.Accounting
import Nrf54Sniffer.Board.Effects

namespace Nrf54Sniffer.Board

open Nrf54Sniffer.Lib
open Nrf54Sniffer.Wire
open Nrf54Sniffer.Batch (snBatchFlush snBatchDropped packetsAccepted)
open Nrf54Sniffer.Radio154
open Nrf54Sniffer.Ble
open Nrf54Sniffer.Control

/-! ## The ghost -/

/-- GET_INFO. -/
def isGetInfo (p : Platform) : Input → Bool
  | .hostFrame .controlCmd (command :: _ :: _ :: _ :: _ :: _) => p.command command == .getInfo
  | _ => false

/-- The commands, GET_INFO apart, that flush the 802.15.4 batch: SET_CHANNEL
and STOP with that radio selected, and a SET_RADIO that leaves it. -/
def flushesBatch (p : Platform) (fw : Firmware) (command : UInt8) (value : UInt32) : Bool :=
  match p.command command with
  | .setChannel | .stop => fw.selectedRadio != radioBle
  | .setRadio =>
      (value == radio154.toUInt32 || value == radioBle.toUInt32) &&
        value != fw.selectedRadio.toUInt32 && fw.selectedRadio != radioBle
  | _ => false

/-- The call of `batch.c` an input makes. -/
def batchEvent (p : Platform) (fw : Firmware) : Input → Option Batch.Event
  | .received (some pkt) =>
      if pkt.psdu ≠ [] ∧ fw.radio.takes then some (.add (fw.radio.packetOf pkt)) else none
  | .batchLinger => some .linger
  | .hostFrame .controlCmd (command :: b0 :: b1 :: b2 :: b3 :: _) =>
      if flushesBatch p fw command (getLe32 b0 b1 b2 b3) then some .flush else none
  | _ => none

/-- What a call hands to the link. -/
def handedOver (fw : Firmware) (e : Option Batch.Event) : List (Frame × SendResult) :=
  (e.bind fun e => Batch.step fw.batcher fw.outbox e).elim []
    fun r => r.2.log.drop fw.outbox.log.length

/-- What `batch.c` has handed over since the last GET_INFO. -/
def sentSince (p : Platform) (fw : Firmware) (i : Input) (sent : List (Frame × SendResult)) :
    List (Frame × SendResult) :=
  if isGetInfo p i then [] else sent ++ handedOver fw (batchEvent p fw i)

/-- The firmware, with what `batch.c` handed over beside it. -/
def accounted (p : Platform) : Machine (Firmware × List (Frame × SendResult)) Input :=
  (machine p).withGhost (sentSince p)

/-- Nothing but the ghost is added. -/
theorem accounted_run (p : Platform) (fw : Firmware) (sent : List (Frame × SendResult))
    (inputs : List Input) :
    ((accounted p).run (fw, sent) inputs).map Prod.fst = (machine p).run fw inputs :=
  (machine p).run_withGhost (sentSince p) fw sent inputs

/-! ## Work that counts no packet -/

/-- Neither batcher nor any of the counters has changed, and a controller that
is not ready does not start to run. -/
structure Uncounted (fw fw' : Firmware) : Prop where
  batcher : fw'.batcher = fw.batcher
  captured : fw'.radio.captured = fw.radio.captured
  books : Ble.books fw'.ble = Ble.books fw.ble
  ready : fw'.ble.ready = fw.ble.ready
  running : fw.ble.ready = false → fw'.ble.running = fw.ble.running

theorem Uncounted.refl (fw : Firmware) : Uncounted fw fw := ⟨rfl, rfl, rfl, rfl, fun _ => rfl⟩

theorem Uncounted.trans {fw fw' fw'' : Firmware} (h : Uncounted fw fw')
    (h' : Uncounted fw' fw'') : Uncounted fw fw'' where
  batcher := h'.batcher.trans h.batcher
  captured := h'.captured.trans h.captured
  books := h'.books.trans h.books
  ready := h'.ready.trans h.ready
  running hready := (h'.running (h.ready.trans hready)).trans (h.running hready)

theorem Uncounted.ofOnlyHci {fw fw' : Firmware} (h : OnlyHci fw fw') : Uncounted fw fw' := by
  obtain ⟨_, _, _, _, rfl⟩ := h
  exact ⟨rfl, rfl, rfl, rfl, fun _ => rfl⟩

theorem Uncounted.reply {fw fw' : Firmware} (h : Uncounted fw fw') (p : Platform)
    (command : UInt8) (status : Status) (value : UInt32) :
    Uncounted fw (reply p fw' command status value) :=
  h.trans ⟨rfl, rfl, rfl, rfl, fun _ => rfl⟩

theorem Uncounted.ofOnlyFollow {fw fw' : Firmware} (h : OnlyFollow fw fw') :
    Uncounted fw fw' := by
  obtain ⟨_, _, _, _, _, rfl⟩ := h
  exact ⟨rfl, rfl, rfl, rfl, fun _ => rfl⟩

theorem setAntenna_uncounted (fw : Firmware) (value : UInt32) :
    Uncounted fw (setAntenna fw value).1 := by
  unfold setAntenna switchAntenna
  repeat' split
  all_goals exact ⟨rfl, rfl, rfl, rfl, fun _ => rfl⟩

theorem edStart_captured (r : Radio) (channel : UInt8) (ms : UInt32) :
    (edStart r channel ms).1.captured = r.captured := by
  unfold edStart
  simp only
  split
  · rfl
  · split
    · rfl
    · rfl

theorem snRadio154EnergyDetect_captured (r : Radio) (channel : UInt8) (symbols : UInt32) :
    (snRadio154EnergyDetect r channel symbols).1.captured = r.captured := by
  unfold snRadio154EnergyDetect
  split
  · rfl
  · exact edStart_captured { r with measuring := true } channel _

theorem onEnergyDetect_uncounted (p : Platform) (fw : Firmware) (command : UInt8)
    (value : UInt32) : Uncounted fw (onEnergyDetect p fw command value) := by
  have hcaptured := snRadio154EnergyDetect_captured fw.radio (value &&& 0xFF).toUInt8 (value >>> 8)
  unfold onEnergyDetect
  split
  · exact (Uncounted.refl fw).reply p command .badValue value
  · split
    rename_i radio err dbm heq
    rw [heq] at hcaptured
    repeat' split
    all_goals exact ⟨rfl, hcaptured, rfl, rfl, fun _ => rfl⟩

theorem snRadioBleSetKeys_uncounted {fw fw' : Firmware} {payload : List UInt8} {err : Int}
    (h : snRadioBleSetKeys fw payload = some (fw', err)) : Uncounted fw fw' := by
  obtain ⟨line, rfl⟩ | ⟨keys, keyCount, _, rfl⟩ := snRadioBleSetKeys_cases h
  · exact ⟨rfl, rfl, rfl, rfl, fun _ => rfl⟩
  · exact ⟨rfl, rfl, rfl, rfl, fun _ => rfl⟩

/-- The background inputs. -/
theorem step_uncounted {p : Platform} {fw fw' : Firmware} {i : Input} (hi : i.background = true)
    (hs : step p fw i = some fw') : Uncounted fw fw' := by
  cases i with
  | radioEvent event =>
      cases hs
      have hcaptured : (radioEvent fw.radio event).captured = fw.radio.captured := by
        unfold radioEvent
        repeat' split
        all_goals rfl
      exact ⟨rfl, hcaptured, rfl, rfl, fun _ => rfl⟩
  | syncWork => exact .ofOnlyFollow (syncWorkFn_onlyFollow hs)
  | bigWork uptime =>
      obtain ⟨_, hs⟩ := Option.ite_none_right_eq_some.mp hs
      cases hs
      exact .ofOnlyFollow (bigWorkFn_onlyFollow fw uptime)
  | isoPathWork => exact .ofOnlyFollow (isoPathWorkFn_onlyFollow hs)
  | statsRead =>
      obtain ⟨_, rfl⟩ := statsRead_eq hs
      exact ⟨rfl, rfl, rfl, rfl, fun _ => rfl⟩
  | linkRead queued =>
      obtain ⟨_, rfl⟩ := linkRead_eq hs
      exact ⟨rfl, rfl, rfl, rfl, fun _ => rfl⟩
  | tickSend =>
      obtain ⟨f, _, rfl⟩ := tickSend_eq hs
      exact ⟨rfl, rfl, rfl, rfl, fun _ => rfl⟩
  | log =>
      simp only [step, processLog] at hs
      split at hs
      · cases hs
      · cases hs
        exact ⟨rfl, rfl, rfl, rfl, fun _ => rfl⟩
  | hostFrame | received | hciPacket | batchLinger | bleLinger => cases hi

/-! ## Starts -/

theorem startBle_uncounted (fw : Firmware) : Uncounted fw (startBle fw).1 := by
  have hstart : Uncounted fw
      (snRadioBleStart fw fw.bleIntervalMs fw.bleWindowMs fw.blePhys).1 := by
    cases hready : fw.ble.ready with
    | false => simp [snRadioBleStart, hready, Uncounted.refl]
    | true =>
        obtain ⟨fw', honly, hcases⟩ :=
          snRadioBleStart_cases fw fw.bleIntervalMs fw.bleWindowMs fw.blePhys
        have hsame := Uncounted.ofOnlyHci honly
        rcases hcases with heq | heq
        · rw [heq]
          exact hsame
        · rw [heq]
          exact ⟨hsame.batcher, hsame.captured, hsame.books, hsame.ready, by simp [hready]⟩
  unfold startBle
  split
  rename_i fw' err heq
  rw [heq] at hstart
  split
  · exact hstart.trans ⟨rfl, rfl, rfl, rfl, fun _ => rfl⟩
  · exact hstart

theorem snRadio154Start_captured (r : Radio) : (snRadio154Start r).1.captured = r.captured := by
  unfold snRadio154Start
  simp only
  split
  · rfl
  · rfl

theorem snRadio154SetChannel_captured (r : Radio) (channel : UInt8) :
    (snRadio154SetChannel r channel).1.captured = r.captured := by
  unfold snRadio154SetChannel
  split
  · rfl
  · simp only
    split
    · rfl
    · rfl

theorem tuneAndStart_uncounted (fw : Firmware) (value : UInt32) :
    Uncounted fw (tuneAndStart fw value).1 := by
  have htuned := snRadio154SetChannel_captured fw.radio value.toUInt8
  have hstarted := snRadio154Start_captured (snRadio154SetChannel fw.radio value.toUInt8).1
  unfold tuneAndStart
  simp only
  split
  · exact ⟨rfl, htuned, rfl, rfl, fun _ => rfl⟩
  · split
    · exact ⟨rfl, hstarted.trans htuned, rfl, rfl, fun _ => rfl⟩
    · exact ⟨rfl, hstarted.trans htuned, rfl, rfl, fun _ => rfl⟩

theorem onStart_uncounted (p : Platform) (fw : Firmware) (command : UInt8) :
    Uncounted fw (onStart p fw command) := by
  unfold onStart
  split
  · exact (startBle_uncounted fw).reply p command _ 0
  · exact ⟨rfl, snRadio154Start_captured fw.radio, rfl, rfl, fun _ => rfl⟩

/-! ## The books -/

/-- The books of the whole firmware, with what `batch.c` has handed over since
the last GET_INFO. -/
structure Books (fw : Firmware) (sent : List (Frame × SendResult)) : Prop where
  ble : Ble.Balanced fw.ble
  batch : fw.radio.captured =
    packetsAccepted sent + snBatchDropped fw.batcher + fw.batcher.count

/-- Equal books balance alike. -/
theorem balanced_of_books {s s' : BleRadio} (h : Ble.Balanced s) (hs : Ble.books s' = Ble.books s) :
    Ble.Balanced s' := by
  simp only [Ble.books, Prod.mk.injEq] at hs
  obtain ⟨hcaptured, hforwarded, hdropped, hoversized, hreports, hbatch⟩ := hs
  refine ⟨?_, ?_, ?_⟩
  · rw [hcaptured, hforwarded, hdropped, hbatch]
    exact h.packets
  · rw [hreports, hcaptured]
    exact h.reports
  · rw [hoversized, hcaptured]
    exact h.oversized

theorem Books.uncounted {fw fw' : Firmware} {sent : List (Frame × SendResult)}
    (h : Books fw sent) (hu : Uncounted fw fw') : Books fw' sent where
  ble := balanced_of_books h.ble hu.books
  batch := by
    rw [hu.captured, hu.batcher]
    exact h.batch

/-- Nothing joins while the controller is not ready. -/
def Idle (fw : Firmware) : Prop :=
  fw.ble.ready = false → fw.ble.running = false ∧ fw.ble.batch.count = 0

theorem idle_uncounted {fw fw' : Firmware} (h : Idle fw) (hu : Uncounted fw fw') : Idle fw' := by
  intro hready
  rw [hu.ready] at hready
  obtain ⟨hrunning, hcount⟩ := h hready
  have hbatch : fw'.ble.batch = fw.ble.batch := by
    have hbooks := hu.books
    simp only [Ble.books, Prod.mk.injEq] at hbooks
    exact hbooks.2.2.2.2.2
  rw [hu.running hready, hbatch]
  exact ⟨hrunning, hcount⟩

/-! ## A call of the batcher -/

/-- What a call hands over goes on the end of the link's log. -/
theorem batchStep_log {fw : Firmware} {e : Batch.Event} {b : Batch.Batcher} {o : Outbox}
    (hold : BatchesHold fw) (hs : Batch.step fw.batcher fw.outbox e = some (b, o)) :
    o.log = fw.outbox.log ++ handedOver fw (some e) := by
  obtain ⟨ks, hrep, hbelow⟩ := hold.batch
  obtain ⟨new, hlog, _, _⟩ := Batch.step_accounts hrep hbelow hs
  simp only [handedOver, Option.bind_some, hs, Option.elim_some, hlog, List.drop_left]

/-- The call, with the packets it brings counted as captured. -/
theorem Books.batchStep {fw fw' : Firmware} {sent : List (Frame × SendResult)} {e : Batch.Event}
    {o : Outbox} (h : Books fw sent) (hold : BatchesHold fw)
    (hs : Batch.step fw.batcher fw.outbox e = some (fw'.batcher, o))
    (hcaptured : fw'.radio.captured = fw.radio.captured + (Batch.added [e]).length)
    (hble : fw'.ble = fw.ble) : Books fw' (sent ++ handedOver fw (some e)) := by
  obtain ⟨ks, hrep, hbelow⟩ := hold.batch
  obtain ⟨new, hlog, _, hsum⟩ := Batch.step_accounts hrep hbelow hs
  have hbatch := h.batch
  have hnew : handedOver fw (some e) = new :=
    List.append_cancel_left ((batchStep_log hold hs).symm.trans hlog)
  refine ⟨by rw [hble]; exact h.ble, ?_⟩
  rw [hnew, hcaptured, Batch.packetsAccepted_append]
  unfold snBatchDropped at hbatch ⊢
  omega

/-- No call. -/
theorem handedOver_none (fw : Firmware) : handedOver fw none = [] := rfl

theorem receive_books {p : Platform} {fw fw' : Firmware} {sent : List (Frame × SendResult)}
    {pkt : Option NetPkt} (h : Books fw sent) (hold : BatchesHold fw)
    (hs : receive fw pkt = some fw') :
    Books fw' (sent ++ handedOver fw (batchEvent p fw (.received pkt))) := by
  obtain ⟨⟨radio, batcher, outbox, err⟩, hrecv, heq⟩ := Option.map_eq_some_iff.mp hs
  cases heq
  cases pkt with
  | none =>
      cases hrecv
      simpa [batchEvent, handedOver_none] using h
  | some pkt =>
      simp only [netRecvData] at hrecv
      by_cases hempty : pkt.psdu = []
      · rw [if_pos hempty] at hrecv
        cases hrecv
        simpa [batchEvent, handedOver_none, hempty] using h
      · rw [if_neg hempty] at hrecv
        cases htakes : fw.radio.takes with
        | false =>
            simp only [htakes, Bool.not_false, if_true] at hrecv
            cases hrecv
            simpa [batchEvent, handedOver_none, htakes] using h
        | true =>
            simp only [htakes, Bool.not_true, Bool.false_eq_true, if_false] at hrecv
            obtain ⟨⟨b, o⟩, hadd, heq⟩ := Option.map_eq_some_iff.mp hrecv
            cases heq
            have hevent : batchEvent p fw (.received (some pkt))
                = some (.add (fw.radio.packetOf pkt)) := if_pos ⟨hempty, htakes⟩
            rw [hevent]
            exact h.batchStep hold hadd rfl rfl

/-! ## Packets and timers -/

theorem fwdLoop_books {fw fw' : Firmware} {sent : List (Frame × SendResult)} {h4 : UInt8}
    {data : List UInt8} {now : Readings} (h : Books fw sent) (hidle : Idle fw)
    (hs : fwdLoop fw h4 data now = some fw') : Books fw' sent ∧ Idle fw' := by
  constructor
  · obtain ⟨slot, _, hs⟩ := Option.bind_eq_some_iff.mp hs
    split at hs
    · obtain ⟨⟨ble, outbox⟩, hforward, heq⟩ := Option.map_eq_some_iff.mp hs
      cases heq
      exact ⟨h.ble.forward hforward, h.batch⟩
    · cases hs
      exact ⟨h.ble, h.batch⟩
  · obtain ⟨slot, batch, stats, follow, outbox, rfl, hsilent⟩ := fwdLoop_effect hs
    intro hready
    obtain ⟨hrunning, hcount⟩ := hidle hready
    refine ⟨hrunning, ?_⟩
    show batch.count = 0
    rw [(hsilent hrunning).1]
    exact hcount

theorem bleLinger_books {fw fw' : Firmware} {sent : List (Frame × SendResult)}
    (h : Books fw sent) (hidle : Idle fw) (hs : bleLinger fw = some fw') :
    Books fw' sent ∧ Idle fw' := by
  obtain ⟨⟨ble, outbox⟩, hflush, heq⟩ := Option.map_eq_some_iff.mp hs
  cases heq
  refine ⟨⟨h.ble.flushed hflush, h.batch⟩, fun hready => ?_⟩
  obtain ⟨batch, stats, rfl, hempty, _⟩ := bleFlushLocked_effect hflush
  exact ⟨(hidle hready).1, hempty⟩

/-! ## Stops -/

/-- `sn_batch_flush`. -/
theorem flushBatch_books {fw fw' : Firmware} {sent : List (Frame × SendResult)}
    (h : Books fw sent) (hold : BatchesHold fw) (hidle : Idle fw)
    (hs : flushBatch fw = some fw') :
    Books fw' (sent ++ handedOver fw (some .flush)) ∧ Idle fw' := by
  obtain ⟨⟨b, o⟩, hflush, heq⟩ := Option.map_eq_some_iff.mp hs
  cases heq
  exact ⟨h.batchStep hold hflush rfl rfl, hidle⟩

theorem snRadio154Stop_captured (r : Radio) : (snRadio154Stop r).1.captured = r.captured := by
  unfold snRadio154Stop
  split
  · rfl
  · simp only
    split
    · rfl
    · rfl

theorem stop154_books {fw fw' : Firmware} {sent : List (Frame × SendResult)} {err : Int}
    (h : Books fw sent) (hold : BatchesHold fw) (hidle : Idle fw)
    (hs : stop154 fw = some (fw', err)) :
    Books fw' (sent ++ handedOver fw (some .flush)) ∧ Idle fw' := by
  obtain ⟨fw₁, hflush, heq⟩ := Option.map_eq_some_iff.mp hs
  cases heq
  have hcaptured := snRadio154Stop_captured fw.radio
  have hstopped : Books { fw with radio := (snRadio154Stop fw.radio).1 } sent :=
    ⟨h.ble, hcaptured.trans h.batch⟩
  have hflushed := flushBatch_books hstopped ⟨hold.batch, hold.ble⟩ hidle hflush
  exact hflushed

/-- The BLE stop leaves nothing open: what was is flushed, and nothing was where
the controller never came up. -/
theorem stopBle_empties {fw fw' : Firmware} {err : Int} (hidle : Idle fw)
    (hs : stopBle fw = some (fw', err)) :
    fw'.ble.batch.count = 0 ∧ fw'.batcher = fw.batcher ∧ Idle fw' := by
  cases hready : fw.ble.ready with
  | false =>
      rw [stopBle_notReady hready] at hs
      cases hs
      exact ⟨(hidle hready).2, rfl, hidle⟩
  | true =>
      obtain ⟨batch, stats, outbox, hsent, hempty, _⟩ := stopBle_effect hready hs
      obtain ⟨_, _, _, _, heq⟩ := sendCommand_onlyHci
        (flushedStop fw ({ stopCapture fw.ble with batch, stats }, outbox)) opReset []
      rw [← hsent] at heq
      have heq : fw' = _ := heq
      subst heq
      exact ⟨hempty, rfl, fun _ => ⟨rfl, hempty⟩⟩

theorem stopBle_books {fw fw' : Firmware} {sent : List (Frame × SendResult)} {err : Int}
    (h : Books fw sent) (hs : stopBle fw = some (fw', err)) : Books fw' sent := by
  cases hready : fw.ble.ready with
  | false =>
      rw [stopBle_notReady hready] at hs
      cases hs
      exact h
  | true =>
      rw [stopBle, if_pos hready] at hs
      obtain ⟨⟨ble, outbox⟩, hflush, hsent⟩ := Option.map_eq_some_iff.mp hs
      have hwiped : Ble.Balanced (setLinger (stopCapture fw.ble) false) :=
        ⟨h.ble.packets, h.ble.reports, h.ble.oversized⟩
      have hflushed := hwiped.flushed hflush
      obtain ⟨batch, stats, rfl, _⟩ := stopFlush_effect hflush
      have hfreed : Books
          (flushedStop fw ({ stopCapture fw.ble with batch, stats }, outbox)) sent :=
        ⟨⟨hflushed.packets, hflushed.reports, hflushed.oversized⟩, h.batch⟩
      have hreset := hfreed.uncounted (.ofOnlyHci (sendCommand_onlyHci _ opReset []))
      rw [hsent] at hreset
      exact hreset

/-- The stop of a radio flushes the 802.15.4 batch if it is that radio's. -/
theorem stopRadio_books {fw fw' : Firmware} {sent : List (Frame × SendResult)} {radio : UInt8}
    {err : Int} (h : Books fw sent) (hold : BatchesHold fw) (hidle : Idle fw)
    (hs : stopRadio fw radio = some (fw', err)) :
    Books fw' (sent ++ handedOver fw (if radio != radioBle then some .flush else none)) ∧
      Idle fw' := by
  unfold stopRadio at hs
  split at hs
  · rename_i hble
    simp only [hble, bne_self_eq_false, Bool.false_eq_true, if_false, handedOver_none,
      List.append_nil]
    exact ⟨stopBle_books h hs, (stopBle_empties hidle hs).2.2⟩
  · rename_i hble
    rw [if_pos (bne_iff_ne.mpr hble)]
    exact stop154_books h hold hidle hs

/-- Both stops leave both batches empty, whatever the driver and the controller
answer. -/
theorem stopBoth_empties {fw fw' : Firmware} (hidle : Idle fw) (hs : stopBoth fw = some fw') :
    fw'.batcher.count = 0 ∧ fw'.ble.batch.count = 0 ∧ Idle fw' := by
  obtain ⟨⟨fw₁, err₁⟩, hfirst, hrest⟩ := Option.bind_eq_some_iff.mp hs
  obtain ⟨⟨fw₂, err₂⟩, hsecond, heq⟩ := Option.map_eq_some_iff.mp hrest
  cases heq
  obtain ⟨batcher, outbox, heq₁, _, hempty, _⟩ :=
    stop154_effect (show stop154 fw = some (fw₁, err₁) from hfirst)
  have hidle₁ : Idle fw₁ := by
    rw [heq₁]
    exact hidle
  obtain ⟨hempty', hbatcher, hidle₂⟩ :=
    stopBle_empties hidle₁ (show stopBle fw₁ = some (fw₂, err₂) from hsecond)
  refine ⟨?_, hempty', hidle₂⟩
  show fw₂.batcher.count = 0
  rw [hbatcher, heq₁]
  exact hempty

/-! ## The commands -/

/-- The resets of GET_INFO find nothing open, so the books open balanced. -/
theorem onGetInfo_books {p : Platform} {fw fw' : Firmware} {command : UInt8} (hidle : Idle fw)
    (hs : onGetInfo p fw command = some fw') : Books fw' [] ∧ Idle fw' := by
  obtain ⟨fw₁, hboth, heq⟩ := Option.map_eq_some_iff.mp hs
  cases heq
  obtain ⟨hempty, hempty', hidle₁⟩ := stopBoth_empties hidle hboth
  have hfresh : Uncounted (defaultSettings (resetCounters { fw₁ with selectedRadio := radio154 }))
      (reply p (freshSession fw₁) command .ok snFirmwareVersion) :=
    (setAntenna_uncounted _ 0).reply p command .ok snFirmwareVersion
  have hidle₂ : Idle (defaultSettings (resetCounters { fw₁ with selectedRadio := radio154 })) :=
    hidle₁
  have hreset : Books
      (defaultSettings (resetCounters { fw₁ with selectedRadio := radio154 })) [] := by
    refine ⟨⟨?_, Nat.le_refl 0, Nat.le_refl 0⟩, ?_⟩
    · show 0 = 0 + 0 + fw₁.ble.batch.count
      omega
    · show 0 = 0 + 0 + fw₁.batcher.count
      omega
  exact ⟨hreset.uncounted hfresh, idle_uncounted hidle₂ hfresh⟩

/-- A command that counts no packet and calls `batch.c` for nothing. -/
theorem uncounted_books {fw fw' : Firmware} {sent : List (Frame × SendResult)}
    (h : Books fw sent) (hidle : Idle fw) (hu : Uncounted fw fw') :
    Books fw' (sent ++ handedOver fw none) ∧ Idle fw' := by
  rw [handedOver_none, List.append_nil]
  exact ⟨h.uncounted hu, idle_uncounted hidle hu⟩

theorem onSetRadio_books {p : Platform} {fw fw' : Firmware} {sent : List (Frame × SendResult)}
    {command : UInt8} {value : UInt32} (h : Books fw sent) (hold : BatchesHold fw)
    (hidle : Idle fw) (hcommand : p.command command = .setRadio)
    (hs : onSetRadio p fw command value = some fw') :
    Books fw' (sent ++ handedOver fw
      (if flushesBatch p fw command value then some .flush else none)) ∧ Idle fw' := by
  unfold onSetRadio at hs
  split at hs
  · rename_i hother
    cases hs
    have hno : flushesBatch p fw command value = false := by
      simp [flushesBatch, hcommand, hother.1, hother.2]
    rw [hno]
    exact uncounted_books h hidle ((Uncounted.refl fw).reply p command .badValue value)
  · rename_i hknown
    have hvalue : (value == radio154.toUInt32 || value == radioBle.toUInt32) = true := by
      rw [Bool.or_eq_true, beq_iff_eq, beq_iff_eq]
      exact Decidable.or_iff_not_not_and_not.mpr hknown
    obtain ⟨fw₁, hstop, heq⟩ := Option.map_eq_some_iff.mp hs
    cases heq
    split at hstop
    · rename_i hleaves
      obtain ⟨⟨fw₂, err⟩, hstopped, heq⟩ := Option.map_eq_some_iff.mp hstop
      cases heq
      have hflushes : flushesBatch p fw command value = (fw.selectedRadio != radioBle) := by
        simp [flushesBatch, hcommand, hvalue, hleaves]
      rw [hflushes]
      obtain ⟨hbooks, hidle'⟩ := stopRadio_books h hold hidle hstopped
      exact ⟨⟨hbooks.ble, hbooks.batch⟩, hidle'⟩
    · rename_i hstays
      cases hstop
      have hno : flushesBatch p fw command value = false := by
        simp only [ne_eq, Decidable.not_not] at hstays
        simp [flushesBatch, hcommand, hstays]
      rw [hno]
      exact uncounted_books h hidle ⟨rfl, rfl, rfl, rfl, fun _ => rfl⟩

theorem onStop_books {p : Platform} {fw fw' : Firmware} {sent : List (Frame × SendResult)}
    {command : UInt8} {value : UInt32} (h : Books fw sent) (hold : BatchesHold fw)
    (hidle : Idle fw) (hcommand : p.command command = .stop)
    (hs : onStop p fw command = some fw') :
    Books fw' (sent ++ handedOver fw
      (if flushesBatch p fw command value then some .flush else none)) ∧ Idle fw' := by
  obtain ⟨⟨fw₁, err⟩, hstop, heq⟩ := Option.map_eq_some_iff.mp hs
  cases heq
  have hflushes : flushesBatch p fw command value = (fw.selectedRadio != radioBle) := by
    simp [flushesBatch, hcommand]
  rw [hflushes]
  obtain ⟨hbooks, hidle'⟩ := stopRadio_books h hold hidle hstop
  exact ⟨⟨hbooks.ble, hbooks.batch⟩, hidle'⟩

theorem onSetChannel_books {p : Platform} {fw fw' : Firmware} {sent : List (Frame × SendResult)}
    {command : UInt8} {value : UInt32} (h : Books fw sent) (hold : BatchesHold fw)
    (hidle : Idle fw) (hcommand : p.command command = .setChannel)
    (hs : onSetChannel p fw command value = some fw') :
    Books fw' (sent ++ handedOver fw
      (if flushesBatch p fw command value then some .flush else none)) ∧ Idle fw' := by
  have hflushes : flushesBatch p fw command value = (fw.selectedRadio != radioBle) := by
    simp [flushesBatch, hcommand]
  rw [hflushes]
  unfold onSetChannel at hs
  split at hs
  · rename_i hble
    cases hs
    simp only [hble, bne_self_eq_false, Bool.false_eq_true, if_false, handedOver_none,
      List.append_nil]
    exact ⟨⟨h.ble, h.batch⟩, hidle⟩
  · rename_i hble
    rw [if_pos (bne_iff_ne.mpr hble)]
    obtain ⟨fw₁, hflush, heq⟩ := Option.map_eq_some_iff.mp hs
    cases heq
    obtain ⟨hbooks, hidle'⟩ := flushBatch_books h hold hidle hflush
    have htuned := (tuneAndStart_uncounted fw₁ value).reply p command
      (tuneAndStart fw₁ value).2 value
    exact ⟨hbooks.uncounted htuned, idle_uncounted hidle' htuned⟩

/-- The commands that count no packet and call nothing of `batch.c`. -/
theorem onCommand_uncounted {p : Platform} {fw fw' : Firmware} {command : UInt8}
    {value : UInt32} (hset : p.command command ≠ .setRadio)
    (hchannel : p.command command ≠ .setChannel) (hstop : p.command command ≠ .stop)
    (hinfo : p.command command ≠ .getInfo) (hs : onCommand p fw command value = some fw') :
    Uncounted fw fw' := by
  unfold onCommand at hs
  cases hcommand : p.command command with
  | setRadio => exact absurd hcommand hset
  | setChannel => exact absurd hcommand hchannel
  | stop => exact absurd hcommand hstop
  | getInfo => exact absurd hcommand hinfo
  | setBlePhys =>
      simp only [hcommand, Option.some.injEq, onSetBlePhys] at hs
      subst hs
      split
      · exact (Uncounted.refl fw).reply p command .badValue value
      · exact ⟨rfl, rfl, rfl, rfl, fun _ => rfl⟩
  | setBlePeriodic | setBleScan | unknown =>
      simp only [hcommand, Option.some.injEq] at hs
      subst hs
      exact ⟨rfl, rfl, rfl, rfl, fun _ => rfl⟩
  | start =>
      simp only [hcommand, Option.some.injEq] at hs
      subst hs
      exact onStart_uncounted p fw command
  | setAntenna =>
      simp only [hcommand, Option.some.injEq] at hs
      subst hs
      exact (setAntenna_uncounted fw value).reply p command _ value
  | energyDetect =>
      simp only [hcommand, Option.some.injEq] at hs
      subst hs
      exact onEnergyDetect_uncounted p fw command value

/-- Every command but GET_INFO. -/
theorem onCommand_books {p : Platform} {fw fw' : Firmware} {sent : List (Frame × SendResult)}
    {command : UInt8} {value : UInt32} (h : Books fw sent) (hold : BatchesHold fw)
    (hidle : Idle fw) (hinfo : p.command command ≠ .getInfo)
    (hs : onCommand p fw command value = some fw') :
    Books fw' (sent ++ handedOver fw
      (if flushesBatch p fw command value then some .flush else none)) ∧ Idle fw' := by
  by_cases hset : p.command command = .setRadio
  · simp only [onCommand, hset] at hs
    exact onSetRadio_books h hold hidle hset hs
  by_cases hchannel : p.command command = .setChannel
  · simp only [onCommand, hchannel] at hs
    exact onSetChannel_books h hold hidle hchannel hs
  by_cases hstop : p.command command = .stop
  · simp only [onCommand, hstop] at hs
    exact onStop_books h hold hidle hstop hs
  · have hno : flushesBatch p fw command value = false := by
      unfold flushesBatch
      split
      · contradiction
      · contradiction
      · contradiction
      · rfl
    rw [hno]
    exact uncounted_books h hidle (onCommand_uncounted hset hchannel hstop hinfo hs)

/-- A frame of the host. -/
theorem snControlHandle_books {p : Platform} {fw fw' : Firmware}
    {sent : List (Frame × SendResult)} {type : FrameType} {payload : List UInt8}
    (h : Books fw sent) (hold : BatchesHold fw) (hidle : Idle fw)
    (hs : snControlHandle p fw type payload = some fw') :
    Books fw' (sentSince p fw (.hostFrame type payload) sent) ∧ Idle fw' := by
  unfold snControlHandle at hs
  split at hs
  · cases hs
    exact uncounted_books h hidle ⟨rfl, rfl, rfl, rfl, fun _ => rfl⟩
  · obtain ⟨⟨fw₁, err⟩, hkeys, heq⟩ := Option.map_eq_some_iff.mp hs
    cases heq
    exact uncounted_books h hidle (snRadioBleSetKeys_uncounted hkeys)
  · rename_i command b0 b1 b2 b3 rest
    by_cases hinfo : p.command command = .getInfo
    · have hreset : isGetInfo p (.hostFrame .controlCmd (command :: b0 :: b1 :: b2 :: b3 :: rest))
          = true := by
        simp [isGetInfo, hinfo]
      simp only [onCommand, hinfo] at hs
      simp only [sentSince, hreset, if_true]
      exact onGetInfo_books hidle hs
    · have hreset : isGetInfo p (.hostFrame .controlCmd (command :: b0 :: b1 :: b2 :: b3 :: rest))
          = false := by
        simp [isGetInfo, hinfo]
      simp only [sentSince, hreset, Bool.false_eq_true, if_false]
      exact onCommand_books h hold hidle hinfo hs
  · rename_i _ _ hshort
    cases hs
    have hreset : isGetInfo p (.hostFrame type payload) = false := by
      unfold isGetInfo
      split
      · rename_i heq
        cases heq
        exact absurd rfl (hshort _ _ _ _ _ _ rfl)
      · rfl
    have hcalls : batchEvent p fw (.hostFrame type payload) = none := by
      unfold batchEvent
      split
      · rename_i heq
        cases heq
      · rename_i heq
        cases heq
      · rename_i heq
        cases heq
        exact absurd rfl (hshort _ _ _ _ _ _ rfl)
      · rfl
    simp only [sentSince, hreset, hcalls, Bool.false_eq_true, if_false]
    exact uncounted_books h hidle (.refl fw)

/-! ## The ghost and the link -/

/-- The stop of the 802.15.4 radio hands its frame over first. -/
theorem stop154_log {fw fw' : Firmware} {err : Int} (hold : BatchesHold fw)
    (hs : stop154 fw = some (fw', err)) :
    fw'.outbox.log = fw.outbox.log ++ handedOver fw (some .flush) := by
  obtain ⟨fw₁, hflush, heq⟩ := Option.map_eq_some_iff.mp hs
  cases heq
  obtain ⟨⟨b, o⟩, hsent, heq⟩ := Option.map_eq_some_iff.mp hflush
  cases heq
  have hlog := @batchStep_log fw .flush b o hold hsent
  exact hlog

/-- A reply comes after what was handed over before it. -/
theorem prefix_reply {fw fw' : Firmware} {log : List (Frame × SendResult)}
    (h : fw'.outbox.log = fw.outbox.log ++ log) (p : Platform) (command : UInt8)
    (status : Status) (value : UInt32) :
    fw.outbox.log ++ log <+: (reply p fw' command status value).outbox.log := by
  rw [← h]
  exact List.prefix_append _ _

theorem tuneAndStart_outbox (fw : Firmware) (value : UInt32) :
    (tuneAndStart fw value).1.outbox = fw.outbox := by
  unfold tuneAndStart
  simp only
  split
  · rfl
  · split
    · rfl
    · rfl

/-- A command that flushes the batch hands its frame over before it answers. -/
theorem onCommand_log {p : Platform} {fw fw' : Firmware} {command : UInt8} {value : UInt32}
    (hold : BatchesHold fw) (hflushes : flushesBatch p fw command value = true)
    (hs : onCommand p fw command value = some fw') :
    fw.outbox.log ++ handedOver fw (some .flush) <+: fw'.outbox.log := by
  cases hcommand : p.command command with
  | setChannel =>
      simp only [flushesBatch, hcommand, bne_iff_ne] at hflushes
      simp only [onCommand, hcommand, onSetChannel, if_neg hflushes] at hs
      obtain ⟨fw₁, hflush, heq⟩ := Option.map_eq_some_iff.mp hs
      cases heq
      obtain ⟨⟨b, o⟩, hsent, heq⟩ := Option.map_eq_some_iff.mp hflush
      cases heq
      have hlog := @batchStep_log fw .flush b o hold hsent
      refine prefix_reply ?_ p command _ value
      rw [tuneAndStart_outbox]
      exact hlog
  | stop =>
      simp only [flushesBatch, hcommand, bne_iff_ne] at hflushes
      simp only [onCommand, hcommand, onStop, stopRadio, if_neg hflushes] at hs
      obtain ⟨⟨fw₁, err⟩, hstop, heq⟩ := Option.map_eq_some_iff.mp hs
      cases heq
      exact prefix_reply (stop154_log hold hstop) p command _ 0
  | setRadio =>
      simp only [flushesBatch, hcommand, Bool.and_eq_true, Bool.or_eq_true, beq_iff_eq,
        bne_iff_ne] at hflushes
      obtain ⟨⟨hvalue, hleaves⟩, hradio⟩ := hflushes
      have hknown : ¬(value ≠ radio154.toUInt32 ∧ value ≠ radioBle.toUInt32) :=
        Decidable.or_iff_not_not_and_not.mp hvalue
      simp only [onCommand, hcommand, onSetRadio, if_neg hknown, ne_eq, hleaves,
        not_false_eq_true, if_true, stopRadio, if_neg hradio] at hs
      obtain ⟨fw₁, hstop, heq⟩ := Option.map_eq_some_iff.mp hs
      cases heq
      obtain ⟨⟨fw₂, err⟩, hstopped, heq⟩ := Option.map_eq_some_iff.mp hstop
      cases heq
      have hlog := stop154_log hold hstopped
      have hselected : { fw₂ with selectedRadio := value.toUInt8 }.outbox.log =
          fw.outbox.log ++ handedOver fw (some .flush) := hlog
      exact prefix_reply hselected p command .ok value
  | getInfo | setBlePhys | setBlePeriodic | setBleScan | start | setAntenna | energyDetect
  | unknown => simp [flushesBatch, hcommand] at hflushes

/-- What the ghost takes in is what the link was handed: the call of `batch.c`
is the first thing in an input that hands a frame over. -/
theorem handedOver_logged {p : Platform} {fw fw' : Firmware} {i : Input} {e : Batch.Event}
    (hold : BatchesHold fw) (he : batchEvent p fw i = some e) (hs : step p fw i = some fw') :
    fw.outbox.log ++ handedOver fw (some e) <+: fw'.outbox.log := by
  unfold batchEvent at he
  split at he
  · rename_i pkt
    obtain ⟨⟨hpsdu, htakes⟩, he⟩ := Option.ite_none_right_eq_some.mp he
    cases he
    obtain ⟨⟨radio, batcher, outbox, err⟩, hrecv, heq⟩ := Option.map_eq_some_iff.mp hs
    cases heq
    simp only [netRecvData, if_neg hpsdu, htakes, Bool.not_true, Bool.false_eq_true, if_false]
      at hrecv
    obtain ⟨⟨b, o⟩, hadd, heq⟩ := Option.map_eq_some_iff.mp hrecv
    cases heq
    have hlog := @batchStep_log fw (.add (fw.radio.packetOf pkt)) b o hold hadd
    exact ⟨[], by rw [List.append_nil, hlog]⟩
  · cases he
    obtain ⟨⟨b, o⟩, hflush, heq⟩ := Option.map_eq_some_iff.mp hs
    cases heq
    have hlog := @batchStep_log fw .linger b o hold hflush
    exact ⟨[], by rw [List.append_nil, hlog]⟩
  · obtain ⟨hflushes, he⟩ := Option.ite_none_right_eq_some.mp he
    cases he
    exact onCommand_log hold hflushes hs
  · cases he

/-! ## Every run -/

theorem step_books {p : Platform} {fw fw' : Firmware} {sent : List (Frame × SendResult)}
    {i : Input} (h : Books fw sent) (hold : BatchesHold fw) (hidle : Idle fw)
    (hs : step p fw i = some fw') : Books fw' (sentSince p fw i sent) ∧ Idle fw' := by
  cases i with
  | hostFrame type payload => exact snControlHandle_books h hold hidle hs
  | received pkt =>
      refine ⟨receive_books h hold hs, ?_⟩
      obtain ⟨_, _, _, rfl, _⟩ := receive_effect hs
      exact hidle
  | batchLinger =>
      obtain ⟨⟨b, o⟩, hflush, heq⟩ := Option.map_eq_some_iff.mp hs
      cases heq
      exact ⟨h.batchStep hold (e := .linger) hflush rfl rfl, hidle⟩
  | hciPacket h4 data now =>
      obtain ⟨_, hs⟩ := Option.ite_none_right_eq_some.mp hs
      have hsame : sentSince p fw (.hciPacket h4 data now) sent = sent := List.append_nil sent
      rw [hsame]
      exact fwdLoop_books h hidle hs
  | bleLinger =>
      have hsame : sentSince p fw .bleLinger sent = sent := List.append_nil sent
      rw [hsame]
      exact bleLinger_books h hidle hs
  | radioEvent | syncWork | bigWork | isoPathWork | statsRead | linkRead | tickSend | log =>
      exact uncounted_books h hidle (step_uncounted rfl hs)

/-- What holds of the firmware and the ghost after every run. -/
structure Accounted (r : Firmware × List (Frame × SendResult)) : Prop where
  books : Books r.1 r.2
  hold : BatchesHold r.1
  idle : Idle r.1

theorem accounted_boot (w : World) : Accounted (boot w, []) where
  books := ⟨⟨rfl, Nat.le_refl 0, Nat.le_refl 0⟩, rfl⟩
  hold := batchesHold_boot w
  idle _ := ⟨rfl, rfl⟩

theorem step_accounted {p : Platform} (r : Firmware × List (Frame × SendResult)) (i : Input)
    (r' : Firmware × List (Frame × SendResult)) (h : Accounted r)
    (hs : (accounted p).step r i = some r') : Accounted r' := by
  obtain ⟨fw', hstep, heq⟩ := Option.map_eq_some_iff.mp hs
  cases heq
  obtain ⟨hbooks, hidle⟩ := step_books h.books h.hold h.idle hstep
  exact ⟨hbooks, step_batchesHold h.hold hstep, hidle⟩

/-- **The books balance.** After every run, whatever the link answered: every
packet of either radio is in one place of its books, GET_INFO finds both
batches empty when it comes to its resets, and a flush the link refuses is
charged with every packet in the batch. -/
theorem books_balance {p : Platform} {w : World} {inputs : List Input}
    {r : Firmware × List (Frame × SendResult)}
    (hrun : (accounted p).run (boot w, []) inputs = some r) :
    Books r.1 r.2 ∧
      (∀ fw', stopBoth r.1 = some fw' → fw'.batcher.count = 0 ∧ fw'.ble.batch.count = 0) ∧
      (∀ b o, snBatchFlush r.1.batcher r.1.outbox = some (b, o) →
        (r.1.outbox.answers r.1.outbox.log.length).ok = false →
        snBatchDropped b = snBatchDropped r.1.batcher + r.1.batcher.count) ∧
      (∀ s o, stopFlush r.1.ble r.1.outbox = some (s, o) →
        (r.1.outbox.answers r.1.outbox.log.length).ok = false →
        s.stats.dropped = r.1.ble.stats.dropped + r.1.ble.batch.count) := by
  have h := (accounted p).run_invariant step_accounted (accounted_boot w) hrun
  refine ⟨h.books, fun fw' hs => ?_, fun b o hflush hrefused => ?_,
    fun s o hflush hrefused => ?_⟩
  · obtain ⟨hempty, hempty', _⟩ := stopBoth_empties h.idle hs
    exact ⟨hempty, hempty'⟩
  · obtain ⟨ks, hrep, _⟩ := h.hold.batch
    have hcharged : snBatchDropped b = snBatchDropped r.1.batcher +
        (if (r.1.outbox.answers r.1.outbox.log.length).ok then 0 else r.1.batcher.count) :=
      (Batch.flushLocked_charges (hrep.setLinger false) hflush).2
    simpa only [hrefused, Bool.false_eq_true, if_false] using hcharged
  · obtain ⟨batch, forwarded, dropped, rfl, _, _, hdropped, _⟩ := bleFlushLocked_accounts hflush
    have hdropped : dropped = r.1.ble.stats.dropped +
        (if (r.1.outbox.answers r.1.outbox.log.length).ok then 0 else r.1.ble.batch.count) :=
      hdropped
    simpa only [hrefused, Bool.false_eq_true, if_false] using hdropped

/-- A calm board whose link refuses the third frame. -/
def thirdRefused : World :=
  { calmWorld with linkAnswers := fun n => if n = 2 then .noMem else .sent 16 }

/-- Channel 15; two packets that are sent, two that are refused, one more. -/
def fivePackets : List Input :=
  [.hostFrame .controlCmd [5, 15, 0, 0, 0], .received (some oneByte), .received (some oneByte),
    .batchLinger, .received (some oneByte), .received (some oneByte), .batchLinger,
    .received (some oneByte)]

theorem books_balance_five :
    ∃ r, (accounted fullPlatform).run (boot thirdRefused, []) fivePackets = some r ∧
      r.1.radio.captured = 5 ∧ packetsAccepted r.2 = 2 ∧ snBatchDropped r.1.batcher = 2 ∧
      r.1.batcher.count = 1 ∧ Books r.1 r.2 := by
  have hruns : ((accounted fullPlatform).run (boot thirdRefused, []) fivePackets).any (fun r =>
      r.1.radio.captured == 5 && packetsAccepted r.2 == 2 && snBatchDropped r.1.batcher == 2 &&
        r.1.batcher.count == 1) = true := by decide +kernel
  obtain ⟨r, hr, hfacts⟩ := (Option.any_eq_true _ _).mp hruns
  simp only [Bool.and_eq_true, beq_iff_eq] at hfacts
  obtain ⟨⟨⟨hcaptured, haccepted⟩, hdropped⟩, hcount⟩ := hfacts
  exact ⟨r, hr, hcaptured, haccepted, hdropped, hcount, (books_balance hr).1⟩

end Nrf54Sniffer.Board
