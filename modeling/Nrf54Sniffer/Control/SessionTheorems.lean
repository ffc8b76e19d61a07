/-
Nrf54Sniffer.Control.SessionTheorems — what GET_INFO carries over from one
capture into the next.

Its effect is worked out once, part by part (`stop154_spec`, `stopBle_spec`,
`setAntenna_onboard`), into `getInfo_session`: the session it leaves is
`Session.fresh` of what it carries over and the answer to the reply. Two boards
it leaves with the same session are configured alike by the same frames
(`configured_alike`), and `Session.fresh` tells apart what is carried over, so
the two-run statement is exact (`getInfo_isolates_iff`).
-/
import Nrf54Sniffer.Control.NextCapture

namespace Nrf54Sniffer.Control

open Nrf54Sniffer.Lib
open Nrf54Sniffer.Wire
open Nrf54Sniffer.Radio154
open Nrf54Sniffer.Ble
open Nrf54Sniffer.Board

/-! ## The two stops -/

/-- The radio a stop that succeeds leaves, tuned as it was. -/
theorem snRadio154Stop_spec (r : Radio) (h : r.driver.answers r.driver.log.length = 0) :
    ∃ driver, (snRadio154Stop r).1 = { r with driver, running := false } ∧
      driver.tuned = r.driver.tuned := by
  unfold snRadio154Stop
  split
  · rename_i hstopped
    have hrun : r.running = false := by simpa using hstopped
    exact ⟨r.driver, by rw [← hrun], rfl⟩
  · have hcall : (r.call .stop).2 = 0 := h
    have htuned : (r.driver.call .stop).1.tuned = r.driver.tuned := by
      simp only [Driver.call, h, if_true]
      rfl
    refine ⟨(r.driver.call .stop).1, ?_, htuned⟩
    simp only [hcall, if_true]
    rfl

/-- What stopping the 802.15.4 radio leaves. -/
def stopped154 (fw : Firmware) (driver : Driver) (batcher : Batch.Batcher) (outbox : Outbox) :
    Firmware :=
  { fw with radio := { fw.radio with driver, running := false }, batcher, outbox }

/-- Stopping the 802.15.4 radio closes its batch. -/
theorem stop154_spec {fw : Firmware} (h : BatchesHold fw)
    (hstop : fw.radio.driver.answers fw.radio.driver.log.length = 0) :
    ∃ driver batcher outbox err,
      stop154 fw = some (stopped154 fw driver batcher outbox, err) ∧
      driver.tuned = fw.radio.driver.tuned ∧
      Batch.Rep batcher [] ∧ outbox.answers = fw.outbox.answers ∧
      outbox.log.length = fw.outbox.log.length + (if fw.batcher.count = 0 then 0 else 1) := by
  obtain ⟨ks, hrep, _⟩ := h.batch
  obtain ⟨driver, hradio, htuned⟩ := snRadio154Stop_spec fw.radio hstop
  obtain ⟨b, o, hflush, hrep', hanswers, hlog⟩ := Batch.snBatchFlush_spec hrep fw.outbox
  refine ⟨driver, b, o, (snRadio154Stop fw.radio).2, ?_, htuned, hrep', hanswers, hlog⟩
  simp only [stop154, flushBatch, stopped154, hradio, hflush, Option.map_some]

/-- What stopping the BLE radio leaves, the controller's answer apart. -/
def bleStopped (fw : Firmware) (batch : BleBatch) (stats : BleStats) (outbox : Outbox) : Firmware :=
  flushedStop fw ({ stopCapture fw.ble with batch, stats }, outbox)

/-- Stopping the BLE radio closes its batch. -/
theorem stopBle_spec {fw : Firmware} (h : BatchesHold fw) (hready : fw.ble.ready = true) :
    ∃ batch stats outbox fw' err, stopBle fw = some (fw', err) ∧
      OnlyHci (bleStopped fw batch stats outbox) fw' ∧
      Ble.Rep batch [] ∧ outbox.answers = fw.outbox.answers ∧
      outbox.log.length = fw.outbox.log.length + (if fw.ble.batch.count = 0 then 0 else 1) := by
  obtain ⟨ks, hrep, _⟩ := h.ble
  obtain ⟨batch, stats, o, hflush, hrep', hanswers, hlog⟩ :=
    Ble.stopFlush_spec (s := stopCapture fw.ble) hrep fw.outbox
  have honly := sendCommand_onlyHci (bleStopped fw batch stats o) opReset []
  refine ⟨batch, stats, o, _, (sendCommand (bleStopped fw batch stats o) opReset []).2, ?_, honly,
    hrep', hanswers, hlog⟩
  simp only [stopBle, hready, if_true, snRadioBleStop, hflush, Option.map_some]
  rfl

/-! ## The antenna -/

/-- Asked for the onboard antenna, the switch ends up on it. -/
theorem setAntenna_onboard (fw : Firmware) (hready : fw.rfswCtl.ready = true)
    (hset : fw.rfswCtl.answers fw.rfswCtl.calls = 0) :
    ∃ rfswCtl, (setAntenna fw 0).1 = { fw with rfswCtl } ∧ rfswCtl.enabled = true := by
  show ∃ rfswCtl, (switchAntenna fw true).1 = { fw with rfswCtl } ∧ rfswCtl.enabled = true
  unfold switchAntenna
  cases hon : fw.rfswCtl.enabled with
  | true => exact ⟨fw.rfswCtl, by simp [hready], hon⟩
  | false => exact ⟨(fw.rfswCtl.set true).1, by simp [hready], by simp [Regulator.set, hset]⟩

/-! ## GET_INFO -/

theorem carried_eq_iff (s s' : Firmware) :
    carried s = carried s' ↔ s.ble.filter = s'.ble.filter ∧
      s.radio.currentChannel = s'.radio.currentChannel ∧
      s.radio.driver.tuned = s'.radio.driver.tuned ∧
      mailbox s.ble.follow = mailbox s'.ble.follow := by
  simp only [carried, Carried.mk.injEq]

/-- Once both radios are stopped, the rest of GET_INFO leaves a fresh session. -/
theorem session_freshSession {p : Platform} {fw : Firmware} {command : UInt8}
    (hrun : fw.radio.running = false) (hble : fw.ble.running = false)
    (hkeys : fw.ble.keys = .zero _) (hcount : fw.ble.keyCount = 0)
    (hbatch : Batch.Rep fw.batcher []) (hbleBatch : Ble.Rep fw.ble.batch [])
    (hready : fw.rfswCtl.ready = true) (hset : fw.rfswCtl.answers fw.rfswCtl.calls = 0) :
    session (reply p (freshSession fw) command .ok snFirmwareVersion)
      = Session.fresh (carried fw) (fw.outbox.answers fw.outbox.log.length) := by
  obtain ⟨rfswCtl, hantenna, hon⟩ := setAntenna_onboard
    (defaultSettings (resetCounters { fw with selectedRadio := radio154 })) hready hset
  have hreset : Batch.Rep (Batch.snBatchResetCounters fw.batcher) [] :=
    ⟨hbatch.holds, hbatch.channel, hbatch.first, hbatch.length_le⟩
  have hopen : Batch.openEntries (Batch.snBatchResetCounters fw.batcher) = some [] :=
    Batch.openEntries_rep hreset
  have hopenBle : Ble.openEntries fw.ble.batch = some [] := Ble.openEntries_rep hbleBatch
  unfold freshSession
  rw [hantenna]
  simp only [session, Session.fresh, carried, reply, defaultSettings, resetCounters,
    snRadio154ResetCounters, snRadioBleResetCounters, snRadioBleSetPeriodic, hrun, hble, hkeys,
    hcount, hopen, hopenBle, hon]
  rfl

/-- What GET_INFO leaves: a fresh session, on a board that is ready. -/
structure AfterGetInfo (fw t : Firmware) : Prop where
  session : session t = Session.fresh (carried fw) (replyAnswer fw)
  ready : t.ble.ready = true
  antennaReady : t.rfswCtl.ready = true
  closed : BatchesClosed t

/-- The rest of GET_INFO leaves the batches closed and what is ready, ready. -/
theorem afterGetInfo_freshSession {p : Platform} {fw fw' : Firmware} {command : UInt8}
    (hsession : session (reply p (freshSession fw) command .ok snFirmwareVersion)
      = Session.fresh (carried fw') (replyAnswer fw'))
    (hready : fw.ble.ready = true) (hantenna : fw.rfswCtl.ready = true)
    (hclosed : BatchesClosed fw) :
    AfterGetInfo fw' (reply p (freshSession fw) command .ok snFirmwareVersion) := by
  have hfresh : ∀ fw : Firmware, ∃ rfswCtl,
      (setAntenna fw 0).1 = { fw with rfswCtl } ∧ rfswCtl.ready = fw.rfswCtl.ready := by
    intro fw
    show ∃ rfswCtl, (switchAntenna fw true).1 = { fw with rfswCtl } ∧ _
    unfold switchAntenna
    split
    · exact ⟨fw.rfswCtl, rfl, rfl⟩
    · split
      · exact ⟨fw.rfswCtl, rfl, rfl⟩
      · exact ⟨(fw.rfswCtl.set true).1, rfl, rfl⟩
  obtain ⟨rfswCtl, hset, hswitch⟩ :=
    hfresh (defaultSettings (resetCounters { fw with selectedRadio := radio154 }))
  refine ⟨hsession, ?_, ?_, ?_⟩
  · show (freshSession fw).ble.ready = true
    rw [freshSession, hset]
    exact hready
  · show (freshSession fw).rfswCtl.ready = true
    rw [freshSession, hset]
    exact hswitch.trans hantenna
  · refine ⟨?_, ?_⟩
    · show (freshSession fw).batcher.count = 0
      rw [freshSession, hset]
      exact hclosed.batcher
    · show (freshSession fw).ble.batch.count = 0
      rw [freshSession, hset]
      exact hclosed.batch

/-- GET_INFO never fails, and the session it leaves is the fresh one of what it
does not set. -/
theorem getInfo_session {p : Platform} {fw : Firmware} {payload : List UInt8}
    (h : BatchesHold fw) (hcmd : IsCommand p .getInfo payload) (hok : GetInfoSucceeds fw) :
    ∃ t, snControlHandle p fw .controlCmd payload = some t ∧ AfterGetInfo fw t := by
  match payload, hcmd with
  | id :: b0 :: b1 :: b2 :: b3 :: rest, hid =>
      have hid : p.command id = .getInfo := hid
      obtain ⟨driver, batcher, o₁, err₁, hstop, htuned, hrep, hans₁, hlog₁⟩ :=
        stop154_spec h hok.stopped
      have hstopped : stopRadio fw radio154 =
          some (stopped154 fw driver batcher o₁, err₁) := hstop
      have hhold := stopRadio_holds h hstopped
      obtain ⟨batch, stats, o₂, fw₂, err₂, hstop', ⟨hci, slot, logs, n, rfl⟩, hrep', hans₂, hlog₂⟩ :=
        stopBle_spec hhold hok.ready
      have hboth : stopBoth fw = some (withHci
          (bleStopped (stopped154 fw driver batcher o₁) batch stats o₂) hci slot logs n) := by
        have hradio : stopRadio fw radio154 = stop154 fw := rfl
        rw [stopBoth, hradio, hstop, Option.bind_some]
        exact congrArg (Option.map Prod.fst) hstop'
      have hreply : o₂.answers o₂.log.length = replyAnswer fw := by
        rw [hans₂, hlog₂, replyAnswer, openBatches, ← Nat.add_assoc, ← hlog₁, ← hans₁]
        rfl
      have hsession := @session_freshSession p
        (withHci (bleStopped (stopped154 fw driver batcher o₁) batch stats o₂) hci slot logs n) id
        rfl rfl rfl rfl hrep hrep' hok.antennaReady hok.antennaSet
      have hcarried : carried
          (withHci (bleStopped (stopped154 fw driver batcher o₁) batch stats o₂) hci slot logs n)
          = carried fw := by
        rw [carried_eq_iff]
        exact ⟨rfl, rfl, htuned, rfl⟩
      rw [hcarried] at hsession
      refine ⟨_, ?_, afterGetInfo_freshSession
        (hsession.trans (congrArg (Session.fresh _) hreply)) hok.ready hok.antennaReady
        ⟨hrep.holds.count_eq, hrep'.holds.count_eq⟩⟩
      show onCommand p fw id _ = _
      simp only [onCommand, hid, onGetInfo, hboth, Option.map_some]

/-- The link's account of the reply tells the answers apart. -/
theorem account_reply_inj {r r' : SendResult}
    (h : LinkCounters.account {} replyFrameLen r = LinkCounters.account {} replyFrameLen r') :
    r = r' := by
  have hwater : ∀ queued, (LinkCounters.account {} replyFrameLen (.sent queued)).queuedHighWater
      = queued := by
    intro queued
    show (if queued > 0 then queued else 0) = queued
    split
    · rfl
    · omega
  cases r with
  | sent queued =>
      cases r' with
      | sent queued' =>
          have hqueued := congrArg LinkCounters.queuedHighWater h
          rw [hwater, hwater] at hqueued
          rw [hqueued]
      | noMem => simp [LinkCounters.account] at h
      | inval => simp [LinkCounters.account] at h
  | noMem =>
      cases r' with
      | sent queued' => simp [LinkCounters.account] at h
      | noMem => rfl
      | inval => simp [LinkCounters.account] at h
  | inval =>
      cases r' with
      | sent queued' => simp [LinkCounters.account] at h
      | noMem => simp [LinkCounters.account] at h
      | inval => rfl

/-- A fresh session tells apart what is carried over, and the answer. -/
theorem Session.fresh_eq_iff (c c' : Carried) (r r' : SendResult) :
    Session.fresh c r = Session.fresh c' r' ↔ c = c' ∧ r = r' := by
  constructor
  · intro h
    refine ⟨?_, account_reply_inj (congrArg Session.link h)⟩
    have hfilter : c.filter = c'.filter := congrArg Session.filter h
    have hchannel : c.channel = c'.channel := congrArg Session.channel h
    have htuned : c.tuned = c'.tuned := congrArg Session.tuned h
    have hmail : c.mail = c'.mail := congrArg Session.mail h
    cases c
    cases c'
    simp_all
  · rintro ⟨rfl, rfl⟩
    rfl

/-- **What GET_INFO carries over.** From any two reachable states whose calls
succeed, it leaves two boards that agree on the session, and that the same frames
then configure alike, exactly when the stored filters, the 802.15.4 channels, the
channels the driver is tuned to and the mailboxes of `big_work` agreed, and the
link answers the two replies alike: everything else is as if nothing had happened
before. -/
theorem getInfo_isolates_iff {p : Platform} {s₁ s₂ : Firmware} {payload₁ payload₂ : List UInt8}
    (h₁ : Reachable p s₁) (h₂ : Reachable p s₂)
    (hcmd₁ : IsCommand p .getInfo payload₁) (hcmd₂ : IsCommand p .getInfo payload₂)
    (hok₁ : GetInfoSucceeds s₁) (hok₂ : GetInfoSucceeds s₂) :
    ∃ t₁ t₂, snControlHandle p s₁ .controlCmd payload₁ = some t₁ ∧
      snControlHandle p s₂ .controlCmd payload₂ = some t₂ ∧
      (Isolated p t₁ t₂ ↔
        s₁.ble.filter = s₂.ble.filter ∧ s₁.radio.currentChannel = s₂.radio.currentChannel ∧
          s₁.radio.driver.tuned = s₂.radio.driver.tuned ∧
          mailbox s₁.ble.follow = mailbox s₂.ble.follow ∧ replyAnswer s₁ = replyAnswer s₂) := by
  obtain ⟨t₁, ht₁, hs₁⟩ := getInfo_session h₁.batchesHold hcmd₁ hok₁
  obtain ⟨t₂, ht₂, hs₂⟩ := getInfo_session h₂.batchesHold hcmd₂ hok₂
  have hsession : session t₁ = session t₂ ↔
      s₁.ble.filter = s₂.ble.filter ∧ s₁.radio.currentChannel = s₂.radio.currentChannel ∧
        s₁.radio.driver.tuned = s₂.radio.driver.tuned ∧
        mailbox s₁.ble.follow = mailbox s₂.ble.follow ∧ replyAnswer s₁ = replyAnswer s₂ := by
    rw [hs₁.session, hs₂.session, Session.fresh_eq_iff, carried_eq_iff]
    simp only [and_assoc]
  refine ⟨t₁, t₂, ht₁, ht₂, fun h => hsession.mp h.session, fun hcarried => ?_⟩
  have hsame := hsession.mpr hcarried
  refine ⟨hsame, fun hanswers frames => ?_⟩
  have hready : t₁.ble.ready = t₂.ble.ready ∧ t₁.rfswCtl.ready = t₂.rfswCtl.ready :=
    ⟨hs₁.ready.trans hs₂.ready.symm, hs₁.antennaReady.trans hs₂.antennaReady.symm⟩
  have hnext := next_of_session hsame hready hs₁.closed hs₂.closed hanswers
  exact configured_alike (snControlHandle_holds h₁.batchesHold ht₁) hnext frames

/-! ## A filter that stays -/

/-- A GET_INFO command. -/
def getInfoPayload : List UInt8 := [1, 0, 0, 0, 0]

theorem isCommand_getInfoPayload : IsCommand plainPlatform .getInfo getInfoPayload := rfl

/-- One entry of an accept list: a public address. -/
def oneEntry : List UInt8 := [0, 1, 2, 3, 4, 5, 6]

/-- The board just booted, and the board after a filter of one entry. -/
def afterFilter : Firmware :=
  { boot calmWorld with ble := snRadioBleSetFilter (boot calmWorld).ble oneEntry }

theorem reachable_boot : Reachable plainPlatform (boot calmWorld) := ⟨calmWorld, [], rfl⟩

theorem reachable_afterFilter : Reachable plainPlatform afterFilter :=
  ⟨calmWorld, [.hostFrame .bleFilter oneEntry], rfl⟩

theorem getInfo_isolates_iff_filter :
    ∃ t₁ t₂, snControlHandle plainPlatform (boot calmWorld) .controlCmd getInfoPayload = some t₁ ∧
      snControlHandle plainPlatform afterFilter .controlCmd getInfoPayload = some t₂ ∧
      ¬ Isolated plainPlatform t₁ t₂ := by
  obtain ⟨t₁, t₂, ht₁, ht₂, hiff⟩ := getInfo_isolates_iff reachable_boot reachable_afterFilter
    isCommand_getInfoPayload isCommand_getInfoPayload ⟨rfl, rfl, rfl, rfl, rfl⟩
    ⟨rfl, rfl, rfl, rfl, rfl⟩
  refine ⟨t₁, t₂, ht₁, ht₂, fun h => ?_⟩
  have hfilter : ([] : List (List UInt8)) = [oneEntry] := (hiff.mp h).1
  cases hfilter

/-- **The filter survives GET_INFO.** The sessions after GET_INFO are not the
same for every two reachable states, even with every call succeeding. -/
theorem getInfo_keeps_filter :
    ¬ ∀ (p : Platform) (s₁ s₂ t₁ t₂ : Firmware) (payload : List UInt8),
      Reachable p s₁ → Reachable p s₂ → IsCommand p .getInfo payload →
      GetInfoSucceeds s₁ → GetInfoSucceeds s₂ →
      snControlHandle p s₁ .controlCmd payload = some t₁ →
      snControlHandle p s₂ .controlCmd payload = some t₂ → session t₁ = session t₂ := by
  intro hall
  obtain ⟨t₁, ht₁, hs₁⟩ := getInfo_session reachable_boot.batchesHold isCommand_getInfoPayload
    ⟨rfl, rfl, rfl, rfl, rfl⟩
  obtain ⟨t₂, ht₂, hs₂⟩ := getInfo_session reachable_afterFilter.batchesHold
    isCommand_getInfoPayload ⟨rfl, rfl, rfl, rfl, rfl⟩
  have heq := hall _ _ _ _ _ _ reachable_boot reachable_afterFilter isCommand_getInfoPayload
    ⟨rfl, rfl, rfl, rfl, rfl⟩ ⟨rfl, rfl, rfl, rfl, rfl⟩ ht₁ ht₂
  rw [hs₁.session, hs₂.session] at heq
  have hfilter : ([] : List (List UInt8)) = [oneEntry] := congrArg Session.filter heq
  cases hfilter

end Nrf54Sniffer.Control
