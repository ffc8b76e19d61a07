/-
Nrf54Sniffer.Ble.RequestTurns — the steps of `Requests` against the code.

Where nothing comes between them, the steps of a work item are one turn of
`sync_work_fn`, `big_work_fn` or `iso_path_work_fn` (`run_turn`), and such a turn is
what the board takes (`syncWorkFn_eq_turnOf` and its like). Those of the forwarding
thread are the part of `forward` before the lock (`run_handled`). Each of
the three calls of that part writes one of the places a request waits in, and the
sessions of `sync_q` stay beside its requests (`aligned_run`).
-/
import Nrf54Sniffer.Ble.Requests
import Nrf54Sniffer.Ble.StartScript

namespace Nrf54Sniffer.Ble.Requests

open Nrf54Sniffer.Lib
open Nrf54Sniffer.Wire

/-! ## Turns that nothing interrupts -/

/-- The command reached the controller. -/
def wentOut : HciAnswer → Bool
  | .noBuffer | .sendError _ => false
  | .timedOut | .answered _ => true

/-- The steps of a work item from its test on. -/
def turnLabels (a : HciAnswer) (uptime : Int) : List Label :=
  [.test, .work .lock] ++
  (if wentOut a then [.work .send, .work (.answer a.accepted)] else [.work .fail]) ++
  [.note uptime]

/-- The same in the code, on the request taken. -/
def turnOf (fw : Board.Firmware) (uptime : Int) : Job → Board.Firmware
  | .train req _ => syncOne fw req
  | .broadcast =>
      if fw.ble.running then
        noteBigOutcome (hciCommand fw opLeBigCreateSync fw.ble.follow.bigParams) uptime
      else { fw with ble := finishBig fw.ble false uptime }
  | .path _ handle _ => isoPathOne fw handle

theorem syncWorkFn_eq_turnOf {fw : Board.Firmware} {req : SyncReq} {syncQ : List SyncReq}
    (hloop : fw.ble.follow.loop = .syncing) (hqueue : fw.ble.follow.syncQ = req :: syncQ)
    (cause : Nat) (uptime : Int) :
    syncWorkFn fw
      = some (turnOf { fw with ble := leaveQueued fw.ble syncQ } uptime (.train req cause)) := by
  simp only [syncWorkFn, hloop, hqueue]
  rfl

theorem isoPathWorkFn_eq_turnOf {fw : Board.Firmware} {i : Nat} {handle : UInt16}
    (hloop : fw.ble.follow.loop = .pathing i) (hstream : fw.ble.follow.bisHandles[i]? = some handle)
    (cause : Nat) (uptime : Int) :
    isoPathWorkFn fw = some
      (turnOf { fw with ble := setLoop fw.ble (afterPath fw.ble i) } uptime
        (.path i handle cause)) := by
  simp only [isoPathWorkFn, hloop, hstream]
  rfl

theorem bigWorkFn_eq_turnOf (fw : Board.Firmware) (uptime : Int) :
    bigWorkFn fw uptime = turnOf { fw with ble := beginBigWork fw.ble } uptime .broadcast := rfl

/-- What a turn of the code sends and notes. -/
theorem turnOf_spec {fw : Board.Firmware} {job : Job} (uptime : Int)
    (hmay : may fw.ble job = true) :
    (turnOf fw uptime job).ble.follow
        = (noted fw.ble fw.hci.next.accepted uptime job).follow ∧
      (turnOf fw uptime job).hci = fw.hci.push (command fw.ble job) := by
  cases job with
  | train req cause =>
      have hok := hciCommand_ok_iff fw (perAdvCreateSyncParams req)
        (by decide : opLePerAdvCreateSync ≠ 0)
      have hturn : turnOf fw uptime (.train req cause) =
          let r := hciCommand fw opLePerAdvCreateSync (perAdvCreateSyncParams req)
          if r.2.1 = 0 then takeSyncSlot r.1 else r.1 := if_pos hmay
      rw [hturn]
      cases haccepted : fw.hci.next.accepted with
      | true =>
          simp [hok.mpr haccepted, takeSyncSlot, noted, Slots.tallied, command, hciCommand_follow,
            hciCommand_hci]
      | false =>
          simp [hok, haccepted, noted, Slots.tallied, command, hciCommand_follow, hciCommand_hci]
  | broadcast =>
      have hok := hciCommand_ok_iff fw fw.ble.follow.bigParams
        (by decide : opLeBigCreateSync ≠ 0)
      have hturn : turnOf fw uptime .broadcast =
          noteBigOutcome (hciCommand fw opLeBigCreateSync fw.ble.follow.bigParams) uptime :=
        if_pos hmay
      rw [hturn]
      refine ⟨?_, hciCommand_hci fw _ _⟩
      unfold noteBigOutcome
      cases haccepted : fw.hci.next.accepted with
      | true => simp [hok.mpr haccepted, finishBig, noted, Slots.tallied, hciCommand_follow]
      | false => simp [hok, haccepted, finishBig, noted, Slots.tallied, hciCommand_follow]
  | path i handle cause =>
      obtain ⟨hfollow, hhci, -⟩ := sendCommand_spec fw (setupIsoPathParams handle)
        (by decide : opLeSetupIsoPath ≠ 0)
      have hturn : turnOf fw uptime (.path i handle cause) =
          (sendCommand fw opLeSetupIsoPath (setupIsoPathParams handle)).1 := if_pos hmay
      rw [hturn]
      exact ⟨hfollow, hhci⟩

/-- A turn is the code's, where nothing interrupts it. -/
theorem run_turn {s : State} {fw : Board.Firmware} {job : Job} (uptime : Int)
    (htook : s.worker = .took job) (hmay : may s.ble job = true) (hble : fw.ble = s.ble)
    (hlock : s.control.holds = false) (hheard : s.heard = s.session) :
    ∃ t, machine.run s (turnLabels fw.hci.next uptime) = some t ∧
      t.worker = job.next ∧
      t.ble.follow = (turnOf fw uptime job).ble.follow ∧
      (turnOf fw uptime job).hci = fw.hci.push (command s.ble job) ∧
      t.sent = s.sent ++
        if wentOut fw.hci.next then [⟨command s.ble job, s.cause job, s.capture⟩] else [] := by
  have hmay' : may fw.ble job = true := hble ▸ hmay
  obtain ⟨hfollow, hhci⟩ := turnOf_spec uptime hmay'
  rw [hble] at hfollow hhci
  cases hout : wentOut fw.hci.next with
  | true =>
      refine ⟨{ s.issue job with
        ble := noted s.ble fw.hci.next.accepted uptime job
        worker := job.next }, ?_, rfl, hfollow.symm, hhci, rfl⟩
      simp [turnLabels, hout, Machine.run, machine, step, stepWorker, htook, hmay, hlock,
        State.issue, State.answers, hheard]
      exact cause_congr rfl job
  | false =>
      have hrefused : fw.hci.next.accepted = false := by
        cases hnext : fw.hci.next with
        | noBuffer => rfl
        | sendError code => rfl
        | timedOut => rfl
        | answered status => rw [hnext] at hout; cases hout
      refine ⟨{ s with
        ble := noted s.ble fw.hci.next.accepted uptime job
        worker := job.next }, ?_, rfl, hfollow.symm, hhci, by simp⟩
      simp [turnLabels, hout, Machine.run, machine, step, stepWorker, htook, hmay, hlock, hrefused]

/-- The steps of the forwarding thread for a packet it has admitted. -/
def handleLabels (s : State) (p : Packet) (now : Readings) : List Label :=
  if s.ble.periodicEnabled ∧ p.h4 = h4Event then [.count now, .seek, .ask now]
  else [.count now, .seek]

/-- Cutting a packet is counted, and nothing else. -/
theorem countOversized_eq (s : BleRadio) (p : Sized) :
    ∃ stats, countOversized s p = { s with stats } := by
  unfold countOversized
  split
  · exact ⟨_, rfl⟩
  · exact ⟨_, rfl⟩

/-- Counting a packet touches neither the flag nor the setting. -/
theorem countPacket_sameBut {s s' : BleRadio} {p : Packet} {now : Readings}
    (h : countPacket s p now = some s') : SameBut s s' := by
  obtain ⟨stats, hover⟩ := countOversized_eq s (sizePacket p.h4 p.data now.nowUs)
  unfold countPacket countEvent at h
  rw [hover] at h
  split at h
  · obtain ⟨s₁, h₁, hsame⟩ := noteCounts_spec { s with stats } p.data now.uptimeCounts
    cases h.symm.trans h₁
    exact (SameBut.noted s stats s.follow).trans hsame
  · cases h
    exact .noted s stats s.follow

/-- Uninterrupted they are the part of `forward` before the lock. -/
theorem run_handled {s : State} {p : Packet} (now : Readings) (hhand : s.hand = .admitted p) :
    (machine.run s (handleLabels s p now)).map State.ble
      = (beforeLock s.ble p.h4 p.data now).map Prod.fst := by
  have hbefore : (beforeLock s.ble p.h4 p.data now).map Prod.fst
      = (countPacket s.ble p now).bind fun ble => peekEvent ble p.h4 p.data now := by
    change ((countPacket s.ble p now).bind fun ble =>
      (peekEvent ble p.h4 p.data now).bind fun ble => some (ble, _)).map Prod.fst = _
    cases countPacket s.ble p now with
    | none => rfl
    | some ble =>
        simp only [Option.bind_some]
        cases peekEvent ble p.h4 p.data now with
        | none => rfl
        | some ble' => rfl
  rw [hbefore]
  unfold handleLabels
  cases hcount : countPacket s.ble p now with
  | none => split <;> simp [Machine.run, machine, step, stepFwd, hhand, hcount]
  | some ble =>
      have hsetting := (countPacket_sameBut hcount).periodicEnabled
      unfold peekEvent
      split
      · next hlook =>
          cases hseek : notePeriodic ble (peekCopy p.data) with
          | none =>
              simp [Machine.run, machine, step, stepFwd, hhand, hcount, State.counted, hsetting,
                hlook, hseek]
          | some ble' =>
              simp [Machine.run, machine, step, stepFwd, hhand, hcount, State.counted, hsetting,
                hlook, hseek, State.sought, State.asked, Function.comp_def]
      · next hlook =>
          simp [Machine.run, machine, step, stepFwd, hhand, hcount, State.counted, hsetting, hlook]

/-- `scan_started`, uninterrupted. -/
theorem run_opening {s : State} (hopening : s.control = .opening .syncCount) :
    machine.run s (List.replicate 6 .write)
      = some { s with
          ble := scanStarted s.ble
          causes := { s.causes with sync := [] }
          capture := some s.session
          control := .idle } := by
  simp [Machine.run, machine, step, stepControl, hopening, State.written, Control.after,
    ScanStore.next, ScanStore.write, scanStarted]

/-! ## What the forwarding thread writes -/

/-- `sync_q` and the mailbox are as they were. -/
structure SameMail (f f' : Following) : Prop where
  queue : f'.syncQ = f.syncQ
  work : f'.bigWork = f.bigWork
  pending : f'.bigPending = f.bigPending

/-- `note_counts` writes the handles, of a BIG joined, and neither of the other
places. -/
theorem places_of_noted {f f' : Following} {report : Option (Slots.Kind × Bool)}
    (h : Slots.Noted f report f') :
    SameMail f f' ∧ (f'.bisHandles = f.bisHandles ∨ report = some (.broadcast, true)) := by
  cases h with
  | other => exact ⟨⟨rfl, rfl, rfl⟩, .inl rfl⟩
  | synced => exact ⟨⟨rfl, rfl, rfl⟩, .inl rfl⟩
  | unsynced => exact ⟨⟨rfl, rfl, rfl⟩, .inl rfl⟩
  | joined handles => exact ⟨⟨rfl, rfl, rfl⟩, .inr rfl⟩
  | parted retryAt => exact ⟨⟨rfl, rfl, rfl⟩, .inl rfl⟩

theorem countPacket_places {s s' : BleRadio} {p : Packet} {now : Readings}
    (h : countPacket s p now = some s') :
    SameMail s.follow s'.follow ∧
      (s'.follow.bisHandles = s.follow.bisHandles ∨ p.joins = true) := by
  obtain ⟨stats, hover⟩ := countOversized_eq s (sizePacket p.h4 p.data now.nowUs)
  unfold countPacket countEvent at h
  rw [hover] at h
  split at h
  · next hevent =>
      obtain ⟨hmail, hhandles⟩ := places_of_noted (Slots.noteCounts_noted h)
      refine ⟨hmail, hhandles.imp_right fun hreports => ?_⟩
      simp [Packet.joins, hevent, hreports]
  · cases h
    exact ⟨⟨rfl, rfl, rfl⟩, .inl rfl⟩

/-- `note_periodic` writes `sync_q` only. -/
theorem notePeriodic_places {s s' : BleRadio} {hci : List UInt8}
    (h : notePeriodic s hci = some s') :
    s'.running = s.running ∧ s'.follow.bisHandles = s.follow.bisHandles ∧
      s'.follow.bigWork = s.follow.bigWork ∧ s'.follow.bigPending = s.follow.bigPending ∧
      (s'.follow.syncQ = s.follow.syncQ ∨ ∃ req, s'.follow.syncQ = s.follow.syncQ ++ [req]) := by
  rcases notePeriodic_cases h with rfl | ⟨req, rfl⟩
  · exact ⟨rfl, rfl, rfl, rfl, .inl rfl⟩
  · unfold putSyncReq
    split
    · exact ⟨rfl, rfl, rfl, rfl, .inr ⟨req, rfl⟩⟩
    · exact ⟨rfl, rfl, rfl, rfl, .inl rfl⟩

/-! ## The sessions of the queue -/

/-- Each request in `sync_q` has its session beside it. -/
def Aligned (s : State) : Prop := s.causes.sync.length = s.ble.follow.syncQ.length

theorem Aligned.stepFwd {s t : State} {l : Label} (h : Aligned s) (hstep : stepFwd s l = some t) :
    Aligned t := by
  unfold Requests.stepFwd at hstep
  split at hstep
  · split at hstep
    · cases hstep; exact h
    · cases hstep
  · cases hstep; exact h
  -- `.count`
  · next p now _ =>
      obtain ⟨ble, hcount, rfl⟩ := Option.map_eq_some_iff.mp hstep
      obtain ⟨hmail, -⟩ := countPacket_places hcount
      unfold Aligned State.counted
      rw [hmail.queue, ← show s.causes.sync.length = _ from h]
      cases p.joins with
      | true => rfl
      | false => rfl
  -- `.seek`
  · next p _ =>
      split at hstep
      · obtain ⟨ble, hseek, rfl⟩ := Option.map_eq_some_iff.mp hstep
        obtain ⟨-, -, -, -, hqueue⟩ := notePeriodic_places hseek
        have hlength : s.causes.sync.length = s.ble.follow.syncQ.length := h
        unfold Aligned State.sought
        rcases hqueue with hsame | ⟨req, hput⟩
        · simp [hsame, hlength]
        · simp [hput, hlength]
      · cases hstep; exact h
  -- `.ask`
  · next p now _ =>
      obtain ⟨ble, hask, rfl⟩ := Option.map_eq_some_iff.mp hstep
      have hqueue : ble.follow.syncQ = s.ble.follow.syncQ := by
        rcases noteBigInfo_cases hask with rfl | ⟨-, bigParams, rfl⟩
        · rfl
        · rfl
      unfold Aligned State.asked
      rw [hqueue, ← show s.causes.sync.length = _ from h]
      split
      · rfl
      · rfl
  · cases hstep

theorem Aligned.stepWorker {s t : State} {l : Label} (h : Aligned s)
    (hstep : stepWorker s l = some t) : Aligned t := by
  unfold Requests.stepWorker at hstep
  split at hstep
  · unfold stepIdle at hstep
    split at hstep
    · obtain ⟨-, hstep⟩ := Option.ite_none_right_eq_some.mp hstep
      cases hstep; exact h
    · obtain ⟨-, hstep⟩ := Option.ite_none_right_eq_some.mp hstep
      cases hstep; exact h
    · obtain ⟨-, hstep⟩ := Option.ite_none_right_eq_some.mp hstep
      cases hstep; exact h
    · cases hstep
  -- `k_msgq_get`
  · cases hstep
    unfold takeReq
    split
    · next hqueue hcauses =>
        have hlength : s.causes.sync.length = s.ble.follow.syncQ.length := h
        rw [hqueue, hcauses] at hlength
        exact Nat.succ.inj hlength
    · exact h
  · cases hstep
    unfold takeHandle
    split
    · exact h
    · exact h
  · cases hstep; exact h
  · split at hstep
    · cases hstep
    · cases hstep; exact h
  · cases hstep; exact h
  · cases hstep; exact h
  · obtain ⟨-, hstep⟩ := Option.ite_none_right_eq_some.mp hstep
    cases hstep; exact h
  -- `.note`
  · next job ok uptime _ =>
      cases hstep
      have hqueue : (noted s.ble ok uptime job).follow.syncQ = s.ble.follow.syncQ := by
        cases job with
        | path i handle cause => rfl
        | _ => cases ok <;> rfl
      unfold Aligned
      rw [hqueue]
      exact h
  · cases hstep

theorem Aligned.stepControl {s t : State} {l : Label} (h : Aligned s)
    (hstep : stepControl s l = some t) : Aligned t := by
  unfold Requests.stepControl at hstep
  split at hstep
  · cases hstep; exact h
  · cases hstep; exact h
  · obtain ⟨-, hstep⟩ := Option.ite_none_right_eq_some.mp hstep
    cases hstep; exact h
  · split at hstep
    · cases hstep
    · cases hstep; exact h
  · cases hstep
    unfold State.commanded
    split
    · exact h
    · exact h
  · cases hstep; exact h
  · obtain ⟨-, hstep⟩ := Option.ite_none_right_eq_some.mp hstep
    cases hstep; exact h
  · cases hstep; exact h
  -- `.write`
  · next store _ =>
      cases hstep
      cases store with
      | syncQ => rfl
      | _ => exact h
  · cases hstep; exact h
  · cases hstep; exact h
  · cases hstep; exact h
  · cases hstep

theorem aligned_step (s : State) (l : Label) (t : State) (h : Aligned s)
    (hstep : machine.step s l = some t) : Aligned t := by
  change step s l = some t at hstep
  cases l with
  | obey => cases hstep; exact h
  | deliver h4 data => cases hstep; exact h
  | fetch | screen | count _ | seek | ask _ => exact h.stepFwd hstep
  | stop | free | start _ | control _ | done | write | setPeriodic _ | setFilter _ | setKeys _ _ =>
      exact h.stepControl hstep
  | runSync | runBig | runPaths | take | test | work _ | note _ => exact h.stepWorker hstep

/-- In every state reached each request in `sync_q` has its session. -/
theorem aligned_run (ls : List Label) (t : State) (hrun : machine.run initial ls = some t) :
    Aligned t :=
  machine.run_invariant aligned_step (show Aligned initial from rfl) hrun

end Nrf54Sniffer.Ble.Requests
