/-
Nrf54Sniffer.Ble.CommandTheorems — what a command to the controller may change.

`hci_command` touches the bus, the pending slot, the log and the count of
timeouts, and nothing else (`OnlyHci`). The relation passes along every
sequence of commands, so START, STOP and the work items are described by what
they do apart from it: a work item writes the following (`OnlyFollow`), and a
turn of a loop moves the loop, or deals with one request (`syncWorkFn_cases`,
`isoPathWorkFn_cases`).
-/
import Nrf54Sniffer.Ble.Commands

namespace Nrf54Sniffer.Ble

open Nrf54Sniffer.Wire
open Nrf54Sniffer.Board

/-- The firmware with what a command may change replaced. -/
def withHci (fw : Firmware) (hci : HciBus) (slot : CmdSlot) (logs : List LogLine)
    (commandTimeouts : Nat) : Firmware :=
  { fw with
    hci, slot, logs
    ble := { fw.ble with stats := { fw.ble.stats with commandTimeouts } } }

/-- Only what a command may change has changed. -/
def OnlyHci (fw fw' : Firmware) : Prop :=
  ∃ hci slot logs commandTimeouts, fw' = withHci fw hci slot logs commandTimeouts

theorem OnlyHci.refl (fw : Firmware) : OnlyHci fw fw := ⟨_, _, _, _, rfl⟩

theorem OnlyHci.trans {fw fw' fw'' : Firmware} (h : OnlyHci fw fw') (h' : OnlyHci fw' fw'') :
    OnlyHci fw fw'' := by
  obtain ⟨_, _, _, _, rfl⟩ := h
  obtain ⟨hci, slot, logs, n, rfl⟩ := h'
  exact ⟨hci, slot, logs, n, rfl⟩

theorem OnlyHci.logLine (fw : Firmware) (line : LogLine) : OnlyHci fw (fw.logLine line) :=
  ⟨_, _, _, _, rfl⟩

theorem hciCommand_onlyHci (fw : Firmware) (opcode : UInt16) (params : List UInt8) :
    OnlyHci fw (hciCommand fw opcode params).1 := by
  unfold hciCommand
  cases fw.hci.next with
  | noBuffer => exact ⟨_, _, _, _, rfl⟩
  | sendError code => exact ⟨_, _, _, _, rfl⟩
  | timedOut => exact ⟨_, _, _, _, rfl⟩
  | answered status => exact ⟨_, _, _, _, rfl⟩

theorem sendCommand_onlyHci (fw : Firmware) (opcode : UInt16) (params : List UInt8) :
    OnlyHci fw (sendCommand fw opcode params).1 := by
  have h := hciCommand_onlyHci fw opcode params
  unfold sendCommand
  split
  rename_i fw' err status heq
  rw [heq] at h
  split
  · exact h.trans (.logLine _ _)
  · exact h

/-- What both steps keep, the two together keep. -/
theorem andThen_keeps {P : Firmware → Prop} {r : Firmware × Int}
    {next : Firmware → Firmware × Int} (h : P r.1) (hnext : ∀ fw, P fw → P (next fw).1) :
    P (andThen r next).1 := by
  unfold andThen
  split
  · exact hnext _ h
  · exact h

/-- One more command. -/
theorem OnlyHci.send {fw fw' : Firmware} (h : OnlyHci fw fw') (opcode : UInt16)
    (params : List UInt8) : OnlyHci fw (sendCommand fw' opcode params).1 :=
  h.trans (sendCommand_onlyHci fw' opcode params)

theorem OnlyHci.sendAll {fw fw' : Firmware} (h : OnlyHci fw fw') (cs : List HciCommand) :
    OnlyHci fw (sendAll fw' cs).1 := by
  induction cs generalizing fw' with
  | nil => exact h
  | cons c cs ih => exact andThen_keeps (h.send c.opcode c.params) fun fw'' h'' => ih h''

theorem OnlyHci.applyFilter {fw fw' : Firmware} (h : OnlyHci fw fw') :
    OnlyHci fw (applyFilter fw').1 := by
  have hkeys : OnlyHci fw (applyKeys fw').1 := by
    refine andThen_keeps (h.send _ _) fun fw₁ h₁ => ?_
    refine andThen_keeps (h₁.send _ _) fun fw₂ h₂ => ?_
    refine andThen_keeps (h₂.sendAll _) fun fw₃ h₃ => ?_
    split
    · exact h₃.send _ _
    · exact h₃
  refine andThen_keeps hkeys fun fw₁ h₁ => ?_
  exact andThen_keeps (h₁.send _ _) fun fw₂ h₂ => h₂.sendAll _

theorem scanSetup_onlyHci (fw : Firmware) : OnlyHci fw (scanSetup fw).1 := by
  refine andThen_keeps (sendCommand_onlyHci fw _ _) fun fw₁ h₁ => ?_
  refine andThen_keeps (h₁.send _ _) fun fw₂ h₂ => ?_
  refine andThen_keeps (h₂.send _ _) fun fw₃ h₃ => ?_
  exact andThen_keeps (h₃.send _ _) fun fw₄ h₄ => h₄.applyFilter

/-- A second step ran on what the first left, or did not run. -/
theorem andThen_cases (r : Firmware × Int) (next : Firmware → Firmware × Int) :
    (andThen r next).1 = r.1 ∨ (andThen r next).1 = (next r.1).1 := by
  unfold andThen
  split
  · exact .inr rfl
  · exact .inl rfl

/-- The scan commands, legacy or extended. -/
theorem OnlyHci.startScan {fw fw' : Firmware} (h : OnlyHci fw fw') (phys : UInt8)
    (interval window : UInt16) :
    OnlyHci fw (if phys = 0 then startLegacyScan fw' interval window
      else startExtScan fw' phys interval window).1 := by
  split
  · exact andThen_keeps (h.send _ _) fun fw₁ h₁ => h₁.send _ _
  · exact andThen_keeps (h.send _ _) fun fw₁ h₁ => h₁.send _ _

/-- START changes what commands change and, once the controller took them all,
what `scan_started` sets. -/
theorem snRadioBleStart_cases (fw : Firmware) (intervalMs windowMs : UInt16) (phys : UInt8) :
    ∃ fw', OnlyHci fw fw' ∧
      ((snRadioBleStart fw intervalMs windowMs phys).1 = fw' ∨
       (snRadioBleStart fw intervalMs windowMs phys).1 = { fw' with ble := scanStarted fw'.ble }) := by
  unfold snRadioBleStart
  split
  · exact ⟨fw, .refl fw, .inl rfl⟩
  · have hsetup := scanSetup_onlyHci fw
    rcases andThen_cases (scanSetup fw) _ with h | h
    · exact ⟨_, hsetup, .inl h⟩
    · have hscan := hsetup.startScan phys (unitsPerMs (scanInterval intervalMs))
        (unitsPerMs (scanWindow (scanInterval intervalMs) windowMs))
      rcases andThen_cases _ (fun fw => ({ fw with ble := scanStarted fw.ble }, 0)) with h' | h'
      · exact ⟨_, hscan, .inl (h.trans h')⟩
      · exact ⟨_, hscan, .inr (h.trans h')⟩

/-! ## The work items -/

/-- Only what a work item may change has changed: what a command may, and the
following. -/
def OnlyFollow (fw fw' : Firmware) : Prop :=
  ∃ hci slot logs commandTimeouts follow, fw' =
    { fw with
      hci, slot, logs
      ble := { fw.ble with stats := { fw.ble.stats with commandTimeouts }, follow } }

theorem OnlyFollow.moved (fw : Firmware) (follow : Following) :
    OnlyFollow fw { fw with ble := { fw.ble with follow } } :=
  ⟨_, _, _, _, _, rfl⟩

theorem OnlyHci.onlyFollow {fw fw' : Firmware} (h : OnlyHci fw fw') : OnlyFollow fw fw' := by
  obtain ⟨hci, slot, logs, n, rfl⟩ := h
  exact ⟨hci, slot, logs, n, fw.ble.follow, rfl⟩

theorem OnlyFollow.trans {fw fw' fw'' : Firmware} (h : OnlyFollow fw fw')
    (h' : OnlyFollow fw' fw'') : OnlyFollow fw fw'' := by
  obtain ⟨_, _, _, _, _, rfl⟩ := h
  obtain ⟨hci, slot, logs, n, follow, rfl⟩ := h'
  exact ⟨hci, slot, logs, n, follow, rfl⟩

theorem syncOne_onlyFollow (fw : Firmware) (req : SyncReq) : OnlyFollow fw (syncOne fw req) := by
  have hsent := (hciCommand_onlyHci fw opLePerAdvCreateSync (perAdvCreateSyncParams req)).onlyFollow
  unfold syncOne
  split
  · dsimp only
    split
    · exact hsent.trans (.moved _ _)
    · exact hsent
  · exact .moved fw fw.ble.follow

theorem bigWorkFn_onlyFollow (fw : Firmware) (uptime : Int) :
    OnlyFollow fw (bigWorkFn fw uptime) := by
  have hbegun : OnlyFollow fw { fw with ble := beginBigWork fw.ble } := .moved fw _
  have hnoted : ∀ fw' joined,
      OnlyFollow fw' { fw' with ble := finishBig fw'.ble joined uptime } := by
    intro fw' joined
    unfold finishBig
    split
    · exact .moved fw' _
    · exact .moved fw' _
  unfold bigWorkFn
  split
  · exact (hbegun.trans (hciCommand_onlyHci _ _ _).onlyFollow).trans (hnoted _ _)
  · exact hbegun.trans (hnoted _ false)

theorem isoPathOne_onlyFollow (fw : Firmware) (handle : UInt16) :
    OnlyFollow fw (isoPathOne fw handle) := by
  unfold isoPathOne
  split
  · exact (sendCommand_onlyHci fw _ _).onlyFollow
  · exact .moved fw fw.ble.follow

/-- The loop of `sync_work_fn` begins or ends, or it takes a request. -/
theorem syncWorkFn_cases {fw fw' : Firmware} (h : syncWorkFn fw = some fw') :
    (∃ syncWork loop, fw' =
      { fw with ble := { fw.ble with follow := { fw.ble.follow with syncWork, loop } } }) ∨
    ∃ req syncQ, fw.ble.follow.syncQ = req :: syncQ ∧
      fw' = syncOne { fw with ble := leaveQueued fw.ble syncQ } req := by
  unfold syncWorkFn at h
  split at h
  · obtain ⟨_, h⟩ := Option.ite_none_right_eq_some.mp h
    cases h
    exact .inl ⟨false, .syncing, rfl⟩
  · split at h
    · cases h
      exact .inl ⟨fw.ble.follow.syncWork, .idle, rfl⟩
    · rename_i req syncQ hqueue
      cases h
      exact .inr ⟨req, syncQ, hqueue, rfl⟩
  · cases h

/-- The loop of `iso_path_work_fn` begins or ends, or it deals with a stream. -/
theorem isoPathWorkFn_cases {fw fw' : Firmware} (h : isoPathWorkFn fw = some fw') :
    (∃ isoPathWork loop, fw' =
      { fw with ble := { fw.ble with follow := { fw.ble.follow with isoPathWork, loop } } }) ∨
    ∃ handle i, fw.ble.follow.loop = .pathing i ∧ fw.ble.follow.bisHandles[i]? = some handle ∧
      fw' = isoPathOne { fw with ble := setLoop fw.ble (afterPath fw.ble i) } handle := by
  unfold isoPathWorkFn at h
  split at h
  · obtain ⟨_, h⟩ := Option.ite_none_right_eq_some.mp h
    cases h
    exact .inl ⟨false, .pathing 0, rfl⟩
  · cases h
  · rename_i i hloop
    split at h
    · rename_i handle hstream
      cases h
      exact .inr ⟨handle, i, hloop, hstream, rfl⟩
    · cases h
      exact .inl ⟨fw.ble.follow.isoPathWork, .idle, rfl⟩

theorem syncWorkFn_onlyFollow {fw fw' : Firmware} (h : syncWorkFn fw = some fw') :
    OnlyFollow fw fw' := by
  obtain ⟨syncWork, loop, rfl⟩ | ⟨req, syncQ, _, rfl⟩ := syncWorkFn_cases h
  · exact .moved fw _
  · exact (OnlyFollow.moved fw _).trans (syncOne_onlyFollow _ req)

theorem isoPathWorkFn_onlyFollow {fw fw' : Firmware} (h : isoPathWorkFn fw = some fw') :
    OnlyFollow fw fw' := by
  obtain ⟨isoPathWork, loop, rfl⟩ | ⟨handle, i, _, _, rfl⟩ := isoPathWorkFn_cases h
  · exact .moved fw _
  · exact (OnlyFollow.moved fw _).trans (isoPathOne_onlyFollow _ handle)

end Nrf54Sniffer.Ble
