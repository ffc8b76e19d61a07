/-
Nrf54Sniffer.Board.Provenance — every request to follow something was
announced by the controller, in a capture.

A request goes from the event that announces it, through the queue, mailbox or
table it waits in (`Request.waiting`), to the bus. The queue may be full, the
mailbox taken, the table replaced, the capture over: requests are lost on the
way. What is never done is to make one up, nor, for trains and broadcasts, to
send one twice or two in another order. The table of streams is gone over again
from the start when it is replaced while its work item waits for a command, so a
path may be asked for twice, and between those of another set.
-/
import Nrf54Sniffer.Ble.Announcements
import Nrf54Sniffer.Board.AsStarted
import Nrf54Sniffer.Board.Moves

namespace Nrf54Sniffer.Board

open Nrf54Sniffer.Lib
open Nrf54Sniffer.Wire
open Nrf54Sniffer.Radio154
open Nrf54Sniffer.Ble
open Nrf54Sniffer.Control

/-! ## Requests -/

/-- What may be asked of the controller while a capture runs. -/
inductive Request where
  | train
  | broadcast
  | stream
  deriving DecidableEq, Repr

namespace Request

def opcode : Request → UInt16
  | .train => opLePerAdvCreateSync
  | .broadcast => opLeBigCreateSync
  | .stream => opLeSetupIsoPath

/-- The commands that wait for their work item, or may be sent again. -/
def waiting (f : Following) : Request → List HciCommand
  | .train => f.syncQ.map createSync
  | .broadcast => if f.bigWork then [bigCreateSync f.bigParams] else []
  | .stream => f.bisHandles.map setupIsoPath

/-- The commands an event announces. -/
def announced (data : List UInt8) : Request → List HciCommand
  | .train => (trainOf data).toList.map createSync
  | .broadcast => (broadcastOf data).toList.map bigCreateSync
  | .stream => (streamsOf data).map setupIsoPath

/-- The same for an input: only events announce. -/
def heard (k : Request) : Input → List HciCommand
  | .hciPacket h4 data _ => if h4 = h4Event then k.announced data else []
  | _ => []

/-- The commands of this kind on the bus. -/
def sent (k : Request) (log : Traffic) : List HciCommand :=
  (log.map Prod.fst).filter (·.opcode == k.opcode)

/-- The commands `sent` come out of those `given`: in their order, each at most
once, save that the paths of streams only have to be among them. -/
def OutOf (k : Request) (sent given : List HciCommand) : Prop :=
  match k with
  | .stream => sent ⊆ given
  | .train | .broadcast => sent.Sublist given

theorem OutOf.of_sublist {k : Request} {sent given : List HciCommand} (h : sent.Sublist given) :
    k.OutOf sent given := by
  cases k with
  | train => exact h
  | broadcast => exact h
  | stream => exact h.subset

theorem OutOf.trans {k : Request} {xs ys zs : List HciCommand} (h : k.OutOf xs ys)
    (h' : k.OutOf ys zs) : k.OutOf xs zs := by
  cases k with
  | train => exact List.Sublist.trans h h'
  | broadcast => exact List.Sublist.trans h h'
  | stream => exact List.Subset.trans h h'

theorem OutOf.append {k : Request} {xs ys xs' ys' : List HciCommand} (h : k.OutOf xs ys)
    (h' : k.OutOf xs' ys') : k.OutOf (xs ++ xs') (ys ++ ys') := by
  cases k with
  | train => exact List.Sublist.append h h'
  | broadcast => exact List.Sublist.append h h'
  | stream =>
      intro c hc
      rcases List.mem_append.mp hc with hc | hc
      · exact List.mem_append_left _ (h hc)
      · exact List.mem_append_right _ (h' hc)

@[simp] theorem sent_nil (k : Request) : k.sent [] = [] := rfl

@[simp] theorem sent_append (k : Request) (log new : Traffic) :
    k.sent (log ++ new) = k.sent log ++ k.sent new := by
  simp [sent]

theorem sent_sublist (k : Request) (log : Traffic) : (k.sent log).Sublist (log.map Prod.fst) :=
  List.filter_sublist

/-- Commands of another opcode are of another kind. -/
theorem sent_eq_nil {k : Request} {log : Traffic} (h : ∀ x ∈ log, x.1.opcode ≠ k.opcode) :
    k.sent log = [] := by
  refine List.filter_eq_nil_iff.mpr fun c hc => ?_
  obtain ⟨x, hx, rfl⟩ := List.mem_map.mp hc
  simpa using h x hx

theorem sent_of_scanning {k : Request} {log : Traffic}
    (h : ∀ x ∈ log, x.1.opcode ∈ scanningOpcodes) : k.sent log = [] := by
  refine sent_eq_nil fun x hx heq => ?_
  have hmem := h x hx
  rw [heq] at hmem
  have hnone : scanningOpcodes.all (fun o => o != k.opcode) = true := by
    cases k with
    | train => decide
    | broadcast => decide
    | stream => decide
  simpa using List.all_eq_true.mp hnone k.opcode hmem

end Request

/-! ## Fewer requests waiting -/

/-- Nothing has joined what waits. -/
def Fewer (f f' : Following) : Prop := ∀ k : Request, (k.waiting f').Sublist (k.waiting f)

theorem Fewer.refl (f : Following) : Fewer f f := fun _ => .refl _

theorem Fewer.trans {f f' f'' : Following} (h : Fewer f f') (h' : Fewer f' f'') : Fewer f f'' :=
  fun k => (h' k).trans (h k)

theorem onlyHci_follow {fw fw' : Firmware} (h : OnlyHci fw fw') :
    fw'.ble.follow = fw.ble.follow := by
  obtain ⟨_, _, _, _, rfl⟩ := h
  rfl

theorem Move.fewer {E : Radio → UInt8 → UInt32 → Prop} {fw fw' : Firmware} (h : Move E fw fw') :
    Fewer fw.ble.follow fw'.ble.follow := by
  cases h with
  | radio _ => exact .refl _
  | selected _ => exact .refl _
  | phys _ => exact .refl _
  | timing _ _ => exact .refl _
  | periodic _ => exact .refl _
  | antenna _ => exact .refl _
  | counters => exact .refl _
  | hci h =>
      rw [onlyHci_follow h]
      exact .refl _
  | scan =>
      intro k
      cases k with
      | train => exact List.nil_sublist _
      | broadcast => exact .refl _
      | stream => exact List.nil_sublist _
  | flush h =>
      obtain ⟨_, _, rfl, _⟩ := flushBatch_effect h
      exact .refl _
  | stopBle h =>
      rename_i r
      obtain ⟨_, _, heq, _⟩ := stopFlush_effect h
      have hfollow : (flushedStop fw r).ble.follow =
          { fw.ble.follow with syncCount := 0, bigSynced := false } := by
        rw [flushedStop, freeSlots, heq]
        rfl
      rw [hfollow]
      intro k
      cases k with
      | train => exact .refl _
      | broadcast => exact .refl _
      | stream => exact .refl _

/-- A host frame asks for nothing to follow. -/
theorem snControlHandle_fewer {p : Platform} {fw fw' : Firmware} {type : FrameType}
    {payload : List UInt8} (h : snControlHandle p fw type payload = some fw') :
    Fewer fw.ble.follow fw'.ble.follow := by
  cases snControlHandle_handled h with
  | filter payload => exact .refl _
  | keys hset =>
      obtain ⟨line, rfl⟩ | ⟨keys, keyCount, _, rfl⟩ := snRadioBleSetKeys_cases hset
      · exact .refl _
      · exact .refl _
  | command hcommand =>
      obtain ⟨fw₁, status, value, hmoves, rfl⟩ :=
        onCommand_replied (E := fun _ _ _ => True) (fun _ _ => trivial) hcommand
      have hkept : Fewer fw.ble.follow fw₁.ble.follow :=
        row_keeps (R := fun fw fw' => Fewer fw.ble.follow fw'.ble.follow) (fun fw => .refl _)
          Fewer.trans Move.fewer hmoves
      exact hkept
  | ignored _ _ _ => exact .refl _

/-! ## The work items -/

theorem syncOne_follow (fw : Firmware) (req : SyncReq) :
    ∃ n, (syncOne fw req).ble.follow = { fw.ble.follow with syncCount := n } := by
  have hsame := hciCommand_follow fw opLePerAdvCreateSync (perAdvCreateSyncParams req)
  unfold syncOne
  split
  · dsimp only
    split
    · exact ⟨fw.ble.follow.syncCount + 1, by simp only [takeSyncSlot, hsame]⟩
    · exact ⟨fw.ble.follow.syncCount, hsame⟩
  · exact ⟨fw.ble.follow.syncCount, rfl⟩

theorem bigWorkFn_follow (fw : Firmware) (uptime : Int) :
    ∃ synced retryAt, (bigWorkFn fw uptime).ble.follow
      = { fw.ble.follow with
          bigWork := false, bigPending := false, bigSynced := synced, bigRetryAt := retryAt } := by
  have hfinish : ∀ (s : BleRadio) (joined : Bool),
      s.follow = { fw.ble.follow with bigWork := false } →
      ∃ synced retryAt, (finishBig s joined uptime).follow
        = { fw.ble.follow with
            bigWork := false, bigPending := false, bigSynced := synced, bigRetryAt := retryAt } := by
    intro s joined hs
    unfold finishBig
    split
    · exact ⟨_, _, by rw [hs]⟩
    · exact ⟨_, _, by rw [hs]⟩
  unfold bigWorkFn
  split
  · exact hfinish _ _ (hciCommand_follow _ _ _)
  · exact hfinish _ _ rfl

theorem isoPathOne_follow (fw : Firmware) (handle : UInt16) :
    (isoPathOne fw handle).ble.follow = fw.ble.follow := by
  unfold isoPathOne
  split
  · exact onlyHci_follow (sendCommand_onlyHci fw _ _)
  · rfl

/-! ## One step -/

/-- What is sent and what waits afterwards, out of what waited and what was
heard. -/
def Custody (fw fw' : Firmware) (i : Input) (new : Traffic) : Prop :=
  ∀ k : Request, k.OutOf (k.sent new ++ k.waiting fw'.ble.follow)
    (k.waiting fw.ble.follow ++ k.heard i)

/-- Nothing sent, and nothing joining. -/
theorem Custody.fewer {fw fw' : Firmware} (h : Fewer fw.ble.follow fw'.ble.follow) (i : Input)
    {new : Traffic} (hnew : ∀ k : Request, k.sent new = []) : Custody fw fw' i new := by
  intro k
  rw [hnew k, List.nil_append]
  exact .of_sublist ((h k).trans (List.sublist_append_left _ _))

/-- An event. -/
theorem followed_custody {f f' : Following} {data : List UInt8} (h : Followed f f' data)
    (k : Request) : (k.waiting f').Sublist (k.waiting f ++ k.announced data) := by
  cases k with
  | train =>
      rcases h.trains with hsame | ⟨req, hreq, hjoined⟩
      · rw [Request.waiting, hsame]
        exact List.sublist_append_left _ _
      · rw [Request.waiting, hjoined, Request.announced, hreq, List.map_append]
        exact .refl _
  | broadcast =>
      rcases h.broadcast with ⟨hwork, hparams⟩ | ⟨params, hannounced, hparams⟩
      · rw [Request.waiting, hwork, hparams]
        exact List.sublist_append_left _ _
      · rw [Request.waiting, hparams, Request.announced, hannounced]
        refine List.Sublist.trans ?_ (List.sublist_append_right _ _)
        split
        · exact .refl _
        · exact List.nil_sublist _
  | stream =>
      rcases h.streams with ⟨_, hhandles⟩ | hhandles
      · rw [Request.waiting, hhandles]
        exact List.sublist_append_left _ _
      · rw [Request.waiting, hhandles]
        exact List.sublist_append_right _ _

/-- A packet, taken while a capture runs or left. -/
theorem fwdLoop_custody {fw fw' : Firmware} {h4 : UInt8} {data : List UInt8} {now : Readings}
    (hs : fwdLoop fw h4 data now = some fw') (k : Request) :
    (k.waiting fw'.ble.follow).Sublist
      (k.waiting fw.ble.follow ++ k.heard (.hciPacket h4 data now)) := by
  obtain ⟨slot, _, hs⟩ := Option.bind_eq_some_iff.mp hs
  split at hs
  · obtain ⟨⟨ble, outbox⟩, hforward, heq⟩ := Option.map_eq_some_iff.mp hs
    cases heq
    obtain ⟨⟨s₁, p⟩, hbefore, happend⟩ := Option.bind_eq_some_iff.mp hforward
    obtain ⟨batch, stats, rfl⟩ := appendLocked_effect happend
    rcases beforeLock_followed hbefore with hsame | ⟨hevent, hfollowed⟩
    · rw [hsame]
      exact List.sublist_append_left _ _
    · rw [Request.heard, if_pos hevent]
      exact followed_custody hfollowed k
  · cases hs
    exact List.sublist_append_left _ _

/-- Commands of one kind are none of another. -/
theorem sent_other {k k₀ : Request} (hk : k ≠ k₀) {new : Traffic}
    (h : ∀ x ∈ new, x.1.opcode = k₀.opcode) : k.sent new = [] := by
  refine Request.sent_eq_nil fun x hx heq => hk ?_
  have hkind := h x hx
  rw [heq] at hkind
  revert hkind
  cases k <;> cases k₀ <;> decide

/-- A work item that sends some of what waited for it, and leaves the rest, has
the other kinds wait as they did. -/
theorem Custody.worked {fw fw' : Firmware} {i : Input} {new : Traffic} (k₀ : Request)
    (hopcode : ∀ x ∈ new, x.1.opcode = k₀.opcode)
    (htaken : k₀.OutOf (new.map Prod.fst ++ k₀.waiting fw'.ble.follow)
      (k₀.waiting fw.ble.follow))
    (hothers : ∀ k, k ≠ k₀ → k.waiting fw'.ble.follow = k.waiting fw.ble.follow) :
    Custody fw fw' i new := by
  intro k
  by_cases hk : k = k₀
  · subst hk
    have hsent : k.OutOf (k.sent new ++ k.waiting fw'.ble.follow) (k.waiting fw.ble.follow) :=
      .trans (.of_sublist ((k.sent_sublist new).append (.refl _))) htaken
    exact hsent.trans (.of_sublist (List.sublist_append_left _ _))
  · rw [sent_other hk hopcode, hothers k hk, List.nil_append]
    exact .of_sublist (List.sublist_append_left _ _)

/-- Nothing sent, and what waits as it was. -/
theorem Custody.idle {fw fw' : Firmware} (i : Input)
    (h : ∀ k : Request, k.waiting fw'.ble.follow = k.waiting fw.ble.follow) :
    Custody fw fw' i [] := by
  refine Custody.fewer (fun k => ?_) i fun _ => rfl
  simp only [h k, List.Sublist.refl]

/-- Sending nothing new is always allowed. -/
theorem Issues.hostFrame_sent {p : Platform} {fw : Firmware} {type : FrameType}
    {payload : List UInt8} {running : Bool} {new : Traffic}
    (h : Issues p fw (.hostFrame type payload) running new) (k : Request) : k.sent new = [] := by
  cases h with
  | quiet _ => rfl
  | start _ _ =>
      exact Request.sent_of_scanning fun x hx => script_opcode fw x.1 (mem_of_mem_issued hx)
  | stop _ =>
      refine Request.sent_of_scanning fun x hx => ?_
      rw [List.mem_singleton.mp hx]
      exact (by decide : opReset ∈ scanningOpcodes)

/-- Radios, timers, statistics and the log send nothing. -/
theorem Issues.eq_nil {p : Platform} {fw : Firmware} {i : Input} {running : Bool} {new : Traffic}
    (h : Issues p fw i running new) (hframe : ∀ type payload, i ≠ .hostFrame type payload)
    (hsync : i ≠ .syncWork) (hbig : ∀ uptime, i ≠ .bigWork uptime) (hiso : i ≠ .isoPathWork) :
    new = [] := by
  cases h with
  | quiet _ => rfl
  | start hstarts _ =>
      obtain ⟨_, _, _, _, _, _, rfl⟩ := hstarts.command
      exact absurd rfl (hframe _ _)
  | stop hstops =>
      obtain ⟨_, _, _, _, _, _, rfl⟩ := hstops.command
      exact absurd rfl (hframe _ _)
  | train _ _ => exact absurd rfl hsync
  | broadcast _ => exact absurd rfl (hbig _)
  | stream _ _ => exact absurd rfl hiso

/-- A turn of `sync_work_fn` takes the first request off the queue, and sends it
or drops it. -/
theorem syncWorkFn_custody {fw fw' : Firmware} (h : syncWorkFn fw = some fw') :
    ∃ new, Adds fw fw' new ∧ Custody fw fw' .syncWork new := by
  obtain ⟨syncWork, loop, rfl⟩ | ⟨req, syncQ, hqueue, rfl⟩ := syncWorkFn_cases h
  · exact ⟨[], .same rfl, .idle _ fun k => by cases k <;> rfl⟩
  · let fw₀ : Firmware := { fw with ble := leaveQueued fw.ble syncQ }
    obtain ⟨n, hfollow⟩ := syncOne_follow fw₀ req
    have htrains : Request.waiting (syncOne fw₀ req).ble.follow .train = syncQ.map createSync := by
      rw [hfollow]
      rfl
    have hwaited : Request.waiting fw.ble.follow .train
        = createSync req :: syncQ.map createSync := by
      rw [Request.waiting, hqueue, List.map_cons]
    have hothers : ∀ k : Request, k ≠ .train →
        k.waiting (syncOne fw₀ req).ble.follow = k.waiting fw.ble.follow := by
      intro k hk
      rw [hfollow]
      cases k with
      | train => exact absurd rfl hk
      | broadcast => rfl
      | stream => rfl
    rcases syncOne_adds fw₀ req with hquiet | ⟨_, hadds, _⟩
    · refine ⟨[], .same hquiet.hci, .worked .train (fun x hx => absurd hx List.not_mem_nil) ?_
        hothers⟩
      rw [htrains, hwaited]
      exact List.sublist_cons_self _ _
    · refine ⟨_, hadds, .worked .train (fun x hx => ?_) ?_ hothers⟩
      · rw [List.mem_singleton.mp hx]
        rfl
      · rw [htrains, hwaited]
        exact List.Sublist.refl _

theorem bigWorkFn_custody {p : Platform} {fw : Firmware} {uptime : Int} {running : Bool}
    {new : Traffic} (hposted : fw.ble.follow.bigWork = true)
    (h : Issues p fw (.bigWork uptime) running new) :
    Custody fw (bigWorkFn fw uptime) (.bigWork uptime) new := by
  obtain ⟨synced, retryAt, hfollow⟩ := bigWorkFn_follow fw uptime
  have hwaited : Request.waiting fw.ble.follow .broadcast
      = [bigCreateSync fw.ble.follow.bigParams] := if_pos hposted
  have htaken : Request.waiting (bigWorkFn fw uptime).ble.follow .broadcast = [] := by
    rw [hfollow]
    rfl
  have hnew : new = [] ∨ new = [(bigCreateSync fw.ble.follow.bigParams, fw.hci.next)] := by
    cases h with
    | quiet _ => exact .inl rfl
    | start hstarts _ => cases hstarts
    | stop hstops => cases hstops
    | broadcast _ => exact .inr rfl
  refine .worked .broadcast (fun x hx => ?_) ?_ fun k hk => ?_
  · rcases hnew with rfl | rfl
    · cases hx
    · rw [List.mem_singleton.mp hx]
      rfl
  · rw [htaken, hwaited]
    rcases hnew with rfl | rfl
    · exact List.nil_sublist _
    · exact List.Sublist.refl _
  · rw [hfollow]
    cases k with
    | train => rfl
    | broadcast => exact absurd rfl hk
    | stream => rfl

/-- A turn of `iso_path_work_fn` leaves the table as it is. -/
theorem isoPathWorkFn_custody {fw fw' : Firmware} (h : isoPathWorkFn fw = some fw') :
    ∃ new, Adds fw fw' new ∧ Custody fw fw' .isoPathWork new := by
  obtain ⟨isoPathWork, loop, rfl⟩ | ⟨handle, i, _, hstream, rfl⟩ := isoPathWorkFn_cases h
  · exact ⟨[], .same rfl, .idle _ fun k => by cases k <;> rfl⟩
  · let fw₀ : Firmware := { fw with ble := setLoop fw.ble (afterPath fw.ble i) }
    have hwaits : ∀ k : Request,
        k.waiting (isoPathOne fw₀ handle).ble.follow = k.waiting fw.ble.follow := by
      intro k
      rw [isoPathOne_follow]
      cases k <;> rfl
    rcases isoPathOne_adds fw₀ handle with hquiet | ⟨_, hadds, _⟩
    · exact ⟨[], .same hquiet.hci, .idle _ hwaits⟩
    · refine ⟨_, hadds, .worked .stream (fun x hx => ?_) ?_ fun k _ => hwaits k⟩
      · rw [List.mem_singleton.mp hx]
        rfl
      · rw [hwaits]
        intro c hc
        rcases List.mem_cons.mp hc with rfl | hc
        · exact List.mem_map_of_mem (List.mem_of_getElem? hstream)
        · exact hc

/-- **One step.** -/
theorem step_custody {p : Platform} {fw fw' : Firmware} {i : Input}
    (hs : step p fw i = some fw') :
    ∃ new, Adds fw fw' new ∧ Custody fw fw' i new := by
  obtain ⟨new, hadds, hissues⟩ := step_issues hs
  have hidle : new = [] → fw'.ble.follow = fw.ble.follow →
      ∃ new, Adds fw fw' new ∧ Custody fw fw' i new := by
    rintro rfl hsame
    exact ⟨[], hadds, .idle i fun k => by rw [hsame]⟩
  cases i with
  | hostFrame type payload =>
      exact ⟨new, hadds, .fewer (snControlHandle_fewer hs) _ hissues.hostFrame_sent⟩
  | received pkt =>
      obtain ⟨captured, batcher, outbox, rfl, _⟩ := receive_effect hs
      exact hidle (hissues.eq_nil nofun nofun nofun nofun) rfl
  | radioEvent event =>
      cases hs
      exact hidle (hissues.eq_nil nofun nofun nofun nofun) rfl
  | hciPacket h4 data now =>
      obtain ⟨_, hs⟩ := Option.ite_none_right_eq_some.mp hs
      refine ⟨new, hadds, fun k => ?_⟩
      rw [hissues.eq_nil nofun nofun nofun nofun]
      exact .of_sublist (fwdLoop_custody hs k)
  | batchLinger =>
      obtain ⟨batcher, outbox, rfl, _⟩ := batchLinger_effect hs
      exact hidle (hissues.eq_nil nofun nofun nofun nofun) rfl
  | bleLinger =>
      obtain ⟨batch, stats, outbox, rfl, _⟩ := bleLinger_effect hs
      exact hidle (hissues.eq_nil nofun nofun nofun nofun) rfl
  | syncWork => exact syncWorkFn_custody hs
  | bigWork uptime =>
      obtain ⟨hposted, hs⟩ := Option.ite_none_right_eq_some.mp hs
      cases hs
      exact ⟨new, hadds, bigWorkFn_custody hposted.1 hissues⟩
  | isoPathWork => exact isoPathWorkFn_custody hs
  | statsRead =>
      obtain ⟨_, rfl⟩ := statsRead_eq hs
      exact hidle (hissues.eq_nil nofun nofun nofun nofun) rfl
  | linkRead queued =>
      obtain ⟨_, rfl⟩ := linkRead_eq hs
      exact hidle (hissues.eq_nil nofun nofun nofun nofun) rfl
  | tickSend =>
      obtain ⟨f, _, rfl⟩ := tickSend_eq hs
      exact hidle (hissues.eq_nil nofun nofun nofun nofun) rfl
  | log =>
      have hs : processLog p fw = some fw' := hs
      unfold processLog at hs
      split at hs
      · cases hs
      · cases hs
        exact hidle (hissues.eq_nil nofun nofun nofun nofun) rfl

/-! ## Every run -/

theorem run_custody {p : Platform} {fw t : Firmware} {inputs : List Input}
    (hrun : (machine p).run fw inputs = some t) :
    ∃ new, t.hci.log = fw.hci.log ++ new ∧ ∀ k : Request,
      k.OutOf (k.sent new ++ k.waiting t.ble.follow)
        (k.waiting fw.ble.follow ++ inputs.flatMap k.heard) := by
  induction inputs generalizing fw with
  | nil =>
      cases hrun
      exact ⟨[], by simp, fun k => .of_sublist (by simp)⟩
  | cons i inputs ih =>
      obtain ⟨fw₁, hstep, hrest⟩ := (machine p).run_cons_eq_some.mp hrun
      obtain ⟨one, hadds, hone⟩ := step_custody hstep
      obtain ⟨more, hlog, hmore⟩ := ih hrest
      refine ⟨one ++ more, by rw [hlog, hadds.log, List.append_assoc], fun k => ?_⟩
      have hrest : k.OutOf (k.sent one ++ (k.sent more ++ k.waiting t.ble.follow))
          ((k.sent one ++ k.waiting fw₁.ble.follow) ++ inputs.flatMap k.heard) := by
        rw [List.append_assoc (k.sent one) (k.waiting _)]
        exact .append (.of_sublist (.refl _)) (hmore k)
      rw [Request.sent_append, List.append_assoc, List.flatMap_cons, ← List.append_assoc
        (k.waiting fw.ble.follow)]
      exact hrest.trans (.append (hone k) (.of_sublist (.refl _)))

/-- **Nothing is followed that was not announced.** After every run: the Create
Syncs sent and the BIG Create Syncs are each, byte for byte and in order, some
of those the controller's events announced, and each event's at most once; and
every ISO data path set up is one that an event announced. -/
theorem requests_were_announced {p : Platform} {w : World} {inputs : List Input} {t : Firmware}
    (hrun : (machine p).run (boot w) inputs = some t) :
    (∀ k ∈ [Request.train, .broadcast], (k.sent t.hci.log).Sublist (inputs.flatMap k.heard)) ∧
    ∀ c ∈ Request.sent .stream t.hci.log, c ∈ inputs.flatMap (Request.heard .stream) := by
  obtain ⟨new, hlog, hall⟩ := run_custody hrun
  have hlog : t.hci.log = new := hlog
  have hout : ∀ k : Request, k.OutOf (k.sent t.hci.log) (inputs.flatMap k.heard) := by
    intro k
    have hnothing : k.waiting (boot w).ble.follow = [] := by
      cases k with
      | train => rfl
      | broadcast => rfl
      | stream => rfl
    have hsub := hall k
    rw [hnothing, List.nil_append] at hsub
    rw [hlog]
    exact .trans (.of_sublist (List.sublist_append_left _ _)) hsub
  refine ⟨fun k hk => ?_, fun c hc => hout .stream hc⟩
  simp only [List.mem_cons, List.not_mem_nil, or_false] at hk
  rcases hk with rfl | rfl
  · exact hout .train
  · exact hout .broadcast

/-! ## A train heard twice -/

/-- Commands as in `fullPlatform`, and SET_BLE_PERIODIC as 9. -/
def followPlatform : Platform where
  command
    | 9 => .setBlePeriodic
    | c => fullPlatform.command c
  status := fullPlatform.status
  format := fullPlatform.format

/-- An extended advertising report with a periodic interval. -/
def trainReport : List UInt8 :=
  [0x3E, 18, 0x0D, 1, 0, 0, 1, 1, 2, 3, 4, 5, 6, 1, 2, 7, 0, 0, 80, 0]

/-- The train is announced twice and asked for once: the slot is taken then. -/
def trainHeardTwice : List Input :=
  [.hostFrame .controlCmd [4, 2, 0, 0, 0], .hostFrame .controlCmd [9, 1, 0, 0, 0],
   .hostFrame .controlCmd [2, 0, 0, 0, 0], .hciPacket 4 trainReport ⟨0, 0, 0⟩, .syncWork, .syncWork,
   .hciPacket 4 trainReport ⟨1, 0, 0⟩, .syncWork, .syncWork]

theorem requests_were_announced_train :
    ∃ t, (machine followPlatform).run (boot calmWorld) trainHeardTwice = some t ∧
      Request.sent .train t.hci.log = [createSync ⟨7, 1, [1, 2, 3, 4, 5, 6]⟩] ∧
      (Request.sent .train t.hci.log).Sublist (trainHeardTwice.flatMap (Request.heard .train)) := by
  have hruns : ((machine followPlatform).run (boot calmWorld) trainHeardTwice).any (fun t =>
      Request.sent .train t.hci.log == [createSync ⟨7, 1, [1, 2, 3, 4, 5, 6]⟩]) = true := by
    decide +kernel
  obtain ⟨t, ht, hsent⟩ := (Option.any_eq_true _ _).mp hruns
  exact ⟨t, ht, beq_iff_eq.mp hsent, (requests_were_announced ht).1 .train (by simp)⟩

end Nrf54Sniffer.Board
