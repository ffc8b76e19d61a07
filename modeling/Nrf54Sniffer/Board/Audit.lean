/-
Nrf54Sniffer.Board.Audit — what a host can check with the STATS frames it
reads.

The counters of `link.c` start again at each GET_INFO, whose reply is the first
thing counted, so at every moment they are what the log since that reply adds
up to (`Ledger`). A STATS frame carries them as they stood when `stats_tick` read
them, before it asked for `encode_lock`: other frames may have gone before it
since. The host reads the frames accepted, in order: what STATS says was sent is
a first part of what it has read before it, from the reply on, up to the wrap at
2^32.

The machine takes whole calls, so a reading never meets a call of `sn_link_send`
that has put its frame and not counted it, and no frame is counted between the
reset of a GET_INFO and its reply.

The other fields are the radios' books, which balance in every state.
-/
import Nrf54Sniffer.Board.Accounting
import Nrf54Sniffer.Board.CaptureDelivery
import Nrf54Sniffer.Board.Handed
import Nrf54Sniffer.Board.LinkCost
import Nrf54Sniffer.Lib.SinceMark

namespace Nrf54Sniffer.Board

open Nrf54Sniffer.Lib
open Nrf54Sniffer.Wire
open Nrf54Sniffer.Link

variable {p : Platform}

/-! ## The fields -/

/-- The host's reading of 32-bit fields one after another. -/
def get32s : List UInt8 → Option (List Nat)
  | [] => some []
  | b0 :: b1 :: b2 :: b3 :: rest => (get32s rest).map (leValue [b0, b1, b2, b3] :: ·)
  | _ => none

/-- Every counter is read back, up to its wrap. -/
theorem get32s_put32s (fields : List Nat) :
    get32s (put32s fields) = some (fields.map (· % 2 ^ 32)) := by
  induction fields with
  | nil => rfl
  | cons n fields ih =>
      have hvalue : leValue (putLe32 (UInt32.ofNat n)) = n % 2 ^ 32 := by
        have hlt := UInt32.toNat_lt (UInt32.ofNat n)
        rw [putLe32_eq, leValue_leBytes 4 _ hlt, UInt32.toNat_ofNat']
      have hcons : put32s (n :: fields) = putLe32 (UInt32.ofNat n) ++ put32s fields := rfl
      rw [hcons, putLe32, List.cons_append, List.cons_append, List.cons_append, List.cons_append,
        List.nil_append, get32s, ih, Option.map_some, List.map_cons, ← hvalue]
      rfl

/-! ## The ledger -/

/-- The calls of a log, each with whether it was accepted. -/
def callsOf (log : List (Frame × SendResult)) : List (Frame × Bool) :=
  log.map fun c => (c.1, c.2.ok)

/-- The frames accepted. -/
def acceptedOf (log : List (Frame × SendResult)) : List Frame := keptFrames true (callsOf log)

/-- The calls refused for want of room. -/
def refusedIn (log : List (Frame × SendResult)) : Nat := log.countP fun c => c.2 == .noMem

/-- What one call does to the counters. -/
def charge (c : LinkCounters) (e : Frame × SendResult) : LinkCounters :=
  c.account (frameBytes e.1) e.2

/-- The counters after some calls, from what they were. -/
structure Charged (c : LinkCounters) (log : List (Frame × SendResult)) (c' : LinkCounters) :
    Prop where
  sent : c'.framesSent = c.framesSent + UInt32.ofNat (acceptedOf log).length
  bytes : c'.bytesSent = c.bytesSent + UInt32.ofNat (weigh frameBytes (acceptedOf log))
  dropped : c'.framesDropped = c.framesDropped + UInt32.ofNat (refusedIn log)

theorem acceptedOf_cons (e : Frame × SendResult) (log : List (Frame × SendResult)) :
    acceptedOf (e :: log) = if e.2.ok then e.1 :: acceptedOf log else acceptedOf log := by
  cases hok : e.2.ok <;> simp [acceptedOf, callsOf, keptFrames, hok]

theorem foldl_charge (c : LinkCounters) (log : List (Frame × SendResult)) :
    Charged c log (log.foldl charge c) := by
  induction log generalizing c with
  | nil => constructor <;> simp [acceptedOf, callsOf, keptFrames, refusedIn]
  | cons e log ih =>
      obtain ⟨f, r⟩ := e
      have hrest := ih (charge c (f, r))
      rw [List.foldl_cons]
      constructor
      · rw [hrest.sent, acceptedOf_cons]
        cases r <;> simp [charge, LinkCounters.account, SendResult.ok, UInt32.ofNat_add,
          UInt32.add_assoc, UInt32.add_comm]
      · rw [hrest.bytes, acceptedOf_cons]
        cases r <;> simp [charge, LinkCounters.account, SendResult.ok, frameBytes,
          UInt32.ofNat_add, UInt32.add_assoc]
      · rw [hrest.dropped]
        cases r <;> simp [charge, LinkCounters.account, refusedIn, UInt32.ofNat_add,
          UInt32.add_assoc, UInt32.add_comm]

/-- A call of the reply to a GET_INFO. -/
def startsSession (p : Platform) (e : Frame × SendResult) : Bool := isInfoReply p e.1

/-- The log since the session began. -/
def sessionLog (p : Platform) (log : List (Frame × SendResult)) : List (Frame × SendResult) :=
  sinceMark (startsSession p) log

/-- The counters are what the session adds up to, and the board sends its own
types. -/
structure Ledger (p : Platform) (o : Outbox) : Prop where
  totals : Totals charge {} (startsSession p) o.log o.counters
  types : ∀ f ∈ o.frames, f.type ∈ sentTypes

theorem ledger_boot (p : Platform) (w : World) : Ledger p (boot w).outbox where
  totals := .start
  types := by simp [boot, Outbox.frames]

theorem types_send {o : Outbox} {f : Frame} (h : ∀ g ∈ o.frames, g.type ∈ sentTypes)
    (hf : f.type ∈ sentTypes) : ∀ g ∈ (o.send f).1.frames, g.type ∈ sentTypes := by
  intro g hg
  rw [Outbox.send_frames] at hg
  rcases List.mem_append.mp hg with hg | hg
  · exact h g hg
  · rw [List.mem_singleton.mp hg]
    exact hf

theorem Ledger.send {o : Outbox} {f : Frame} (h : Ledger p o) (hf : f.type ∈ sentTypes)
    (hinfo : isInfoReply p f = false) : Ledger p (o.send f).1 where
  totals := h.totals.record hinfo
  types := types_send h.types hf

theorem Ledger.handAll {o : Outbox} {frames : List Frame} (h : Ledger p o)
    (hframes : ∀ f ∈ frames, Ordinary p f) : Ledger p (handAll o frames) := by
  induction frames generalizing o with
  | nil => exact h
  | cons f frames ih =>
      have hf := hframes f (by simp)
      exact ih (h.send hf.sent hf.info) fun g hg => hframes g (by simp [hg])

theorem Ledger.sends {o o' : Outbox} (h : Ledger p o) (hs : Sends (Ordinary p) o o') :
    Ledger p o' := by
  obtain ⟨frames, rfl, hframes⟩ := hs
  exact h.handAll hframes

/-- The counters start again with the reply to a GET_INFO. -/
theorem Ledger.restart {o : Outbox} {f : Frame} (h : Ledger p o) (hf : isInfoReply p f = true) :
    Ledger p ({ o with counters := {} }.send f).1 where
  totals := .restart hf
  types := by
    have htype : f.type ∈ sentTypes := by
      simp only [isInfoReply, Bool.and_eq_true, beq_iff_eq] at hf
      rw [hf.1]
      decide
    exact types_send h.types htype

theorem step_ledger {fw fw' : Firmware} {i : Input} (h : Ledger p fw.outbox)
    (hs : step p fw i = some fw') : Ledger p fw'.outbox := by
  cases step_handing hs with
  | ordinary hsends => exact h.sends hsends
  | stats _ heq =>
      rw [heq]
      exact h.send (by simp [sentTypes]) rfl
  | info hsends hf heq =>
      rw [heq]
      exact (h.sends (hsends.mono fun _ => IsData.ordinary)).restart hf

/-! ## STATS frames -/

/-- The log of a row of calls. -/
theorem handAll_log (o : Outbox) (frames : List Frame) :
    ∃ new, (handAll o frames).log = o.log ++ new ∧ new.map Prod.fst = frames := by
  induction frames generalizing o with
  | nil => exact ⟨[], (List.append_nil _).symm, rfl⟩
  | cons f frames ih =>
      obtain ⟨new, hlog, hnew⟩ := ih (o.send f).1
      refine ⟨(f, o.answers o.log.length) :: new, ?_, by rw [List.map_cons, hnew]⟩
      rw [Outbox.send_log, List.append_assoc] at hlog
      exact hlog

/-- What a step adds to the log: a STATS frame only as the first thing, and
with the fields that `stats_tick` has read. -/
theorem step_log {fw fw' : Firmware} {i : Input} (hs : step p fw i = some fw') :
    ∃ new, fw'.outbox.log = fw.outbox.log ++ new ∧
      ∀ mid e after, new = mid ++ e :: after → e.1.type = .stats →
        mid = [] ∧ ∃ fields, fw.tick = .stats fields ∧ e.1.payload = put32s fields := by
  cases step_handing hs with
  | ordinary hsends =>
      obtain ⟨frames, heq, hframes⟩ := hsends
      obtain ⟨new, hlog, hnew⟩ := handAll_log fw.outbox frames
      refine ⟨new, by rw [heq, hlog], fun mid e after hsplit htype => ?_⟩
      have hmem : e.1 ∈ frames := by simp [← hnew, hsplit]
      exact absurd htype (hframes e.1 hmem).stats
  | @stats fields hread heq =>
      refine ⟨[(⟨.stats, put32s fields⟩, fw.outbox.answers fw.outbox.log.length)], by rw [heq]; rfl,
        fun mid e after hsplit _ => ?_⟩
      cases mid with
      | nil =>
          cases hsplit
          exact ⟨rfl, fields, hread, rfl⟩
      | cons d mid => simp at hsplit
  | @info _ _ f hsends hf heq =>
      obtain ⟨frames, rfl, hframes⟩ := hsends
      obtain ⟨new, hlog, hnew⟩ := handAll_log fw.outbox frames
      let o := handAll fw.outbox frames
      refine ⟨new ++ [(f, o.answers o.log.length)], ?_, fun mid e after hsplit htype => ?_⟩
      · rw [heq, Outbox.send_log, ← List.append_assoc, ← hlog]
      · have hmem : e ∈ new ++ [(f, o.answers o.log.length)] := by simp [hsplit]
        rcases List.mem_append.mp hmem with he | he
        · have hdata : IsData e.1 := hframes e.1 (hnew ▸ List.mem_map_of_mem he)
          exact absurd htype (hdata.ordinary (p := p)).stats
        · rw [List.mem_singleton.mp he] at htype
          have hstats : f.type = .stats := htype
          simp [isInfoReply, hstats] at hf

theorem run_log {fw fw' : Firmware} {inputs : List Input}
    (hrun : (machine p).run fw inputs = some fw') : fw.outbox.log <+: fw'.outbox.log := by
  induction inputs generalizing fw with
  | nil =>
      cases hrun
      exact List.prefix_refl _
  | cons i inputs ih =>
      obtain ⟨fw₁, hstep, hrest⟩ := (machine p).run_cons_eq_some.mp hrun
      obtain ⟨new, hlog, _⟩ := step_log hstep
      exact List.IsPrefix.trans ⟨new, hlog.symm⟩ (ih hrest)

/-- **A STATS frame says how things stood when they were read**, in a state of
the run with no more in the log than there was before the frame. -/
theorem run_stats {P : Firmware × List (Frame × SendResult) → Prop}
    {r r' : Firmware × List (Frame × SendResult)} {inputs : List Input}
    (hvisits : ∀ u, (accounted p).Visits r inputs u → P u)
    (hread : ∀ fields, r.1.tick = .stats fields →
      ∃ u, P u ∧ u.1.outbox.log <+: r.1.outbox.log ∧ fields = statsFields u.1)
    (hrun : (accounted p).run r inputs = some r') {before after : List (Frame × SendResult)}
    {e : Frame × SendResult} (hlog : r'.1.outbox.log = before ++ e :: after)
    (hnew : r.1.outbox.log <+: before) (htype : e.1.type = .stats) :
    ∃ u, P u ∧ u.1.outbox.log <+: before ∧ e.1.payload = put32s (statsFields u.1) := by
  induction inputs generalizing r with
  | nil =>
      cases hrun
      have hle := hnew.length_le
      rw [hlog, List.length_append, List.length_cons] at hle
      omega
  | cons i inputs ih =>
      obtain ⟨r₁, hstep, hrest⟩ := (accounted p).run_cons_eq_some.mp hrun
      have hfst := accounted_run p r₁.1 r₁.2 inputs
      rw [hrest, Option.map_some] at hfst
      have hcame := run_log hfst.symm
      obtain ⟨fw₁, hboard, heq⟩ := Option.map_eq_some_iff.mp hstep
      cases heq
      obtain ⟨new, hadded, hstats⟩ := step_log hboard
      by_cases hlater : fw₁.outbox.log.length ≤ before.length
      · have hbefore : fw₁.outbox.log <+: before :=
          List.prefix_of_prefix_length_le hcame ⟨_, hlog.symm⟩ hlater
        refine ih (fun u hu => hvisits u ((accounted p).visits_cons hstep hu)) ?_ hrest hbefore
        intro fields htick
        rcases step_tick hboard htick with hheld | hjust
        · obtain ⟨u, hu, hprefix, hfields⟩ := hread fields hheld
          exact ⟨u, hu, hprefix.trans ⟨new, hadded.symm⟩, hfields⟩
        · exact ⟨r, hvisits r ((accounted p).visits_first r _), ⟨new, hadded.symm⟩, hjust⟩
      · -- the frame is one of this step's
        obtain ⟨mid, rfl⟩ := hnew
        have hthis : r.1.outbox.log ++ mid ++ [e] <+: fw₁.outbox.log := by
          refine List.prefix_of_prefix_length_le ⟨after, ?_⟩ hcame ?_
          · rw [List.append_assoc _ [e], List.singleton_append, hlog]
          · simp only [List.length_append, List.length_singleton] at hlater ⊢
            omega
        obtain ⟨rest, hrest'⟩ := hthis
        rw [hadded, List.append_assoc, List.append_assoc, List.singleton_append] at hrest'
        obtain ⟨rfl, fields, htick, hpayload⟩ :=
          hstats mid e rest (List.append_cancel_left hrest').symm htype
        obtain ⟨u, hu, hprefix, rfl⟩ := hread fields htick
        exact ⟨u, hu, by rw [List.append_nil]; exact hprefix, hpayload⟩

/-! ## What the host finds -/

theorem acceptedOf_eq (log : List (Frame × SendResult)) :
    acceptedOf log = (log.filter fun c => c.2.ok).map Prod.fst := by
  simp [acceptedOf, callsOf, keptFrames, List.filter_map, Function.comp_def]

theorem acceptedOf_append (log log' : List (Frame × SendResult)) :
    acceptedOf (log ++ log') = acceptedOf log ++ acceptedOf log' := by
  simp [acceptedOf_eq]

/-- A host that got the replies to its GET_INFOs finds the session itself. -/
theorem acceptedOf_session {log : List (Frame × SendResult)}
    (h : ∀ e ∈ log, startsSession p e = true → e.2.ok = true) :
    acceptedOf (sessionLog p log) = sinceMark (isInfoReply p) (acceptedOf log) := by
  rw [acceptedOf_eq, acceptedOf_eq, sessionLog, sinceMark_filter h]
  exact sinceMark_map (isInfoReply p) Prod.fst _

/-- The link accepts the board's own types. -/
theorem accepted_types {encode : Encode} {o : Outbox} {ls : List Label} {t : Link.State}
    {calls : List (Frame × Bool)} (hlink : (served encode).run ({}, []) ls = some (t, calls))
    (hcalls : calls <+: callsOf o.log) (htypes : ∀ g ∈ o.frames, g.type ∈ sentTypes) :
    ∀ g ∈ t.accepted, g.type ∈ sentTypes := by
  intro g hg
  rw [served_accepted hlink] at hg
  obtain ⟨c, hc, rfl⟩ := List.mem_map.mp hg
  have hlogged : c ∈ callsOf o.log := hcalls.subset (List.mem_filter.mp hc).1
  obtain ⟨e, he, rfl⟩ := List.mem_map.mp hlogged
  exact htypes e.1 (List.mem_map_of_mem he)

/-- A frame that the host reads as its `i`th was handed over after exactly the
first `i`. -/
theorem read_handed {W : WireFormat} {C : FrameCoding} {encode : Encode} {o : Outbox}
    {ls : List Label} {t : Link.State} {calls : List (Frame × Bool)} {i : Nat} {f : Frame}
    (hencode : Encodes W C encode) (hlink : (served encode).run ({}, []) ls = some (t, calls))
    (hcalls : calls <+: callsOf o.log) (htypes : ∀ g ∈ o.frames, g.type ∈ sentTypes)
    (hread : (hostReads W C t.wire)[i]? = some f) :
    ∃ before after e, o.log = before ++ e :: after ∧ e.1 = f ∧
      acceptedOf before = (hostReads W C t.wire).take i := by
  have hsent := accepted_types hlink hcalls htypes
  have haccepted := served_accepted hlink
  obtain ⟨later, hlater⟩ := hcalls
  obtain ⟨n, _, hreads, _⟩ := hencode.hostReads_take (served_run hlink) hsent
  -- it is the `i`th frame accepted
  have hi : i < n := by
    refine Decidable.byContradiction fun hge => ?_
    rw [hreads, List.getElem?_take_eq_none (by omega)] at hread
    cases hread
  rw [hreads, List.getElem?_take_of_lt hi] at hread
  rw [hreads, List.take_take, Nat.min_eq_left (Nat.le_of_lt hi), haccepted]
  rw [haccepted] at hread
  obtain ⟨first, rest, hsplit, hfirst⟩ := keptFrames_getElem? hread
  -- and so it is in the log
  have hlog : callsOf o.log = first ++ (f, true) :: (rest ++ later) := by
    rw [← hlater, hsplit, List.append_assoc, List.cons_append]
  obtain ⟨before, others, hwhole, hbefore, hothers⟩ := List.map_eq_append_iff.mp hlog
  obtain ⟨e, after, rfl, he, _⟩ := List.map_eq_cons_iff.mp hothers
  refine ⟨before, after, e, hwhole, congrArg Prod.fst he, ?_⟩
  rw [acceptedOf, callsOf, hbefore, hfirst]

/-- **What a host can check.** In every run, whatever the link accepted and
however much of it has come: a STATS frame the host reads tells, for the moment
its counters were read, how many frames had been accepted since the session
began and how many bytes they took. Those accepted by that moment are the first
`n` the host has read; the rest of what it read before the frame was handed over
in between. It tells how many calls had been refused, and books of the radios
that balance. Where no reply to a GET_INFO was refused, the session is the one
that begins with the last such reply among those `n`. -/
theorem stats_audit (W : WireFormat) (C : FrameCoding) (encode : Encode)
    (hencode : Encodes W C encode) {p : Platform} {w : World} {inputs : List Input}
    {r : Firmware × List (Frame × SendResult)} {ls : List Label} {t : Link.State}
    {calls : List (Frame × Bool)} {i : Nat} {payload : List UInt8}
    (hrun : (accounted p).run (boot w, []) inputs = some r)
    (hlink : (served encode).run ({}, []) ls = some (t, calls))
    (hcalls : calls <+: callsOf r.1.outbox.log)
    (hread : (hostReads W C t.wire)[i]? = some ⟨.stats, payload⟩) :
    ∃ u k n, (accounted p).Visits (boot w, []) inputs u ∧ k ≤ n ∧ n ≤ i ∧
      acceptedOf u.1.outbox.log = (hostReads W C t.wire).take n ∧
      get32s payload = some ((statsFields u.1).map (· % 2 ^ 32)) ∧
      u.1.outbox.counters.framesSent = UInt32.ofNat (n - k) ∧
      u.1.outbox.counters.bytesSent
        = UInt32.ofNat (weigh frameBytes (((hostReads W C t.wire).take n).drop k)) ∧
      u.1.outbox.counters.framesDropped
        = UInt32.ofNat (refusedIn (sessionLog p u.1.outbox.log)) ∧
      ((∀ e ∈ u.1.outbox.log, startsSession p e = true → e.2.ok = true) →
        ((hostReads W C t.wire).take n).drop k
          = sinceMark (isInfoReply p) ((hostReads W C t.wire).take n)) ∧
      Books u.1 u.2 := by
  have hkeeps : ∀ s j s', Ledger p s.1.outbox → (accounted p).step s j = some s' →
      Ledger p s'.1.outbox := by
    intro s j s' h hs
    obtain ⟨fw', hstep, heq⟩ := Option.map_eq_some_iff.mp hs
    cases heq
    exact step_ledger h hstep
  have hledger := (accounted p).run_invariant hkeeps (ledger_boot p w) hrun
  obtain ⟨before, after, e, hlog, he, hbefore⟩ :=
    read_handed hencode hlink hcalls hledger.types hread
  obtain ⟨u, hvisits, hu, hpayload⟩ :=
    run_stats (fun _ hu => hu) (fun _ htick => by cases htick) hrun hlog (List.nil_prefix)
      (by rw [he])
  have ⟨done, _, _, hdone⟩ := hvisits
  have hthen := (accounted p).run_invariant hkeeps (ledger_boot p w) hdone
  have haccounted := (accounted p).run_invariant step_accounted (accounted_boot w) hdone
  -- what was accepted by the reading is the first part of what the host has read
  obtain ⟨since, hsince⟩ := hu
  have hstart : acceptedOf u.1.outbox.log <+: (hostReads W C t.wire).take i :=
    ⟨acceptedOf since, by rw [← hbefore, ← hsince, acceptedOf_append]⟩
  have hlong : (acceptedOf u.1.outbox.log).length ≤ i :=
    Nat.le_trans hstart.length_le (List.length_take_le _ _)
  have hfirst : acceptedOf u.1.outbox.log
      = (hostReads W C t.wire).take (acceptedOf u.1.outbox.log).length :=
    List.prefix_iff_eq_take.mp (hstart.trans (List.take_prefix _ _))
  -- and it is what went before the session and the session
  obtain ⟨old, hold⟩ := sinceMark_suffix (startsSession p) u.1.outbox.log
  have hparts : acceptedOf u.1.outbox.log
      = acceptedOf old ++ acceptedOf (sessionLog p u.1.outbox.log) := by
    rw [← acceptedOf_append, sessionLog, hold]
  have hsum := congrArg List.length hparts
  rw [List.length_append] at hsum
  have hcharged := foldl_charge {} (sessionLog p u.1.outbox.log)
  have htotals : u.1.outbox.counters = (sessionLog p u.1.outbox.log).foldl charge {} := hthen.totals
  rw [← htotals] at hcharged
  refine ⟨u, (acceptedOf old).length, (acceptedOf u.1.outbox.log).length, hvisits, by omega, hlong,
    hfirst, ?_, ?_, ?_, ?_, fun hreplies => ?_, haccounted.books⟩
  · rw [← get32s_put32s, ← hpayload, he]
  · rw [hcharged.sent, UInt32.zero_add]
    congr 1
    omega
  · rw [hcharged.bytes, UInt32.zero_add, ← hfirst, hparts, List.drop_left]
  · rw [hcharged.dropped, UInt32.zero_add]
  · rw [← hfirst]
    calc (acceptedOf u.1.outbox.log).drop (acceptedOf old).length
        = acceptedOf (sessionLog p u.1.outbox.log) := by rw [hparts, List.drop_left]
      _ = sinceMark (isInfoReply p) (acceptedOf u.1.outbox.log) := acceptedOf_session hreplies

/-- The first STATS frame of a session, with both frames on the wire: one frame
of sixteen bytes was sent before it. -/
theorem stats_audit_first :
    let stats := put32s ([1, 0, 0, 0, 16] ++ List.replicate 28 0)
    ∃ (r : Firmware × List (Frame × SendResult)) (t : Link.State) (calls : List (Frame × Bool)),
      (accounted plainPlatform).run (boot calmWorld, [])
        [.hostFrame .controlCmd [1, 0, 0, 0, 0], .statsRead, .tickSend] = some r ∧
      calls <+: callsOf r.1.outbox.log ∧
      (hostReads ccittFormat plainCoding t.wire)[1]? = some ⟨.stats, stats⟩ ∧
      ∃ (u : Firmware × List (Frame × SendResult)) (k n : Nat), k ≤ n ∧ n ≤ 1 ∧
        get32s stats = some ((statsFields u.1).map (· % 2 ^ 32)) ∧
        u.1.outbox.counters.framesSent = UInt32.ofNat (n - k) ∧ Books u.1 u.2 := by
  intro stats
  let reply : Frame := ⟨.controlReply, Control.replyPayload plainPlatform 1 .ok snFirmwareVersion⟩
  let ls : List Label := [.send reply, .put, .measure, .send ⟨.stats, stats⟩, .put, .measure] ++
    sendOut 64 ++ sendOut 64 ++ sendOut 30
  have hboard : ((accounted plainPlatform).run (boot calmWorld, [])
      [.hostFrame .controlCmd [1, 0, 0, 0, 0], .statsRead, .tickSend]).any (fun r =>
        (callsOf r.1.outbox.log).take 2 == [(reply, true), (⟨.stats, stats⟩, true)]) = true := by
    decide +kernel
  have hlink : ((served (plainEncode ccittFormat plainCoding)).run ({}, []) ls).any (fun s =>
      s.2 == [(reply, true), (⟨.stats, stats⟩, true)] &&
        (hostReads ccittFormat plainCoding s.1.wire)[1]? == some ⟨.stats, stats⟩) = true := by
    decide +kernel
  obtain ⟨r, hr, hlog⟩ := (Option.any_eq_true _ _).mp hboard
  obtain ⟨⟨t, calls⟩, ht, hfacts⟩ := (Option.any_eq_true _ _).mp hlink
  simp only [Bool.and_eq_true, beq_iff_eq] at hlog hfacts
  obtain ⟨rfl, hread⟩ := hfacts
  have hcalls : [(reply, true), (⟨.stats, stats⟩, true)] <+: callsOf r.1.outbox.log :=
    hlog ▸ List.take_prefix 2 _
  obtain ⟨u, k, n, _, hk, hn, _, hfields, hsent, _, _, _, hbooks⟩ :=
    stats_audit ccittFormat plainCoding _ (plainEncode_encodes _ _) hr ht hcalls hread
  exact ⟨r, t, _, hr, hcalls, hread, u, k, n, hk, hn, hfields, hsent, hbooks⟩

end Nrf54Sniffer.Board
