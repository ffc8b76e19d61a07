/-
Nrf54Sniffer.Ble.MailboxTheorems — every BIG Create Sync sent is one report's,
whole.

`big_pending` is set exactly while someone holds the mailbox: the forwarding
thread between its compare-and-set and its submit, the queued work item, or the
work item at work (`Held`). So the bytes stand still from the submit to the
clear, and what the work item reads is the block of the report that won last
(`Carried`).
-/
import Nrf54Sniffer.Ble.Mailbox
import Nrf54Sniffer.Ble.RequestTurns

namespace Nrf54Sniffer.Ble.Mailbox

open Nrf54Sniffer.Lib
open Nrf54Sniffer.Wire

/-! ## Who holds the mailbox -/

def Worker.busy : Worker → Bool
  | .idle => false
  | _ => true

/-- The holders of the mailbox. -/
def holders (s : State) : Nat := s.poster.owns.toNat + s.submitted.toNat + s.worker.busy.toNat

/-- One holder while `big_pending` is set, none else. -/
def Held (s : State) : Prop := holders s = s.pending.toNat

theorem Held.le_one {s : State} (h : Held s) : holders s ≤ 1 := by
  rw [h]
  cases s.pending with
  | true => decide
  | false => decide

/-- While the forwarding thread holds it nothing is requested. -/
theorem Held.owner {s : State} (h : Held s) (howns : s.poster.owns = true) :
    s.pending = true ∧ s.submitted = false ∧ s.worker.busy = false := by
  have hle := h.le_one
  unfold Held at h
  simp only [holders, howns, Bool.toNat_true] at h hle
  cases hpending : s.pending <;> cases hsubmitted : s.submitted <;>
    cases hbusy : s.worker.busy <;> simp_all

/-- While the work item is queued it is not at work. -/
theorem Held.queued {s : State} (h : Held s) (hsubmitted : s.submitted = true) :
    s.pending = true ∧ s.poster.owns = false ∧ s.worker.busy = false := by
  have hle := h.le_one
  unfold Held at h
  simp only [holders, hsubmitted, Bool.toNat_true] at h hle
  cases hpending : s.pending <;> cases howns : s.poster.owns <;>
    cases hbusy : s.worker.busy <;> simp_all

/-- While it is at work it is not queued, and the forwarding thread is out. -/
theorem Held.working {s : State} (h : Held s) (hbusy : s.worker.busy = true) :
    s.pending = true ∧ s.poster.owns = false ∧ s.submitted = false := by
  have hle := h.le_one
  unfold Held at h
  simp only [holders, hbusy, Bool.toNat_true] at h hle
  cases hpending : s.pending <;> cases howns : s.poster.owns <;>
    cases hsubmitted : s.submitted <;> simp_all

theorem Held.free {s : State} (h : Held s) (hpending : s.pending = false) :
    s.poster.owns = false ∧ s.submitted = false ∧ s.worker.busy = false := by
  unfold Held at h
  simp only [holders, hpending, Bool.toNat_false] at h
  cases howns : s.poster.owns <;> cases hsubmitted : s.submitted <;>
    cases hbusy : s.worker.busy <;> simp_all

theorem held_post {s t : State} (h : Held s) (hstep : post s = some t) : Held t := by
  unfold post at hstep
  split at hstep
  · cases hstep
  · rename_i hposter
    split at hstep
    · cases hstep
      simpa [Held, holders, hposter, Poster.owns] using h
    · rename_i hfree
      cases hstep
      obtain ⟨_, hsubmitted, hbusy⟩ := h.free (Bool.eq_false_iff.mpr hfree)
      simp [Held, holders, Poster.owns, hsubmitted, hbusy]
  · rename_i hposter
    split at hstep
    · cases hstep
      simpa [Held, holders, hposter, Poster.owns] using h
    · cases hstep
      simpa [Held, holders, hposter, Poster.owns] using h
  · rename_i hposter
    cases hstep
    obtain ⟨hpending, _, hbusy⟩ := h.owner (by rw [hposter]; rfl)
    simp [Held, holders, Poster.owns, hpending, hbusy]

theorem held_work {s t : State} (h : Held s) (hstep : work s = some t) : Held t := by
  unfold work at hstep
  split at hstep
  · split at hstep
    · rename_i hsubmitted
      cases hstep
      obtain ⟨hpending, howns, _⟩ := h.queued hsubmitted
      simp [Held, holders, Worker.busy, hpending, howns]
    · cases hstep
  · rename_i hworker
    cases hstep
    obtain ⟨hpending, howns, hsubmitted⟩ := h.working (by rw [hworker]; rfl)
    cases s.running <;> simp [Held, holders, Worker.busy, hpending, howns, hsubmitted]
  · rename_i hworker
    split at hstep
    · obtain ⟨byte, _, heq⟩ := Option.map_eq_some_iff.mp hstep
      cases heq
      simpa [Held, holders, hworker, Worker.busy] using h
    · cases hstep
  · rename_i hworker
    cases hstep
    obtain ⟨_, howns, hsubmitted⟩ := h.working (by rw [hworker]; rfl)
    simp [Held, holders, Worker.busy, howns, hsubmitted]
  · cases hstep

theorem held_step {s t : State} {l : Label} (h : Held s) (hstep : step s l = some t) : Held t := by
  unfold step at hstep
  split at hstep
  · split at hstep
    · rename_i hidle
      obtain ⟨r, _, heq⟩ := Option.map_eq_some_iff.mp hstep
      cases r with
      | none =>
          cases heq
          exact h
      | some block =>
          cases heq
          simpa [Held, holders, hidle, Poster.owns] using h
    · cases hstep
  · exact held_post h hstep
  · exact held_work h hstep
  · split at hstep
    · rename_i hworker
      split at hstep
      · cases hstep
      · cases hstep
        simpa [Held, holders, hworker, Worker.busy] using h
    · cases hstep
  · split at hstep
    · rename_i hworker
      cases hstep
      simpa [Held, holders, hworker, Worker.busy] using h
    · cases hstep
  · split at hstep
    · rename_i hworker
      cases hstep
      simpa [Held, holders, hworker, Worker.busy] using h
    · cases hstep
  · split at hstep
    · rename_i hworker
      cases hstep
      simpa [Held, holders, hworker, Worker.busy] using h
    · rename_i hworker
      cases hstep
      simpa [Held, holders, hworker, Worker.busy] using h
    · cases hstep
  · cases hstep
    exact h

/-! ## What it carries -/

/-- The bytes are the block of the report that won last. -/
def Lent (s : State) (block : List UInt8) : Prop :=
  ∃ report, s.wins.getLast? = some report ∧ Joins report block

/-- The forwarding thread's block, and how far it is copied. -/
def Posts (s : State) : Prop :=
  match s.poster with
  | .idle => True
  | .built report block => Joins report block
  | .copying block i => Lent s block ∧ i ≤ block.length ∧ s.params.take i = block.take i
  | .stored => Lent s (s.params.take s.len)

/-- The bytes in the command buffer are the mailbox's. -/
def Reads (s : State) : Prop :=
  ∀ len bytes, s.worker = .reading len bytes →
    len = s.len ∧ bytes.length ≤ len ∧ bytes = s.params.take bytes.length

/-- The command for the report that won last may still come. -/
def State.unsent (s : State) : Bool := s.poster.owns || s.submitted || s.worker.unsent

/-- The reports that had their turn. -/
def State.settled (s : State) : Nat := if s.unsent then s.wins.length - 1 else s.wins.length

/-- Each command is that of one report, and no report has two. -/
structure Delivered (s : State) : Prop where
  each : ∀ c ∈ s.sent, c.win < s.settled ∧
    ∃ report, s.wins[c.win]? = some report ∧ Joins report c.params
  once : (s.sent.map Sent.win).Pairwise (· < ·)

structure Carried (s : State) : Prop where
  size : s.params.length = 25 + maxBis
  posts : Posts s
  mail : s.Requested → Lent s (s.params.take s.len)
  reads : Reads s
  delivered : Delivered s

theorem requested_iff (s : State) :
    s.Requested ↔ s.submitted = true ∨ s.worker.busy = true := by
  unfold State.Requested
  cases s.worker <;> simp [Worker.busy]

/-- No new command, and no report gets a second chance. -/
theorem Delivered.same {s t : State} (h : Delivered s) (hsent : t.sent = s.sent)
    (hwins : t.wins = s.wins) (hunsent : t.unsent = true → s.unsent = true) : Delivered t := by
  have hle : s.settled ≤ t.settled := by
    unfold State.settled
    rw [hwins]
    split
    · split
      · exact Nat.le_refl _
      · exact Nat.sub_le _ _
    · rename_i hs
      exact Nat.le_of_eq (if_neg fun ht => hs (hunsent ht)).symm
  refine ⟨fun c hc => ?_, by rw [hsent]; exact h.once⟩
  rw [hsent] at hc
  obtain ⟨hlt, hreport⟩ := h.each c hc
  rw [hwins]
  exact ⟨Nat.lt_of_lt_of_le hlt hle, hreport⟩

theorem lent_congr {s t : State} {block : List UInt8} (hwins : t.wins = s.wins) :
    Lent t block ↔ Lent s block := by
  unfold Lent
  rw [hwins]

/-- A byte more. -/
theorem take_set {params block : List UInt8} {i : Nat} {byte : UInt8} (hi : i < params.length)
    (hbyte : block[i]? = some byte) (h : params.take i = block.take i) :
    (params.set i byte).take (i + 1) = block.take (i + 1) := by
  have hset : (params.set i byte)[i]? = some byte := List.getElem?_set_self hi
  rw [List.take_add_one, List.take_add_one, hset, hbyte, List.take_set_of_le (Nat.le_refl i), h]

theorem Worker.busy_of_unsent {w : Worker} (h : w.unsent = true) : w.busy = true := by
  cases w with
  | took => rfl
  | reading len bytes => rfl
  | _ => cases h

/-- No byte is read where the work item is not at work. -/
theorem reads_of_idle {s : State} (h : s.worker.busy = false) : Reads s := by
  intro len bytes hreading
  rw [hreading] at h
  cases h

theorem not_requested {s : State} (hsubmitted : s.submitted = false)
    (hbusy : s.worker.busy = false) : ¬s.Requested := by
  rw [requested_iff, hsubmitted, hbusy]
  simp

/-- A report wins: the ones before it have had their turn. -/
theorem Delivered.win {s : State} (h : Delivered s) (hunsent : s.unsent = false)
    (report block : List UInt8) :
    Delivered { s with pending := true, poster := .copying block 0, wins := s.wins ++ [report] } := by
  have hsettled : s.settled = s.wins.length := by
    rw [State.settled, hunsent]
    rfl
  have hsettled' : State.settled
      { s with pending := true, poster := .copying block 0, wins := s.wins ++ [report] }
        = s.wins.length := by
    simp [State.settled, State.unsent, Poster.owns]
  refine ⟨fun c hc => ?_, h.once⟩
  obtain ⟨hlt, r, hr, hjoins⟩ := h.each c hc
  rw [hsettled] at hlt
  refine ⟨by rw [hsettled']; exact hlt, r, ?_, hjoins⟩
  rw [List.getElem?_append_left hlt]
  exact hr

/-- The command of the report that won last: it has none yet. -/
theorem Delivered.send {s t : State} {bytes : List UInt8} (h : Delivered s)
    (hunsent : s.unsent = true) (hlent : Lent s bytes) (hdone : t.unsent = false)
    (hwins : t.wins = s.wins) (hsent : t.sent = s.sent ++ [⟨s.wins.length - 1, bytes⟩]) :
    Delivered t := by
  obtain ⟨report, hlast, hjoins⟩ := hlent
  have hsettled : s.settled = s.wins.length - 1 := by
    rw [State.settled, hunsent]
    rfl
  have hsettled' : t.settled = s.wins.length := by
    rw [State.settled, hdone, hwins]
    rfl
  rw [List.getLast?_eq_getElem?] at hlast
  have hlt : s.wins.length - 1 < s.wins.length := (List.getElem?_eq_some_iff.mp hlast).1
  refine ⟨fun c hc => ?_, ?_⟩
  · rw [hsettled', hwins]
    rw [hsent] at hc
    rcases List.mem_append.mp hc with hold | hnew
    · obtain ⟨hwin, hreport⟩ := h.each c hold
      exact ⟨by omega, hreport⟩
    · rw [List.mem_singleton.mp hnew]
      exact ⟨hlt, report, hlast, hjoins⟩
  · rw [hsent, List.map_append, List.pairwise_append]
    refine ⟨h.once, List.pairwise_singleton _ _, fun win hwin win' hwin' => ?_⟩
    obtain ⟨c, hc, rfl⟩ := List.mem_map.mp hwin
    rw [List.mem_singleton.mp hwin']
    have hwin := (h.each c hc).1
    rwa [hsettled] at hwin

theorem carried_look {s t : State} {report : List UInt8} {uptime : Int} (h : Carried s)
    (hidle : s.poster = .idle) (hstep : look s report uptime = some t) : Carried t := by
  obtain ⟨r, hr, hjoins⟩ := joinBlock_spec s.synced s.retryAt report uptime
  obtain ⟨r', hr', heq⟩ := Option.map_eq_some_iff.mp hstep
  rw [hr] at hr'
  cases hr'
  cases r with
  | none =>
      cases heq
      exact h
  | some block =>
      cases heq
      refine ⟨h.size, hjoins block rfl, h.mail, h.reads, h.delivered.same rfl rfl ?_⟩
      simp [State.unsent, hidle, Poster.owns]

theorem carried_post {s t : State} (hheld : Held s) (h : Carried s) (hstep : post s = some t) :
    Carried t := by
  have hposts := h.posts
  unfold post at hstep
  split at hstep
  · cases hstep
  · rename_i report block hposter
    simp only [Posts, hposter] at hposts
    split at hstep
    · cases hstep
      refine ⟨h.size, trivial, h.mail, h.reads, h.delivered.same rfl rfl ?_⟩
      simp [State.unsent, hposter, Poster.owns]
    · rename_i hfree
      cases hstep
      obtain ⟨howns, hsubmitted, hbusy⟩ := hheld.free (Bool.eq_false_iff.mpr hfree)
      have hunsent : s.unsent = false := by
        unfold State.unsent
        rw [howns, hsubmitted]
        exact Bool.eq_false_iff.mpr fun hw => by simp [Worker.busy_of_unsent hw] at hbusy
      refine ⟨h.size, ⟨⟨report, List.getLast?_concat, hposts⟩, Nat.zero_le _, rfl⟩,
        fun hreq => absurd hreq (not_requested hsubmitted hbusy), reads_of_idle hbusy,
        h.delivered.win hunsent report block⟩
  · rename_i block i hposter
    simp only [Posts, hposter] at hposts
    obtain ⟨hlent, hi, hcopied⟩ := hposts
    obtain ⟨_, hsubmitted, hbusy⟩ := hheld.owner (by rw [hposter]; rfl)
    have hfits : block.length ≤ s.params.length := by
      obtain ⟨_, _, hjoins⟩ := hlent
      rw [h.size]
      exact hjoins.fits
    have hunsent : s.unsent = true := by simp [State.unsent, hposter, Poster.owns]
    split at hstep
    · rename_i byte hbyte
      have hin : i < block.length := (List.getElem?_eq_some_iff.mp hbyte).1
      cases hstep
      refine ⟨by simp only [List.length_set, h.size],
        ⟨hlent, hin, take_set (Nat.lt_of_lt_of_le hin hfits) hbyte hcopied⟩,
        fun hreq => absurd hreq (not_requested hsubmitted hbusy), reads_of_idle hbusy,
        h.delivered.same rfl rfl fun _ => hunsent⟩
    · rename_i hend
      have hall : i = block.length := Nat.le_antisymm hi (List.getElem?_eq_none_iff.mp hend)
      rw [hall, List.take_length] at hcopied
      cases hstep
      refine ⟨h.size, ?_, fun hreq => absurd hreq (not_requested hsubmitted hbusy),
        reads_of_idle hbusy, h.delivered.same rfl rfl fun _ => hunsent⟩
      show Lent _ (s.params.take block.length)
      rw [hcopied]
      exact hlent
  · rename_i hposter
    simp only [Posts, hposter] at hposts
    cases hstep
    refine ⟨h.size, trivial, fun _ => hposts, h.reads, h.delivered.same rfl rfl ?_⟩
    simp [State.unsent, hposter, Poster.owns]

theorem carried_work {s t : State} (h : Carried s) (hstep : work s = some t) : Carried t := by
  unfold work at hstep
  split at hstep
  · split at hstep
    · rename_i hsubmitted
      cases hstep
      refine ⟨h.size, h.posts, fun _ => h.mail (.inl hsubmitted), ?_,
        h.delivered.same rfl rfl fun _ => by simp [State.unsent, hsubmitted]⟩
      intro len bytes hreading
      cases hreading
    · cases hstep
  · rename_i hworker
    cases hstep
    have hmail := h.mail ((requested_iff s).mpr (.inr (by rw [hworker]; rfl)))
    refine ⟨h.size, h.posts, fun _ => hmail, ?_,
      h.delivered.same rfl rfl fun _ => by simp [State.unsent, hworker, Worker.unsent]⟩
    intro len bytes hreading
    dsimp only at hreading
    split at hreading
    · cases hreading
      exact ⟨rfl, Nat.zero_le _, rfl⟩
    · cases hreading
  · rename_i len bytes hworker
    have hmail := h.mail ((requested_iff s).mpr (.inr (by rw [hworker]; rfl)))
    obtain ⟨hlen, _, hbytes⟩ := h.reads len bytes hworker
    split at hstep
    · rename_i hmore
      obtain ⟨byte, hbyte, heq⟩ := Option.map_eq_some_iff.mp hstep
      cases heq
      refine ⟨h.size, h.posts, fun _ => hmail, ?_,
        h.delivered.same rfl rfl fun _ => by simp [State.unsent, hworker, Worker.unsent]⟩
      intro len' bytes' hreading
      cases hreading
      rw [List.length_append, List.length_singleton]
      refine ⟨hlen, hmore, ?_⟩
      rw [List.take_add_one, hbyte, ← hbytes]
      rfl
    · cases hstep
  · rename_i hworker
    cases hstep
    refine ⟨h.size, h.posts, fun hreq => h.mail ?_, reads_of_idle rfl,
      h.delivered.same rfl rfl ?_⟩
    · rcases hreq with hsubmitted | hbusy
      · exact .inl hsubmitted
      · exact absurd rfl hbusy
    · simp [State.unsent, hworker, Worker.unsent]
  · cases hstep

theorem carried_send {s t : State} {len : Nat} {bytes : List UInt8} (hheld : Held s)
    (h : Carried s) (hworker : s.worker = .reading len bytes) (hall : ¬bytes.length < len)
    (ht : t = { s with worker := .awaiting, sent := s.sent ++ [⟨s.wins.length - 1, bytes⟩] }) :
    Carried t := by
  subst ht
  have hbusy : s.worker.busy = true := by
    rw [hworker]
    rfl
  obtain ⟨_, howns, hsubmitted⟩ := hheld.working hbusy
  have hmail := h.mail ((requested_iff s).mpr (.inr hbusy))
  obtain ⟨hlen, hle, hbytes⟩ := h.reads len bytes hworker
  have hwhole : bytes = s.params.take s.len := by
    rw [hbytes]
    congr 1
    omega
  refine ⟨h.size, h.posts, fun _ => hmail, ?_, ?_⟩
  · intro len' bytes' hreading
    cases hreading
  · refine h.delivered.send ?_ (hwhole ▸ hmail) ?_ rfl rfl
    · simp [State.unsent, hworker, Worker.unsent]
    · simp [State.unsent, howns, hsubmitted, Worker.unsent]

/-- The work item goes on past its command, or the other threads write what
they may. -/
theorem Carried.past {s t : State} (h : Carried s) (hparams : t.params = s.params)
    (hlen : t.len = s.len) (hsubmitted : t.submitted = s.submitted)
    (hposter : t.poster = s.poster) (hwins : t.wins = s.wins) (hsent : t.sent = s.sent)
    (hbusy : t.worker.busy = true → s.worker.busy = true) (hreads : Reads t)
    (hunsent : t.worker.unsent = true → s.worker.unsent = true) : Carried t := by
  refine ⟨by rw [hparams]; exact h.size, ?_, fun hreq => ?_, hreads,
    h.delivered.same hsent hwins ?_⟩
  · have hposts := h.posts
    unfold Posts Lent at hposts ⊢
    rw [hposter, hparams, hlen, hwins]
    exact hposts
  · rw [requested_iff, hsubmitted] at hreq
    rw [hparams, hlen, lent_congr hwins]
    refine h.mail ((requested_iff s).mpr ?_)
    rcases hreq with hreq | hreq
    · exact .inl hreq
    · exact .inr (hbusy hreq)
  · simp only [State.unsent, hposter, hsubmitted, Bool.or_eq_true]
    rintro (hrest | hworker)
    · exact .inl hrest
    · exact .inr (hunsent hworker)

theorem carried_step {s t : State} {l : Label} (hheld : Held s) (h : Carried s)
    (hstep : step s l = some t) : Carried t := by
  have hpast : ∀ worker synced retryAt, worker.busy = true → worker.unsent = false →
      s.worker.busy = true → Carried { s with worker, synced, retryAt } := by
    intro worker synced retryAt _ hsent hbusy
    refine h.past rfl rfl rfl rfl rfl rfl (fun _ => hbusy) ?_ ?_
    · intro len bytes hreading
      have hreading : worker = .reading len bytes := hreading
      rw [hreading] at hsent
      cases hsent
    · intro hunsent
      rw [hsent] at hunsent
      cases hunsent
  unfold step at hstep
  split at hstep
  · split at hstep
    · rename_i hidle
      exact carried_look h hidle hstep
    · cases hstep
  · exact carried_post hheld h hstep
  · exact carried_work h hstep
  · split at hstep
    · rename_i hworker
      split at hstep
      · cases hstep
      · rename_i hall
        cases hstep
        exact carried_send hheld h hworker hall rfl
    · cases hstep
  · split at hstep
    · rename_i hworker
      cases hstep
      exact hpast (.returned false) _ _ rfl rfl (by rw [hworker]; rfl)
    · cases hstep
  · rename_i joined
    split at hstep
    · rename_i hworker
      cases hstep
      exact hpast (.returned joined) _ _ rfl rfl (by rw [hworker]; rfl)
    · cases hstep
  · split at hstep
    · rename_i hworker
      cases hstep
      exact hpast .noted _ _ rfl rfl (by rw [hworker]; rfl)
    · rename_i hworker
      cases hstep
      exact hpast .noted _ _ rfl rfl (by rw [hworker]; rfl)
    · cases hstep
  · cases hstep
    exact h.past rfl rfl rfl rfl rfl rfl id h.reads id

/-! ## Uninterrupted -/

/-- The checks come first in the whole function too. -/
theorem noteBigInfo_eq (b : BleRadio) (hci : List UInt8) (uptime : Int) :
    noteBigInfo b hci uptime
      = (joinBlock b.follow.bigSynced b.follow.bigRetryAt hci uptime).map fun
          | none => b
          | some block =>
              if b.follow.bigPending then b
              else { b with follow :=
                { b.follow with bigPending := true, bigParams := block, bigWork := true } } := by
  unfold noteBigInfo joinBlock
  split
  · rfl
  · cases hci[1]? with
    | none => rfl
    | some code =>
        cases hci[3]? with
        | none => rfl
        | some sub =>
            simp only [Option.bind_eq_bind, Option.bind_some]
            split
            · rfl
            · split
              · rfl
              · cases hci[4]? <;> cases hci[5]? <;> cases hci[6]? <;> cases hci[22]? <;> try rfl
                simp only [Option.bind_some]
                split
                · rfl
                · split
                  · rfl
                  · rfl

/-- The mailbox and the statics of the whole functions agree. -/
structure Matches (s : State) (b : BleRadio) : Prop where
  running : s.running = b.running
  synced : s.synced = b.follow.bigSynced
  retryAt : s.retryAt = b.follow.bigRetryAt
  pending : s.pending = b.follow.bigPending
  submitted : s.submitted = b.follow.bigWork
  mail : b.follow.bigPending = true → s.params.take s.len = b.follow.bigParams
  size : s.params.length = 25 + maxBis
  fits : s.len ≤ 25 + maxBis

/-- The loop of `memcpy`. -/
theorem run_copy {s : State} {block : List UInt8} {i : Nat} (hposter : s.poster = .copying block i)
    (hi : i ≤ block.length) (hfits : block.length ≤ s.params.length)
    (hcopied : s.params.take i = block.take i) :
    ∃ params, machine.run s (List.replicate (block.length - i) .post)
        = some { s with params, poster := .copying block block.length } ∧
      params.take block.length = block ∧ params.length = s.params.length := by
  induction hn : block.length - i generalizing s i with
  | zero =>
      have hall : i = block.length := by omega
      subst hall
      rw [List.take_length] at hcopied
      refine ⟨s.params, ?_, hcopied, rfl⟩
      show some s = _
      rw [← hposter]
  | succ n ih =>
      have hin : i < block.length := by omega
      obtain ⟨byte, hbyte⟩ : ∃ byte, block[i]? = some byte := ⟨_, List.getElem?_eq_getElem hin⟩
      obtain ⟨params, hrun, hwhole, hlen⟩ :=
        ih (s := { s with params := s.params.set i byte, poster := .copying block (i + 1) }) rfl hin
          (by simpa using hfits) (take_set (Nat.lt_of_lt_of_le hin hfits) hbyte hcopied) (by omega)
      refine ⟨params, ?_, hwhole, by simpa using hlen⟩
      rw [List.replicate_succ]
      refine machine.run_cons_eq_some.mpr ⟨_, ?_, hrun⟩
      simp only [machine, step, post, hposter, hbyte]

/-- **`note_biginfo`, uninterrupted.** -/
theorem run_post {s : State} {b b' : BleRadio} {report : List UInt8} {uptime : Int}
    (hm : Matches s b) (hidle : s.poster = .idle)
    (h : noteBigInfo b (peekCopy report) uptime = some b') :
    ∃ labels t, machine.run s (.look report uptime :: labels) = some t ∧ Matches t b' ∧
      t.poster = .idle ∧ t.worker = s.worker ∧ t.sent = s.sent := by
  obtain ⟨r, hr, hjoins⟩ :=
    joinBlock_spec b.follow.bigSynced b.follow.bigRetryAt report uptime
  rw [noteBigInfo_eq, hr, Option.map_some, Option.some_inj] at h
  have hr' : joinBlock s.synced s.retryAt (peekCopy report) uptime = some r := by
    rw [hm.synced, hm.retryAt]
    exact hr
  have hlook : ∀ t labels t', (some r).map (fun
      | none => s
      | some block => { s with poster := .built report block }) = some t →
      machine.run t labels = some t' → machine.run s (.look report uptime :: labels) = some t' := by
    intro t labels t' ht hrun
    refine machine.run_cons_eq_some.mpr ⟨t, ?_, hrun⟩
    simp only [machine, step, hidle, if_true, look, hr']
    exact ht
  cases r with
  | none =>
      subst h
      exact ⟨[], s, hlook s [] s rfl rfl, hm, hidle, rfl, rfl⟩
  | some block =>
      dsimp only at h
      cases hpending : b.follow.bigPending with
      | true =>
          rw [hpending, if_pos rfl] at h
          subst h
          refine ⟨[.post], { s with poster := .idle }, hlook _ _ _ rfl ?_,
            ⟨hm.running, hm.synced, hm.retryAt, hm.pending, hm.submitted, hm.mail, hm.size, hm.fits⟩,
            rfl, rfl, rfl⟩
          simp [Machine.run, machine, step, post, hm.pending, hpending]
      | false =>
          rw [hpending, if_neg Bool.false_ne_true] at h
          subst h
          have hfits : block.length ≤ s.params.length := by
            rw [hm.size]
            exact (hjoins block rfl).fits
          let won : State :=
            { s with pending := true, poster := .copying block 0, wins := s.wins ++ [report] }
          obtain ⟨params, hrun, hwhole, hlen⟩ :=
            run_copy (s := won) rfl (Nat.zero_le _) hfits rfl
          let posted : State :=
            { won with params, len := block.length, submitted := true, poster := .idle }
          refine ⟨.post :: (List.replicate (block.length - 0) .post ++ [.post, .post]), posted,
            hlook _ _ posted rfl ?_, ⟨hm.running, hm.synced, hm.retryAt, rfl, rfl, fun _ => hwhole,
              hlen.trans hm.size, (hjoins block rfl).fits⟩, rfl, rfl, rfl⟩
          have hwon : machine.step { s with poster := .built report block } .post = some won := by
            simp [machine, step, post, hm.pending, hpending, won]
          refine machine.run_cons_eq_some.mpr ⟨won, hwon, ?_⟩
          rw [machine.run_append, hrun]
          simp [Machine.run, machine, step, post, posted]

/-- The loop of `memcpy` in `hci_command`. -/
theorem run_read {s : State} {len i : Nat} (hworker : s.worker = .reading len (s.params.take i))
    (hi : i ≤ len) (hfits : len ≤ s.params.length) :
    machine.run s (List.replicate (len - i) .work)
      = some { s with worker := .reading len (s.params.take len) } := by
  induction hn : len - i generalizing s i with
  | zero =>
      have hall : i = len := by omega
      subst hall
      show some s = _
      rw [← hworker]
  | succ n ih =>
      have hin : i < len := by omega
      have hparams : i < s.params.length := Nat.lt_of_lt_of_le hin hfits
      have hlen : (s.params.take i).length = i := by
        rw [List.length_take]
        omega
      have hread : work s = some { s with worker := .reading len (s.params.take (i + 1)) } := by
        rw [work, hworker]
        simp only [hlen, if_pos hin, List.getElem?_eq_getElem hparams, Option.map_some,
          List.take_append_getElem hparams]
      rw [List.replicate_succ]
      exact machine.run_cons_eq_some.mpr ⟨_, hread, ih (i := i + 1) rfl hin hfits (by omega)⟩

/-- What `big_work_fn` sends and notes. -/
theorem bigWorkFn_spec (fw : Board.Firmware) (uptime : Int) :
    (bigWorkFn fw uptime).ble.running = fw.ble.running ∧
    (bigWorkFn fw uptime).ble.follow = (finishBig (beginBigWork fw.ble)
      (fw.ble.running && fw.hci.next.accepted) uptime).follow ∧
    (bigWorkFn fw uptime).hci
      = if fw.ble.running then fw.hci.push ⟨opLeBigCreateSync, fw.ble.follow.bigParams⟩
        else fw.hci := by
  cases hrunning : fw.ble.running with
  | false =>
      have heq : bigWorkFn fw uptime
          = { fw with ble := finishBig (beginBigWork fw.ble) false uptime } :=
        if_neg (by rw [hrunning]; exact Bool.false_ne_true)
      rw [heq]
      exact ⟨hrunning, rfl, rfl⟩
  | true =>
      have hmay : Requests.may (beginBigWork fw.ble) .broadcast = true := hrunning
      obtain ⟨hfollow, hhci⟩ :=
        @Requests.turnOf_spec { fw with ble := beginBigWork fw.ble } .broadcast uptime hmay
      rw [← Requests.bigWorkFn_eq_turnOf] at hfollow hhci
      refine ⟨?_, hfollow, hhci⟩
      have hcommand : ∀ (fw : Board.Firmware) opcode params,
          (hciCommand fw opcode params).1.ble.running = fw.ble.running := by
        intro fw opcode params
        unfold hciCommand
        cases fw.hci.next with
        | noBuffer => rfl
        | sendError code => rfl
        | timedOut => rfl
        | answered status => rfl
      unfold bigWorkFn
      rw [if_pos hrunning, noteBigOutcome]
      unfold finishBig
      split
      · exact (hcommand _ _ _).trans hrunning
      · exact (hcommand _ _ _).trans hrunning

/-- The steps of the work item from the queue to the outcome. -/
def commandLabels (s : State) (a : HciAnswer) : List Label :=
  [.work, .work] ++
  if s.running then
    List.replicate s.len .work ++
      if Requests.wentOut a then [.send, .answer a.accepted] else [.fail]
  else []

/-- What it sends, and how that ends. -/
theorem run_command {s : State} {a : HciAnswer} (hidle : s.worker = .idle)
    (hsubmitted : s.submitted = true) (hfits : s.len ≤ s.params.length) :
    ∃ sent, machine.run s (commandLabels s a)
        = some { s with
            submitted := false, worker := .returned (s.running && a.accepted), sent } ∧
      sent.map Sent.params = s.sent.map Sent.params ++
        if s.running && Requests.wentOut a then [s.params.take s.len] else [] := by
  unfold commandLabels
  cases hrunning : s.running with
  | false =>
      refine ⟨s.sent, ?_, by simp⟩
      simp [Machine.run, machine, step, work, hidle, hsubmitted, hrunning]
  | true =>
      let took : State := { s with submitted := false, worker := .reading s.len (s.params.take 0) }
      have htook : machine.run s [.work, .work] = some took := by
        simp [Machine.run, machine, step, work, hidle, hsubmitted, hrunning, took]
      have hread : machine.run took (List.replicate s.len .work)
          = some { took with worker := .reading s.len (s.params.take s.len) } :=
        run_read rfl (Nat.zero_le _) hfits
      have hall : min s.len s.params.length = s.len := Nat.min_eq_left hfits
      rw [if_pos rfl, machine.run_append, htook, Option.bind_some, machine.run_append, hread,
        Option.bind_some]
      cases hout : Requests.wentOut a with
      | true =>
          refine ⟨s.sent ++ [⟨s.wins.length - 1, s.params.take s.len⟩], ?_, by simp⟩
          simp [Machine.run, machine, step, took, hall, hrunning]
      | false =>
          refine ⟨s.sent, ?_, by simp⟩
          have hrefused : a.accepted = false := by
            cases a with
            | noBuffer => rfl
            | sendError code => rfl
            | timedOut => cases hout
            | answered status => cases hout
          simp [Machine.run, machine, step, took, hrefused, hrunning]

/-- The outcome noted and the flag cleared. -/
theorem run_note {s : State} {b b' : BleRadio} {joined : Bool} {uptime : Int} (hm : Matches s b)
    (hworker : s.worker = .returned joined) (hrunning : b'.running = b.running)
    (hfollow : b'.follow = (finishBig b joined uptime).follow) :
    ∃ t, machine.run s [.note uptime, .work] = some t ∧ Matches t b' ∧ t.poster = s.poster ∧
      t.worker = .idle ∧ t.sent = s.sent := by
  cases joined with
  | true =>
      refine ⟨{ s with synced := true, pending := false, worker := .idle }, ?_,
        ⟨hm.running.trans hrunning.symm, ?_, ?_, ?_, ?_, ?_, hm.size, hm.fits⟩, rfl, rfl, rfl⟩
      · simp [Machine.run, machine, step, work, hworker]
      all_goals rw [hfollow]
      · rfl
      · exact hm.retryAt
      · rfl
      · exact hm.submitted
      · exact fun h => absurd h Bool.false_ne_true
  | false =>
      refine ⟨{ s with retryAt := uptime + bigRetryMs, pending := false, worker := .idle }, ?_,
        ⟨hm.running.trans hrunning.symm, ?_, ?_, ?_, ?_, ?_, hm.size, hm.fits⟩, rfl, rfl, rfl⟩
      · simp [Machine.run, machine, step, work, hworker]
      all_goals rw [hfollow]
      · exact hm.synced
      · rfl
      · rfl
      · exact hm.submitted
      · exact fun h => absurd h Bool.false_ne_true

/-- **`big_work_fn`, uninterrupted.** -/
theorem run_work {s : State} {fw : Board.Firmware} (uptime : Int) (hm : Matches s fw.ble)
    (hheld : Held s) (hsubmitted : s.submitted = true) :
    ∃ t, machine.run s (commandLabels s fw.hci.next ++ [.note uptime, .work]) = some t ∧
      Matches t (bigWorkFn fw uptime).ble ∧ t.poster = s.poster ∧ t.worker = .idle ∧
      t.sent.map Sent.params = s.sent.map Sent.params ++
        if fw.ble.running && Requests.wentOut fw.hci.next then [fw.ble.follow.bigParams] else [] := by
  obtain ⟨hpending, -, hbusy⟩ := hheld.queued hsubmitted
  have hidle : s.worker = .idle := by
    cases hworker : s.worker with
    | idle => rfl
    | took | reading | awaiting | returned | noted => rw [hworker] at hbusy; cases hbusy
  have hmail := hm.mail (hm.pending ▸ hpending)
  obtain ⟨hrunning, hfollow, -⟩ := bigWorkFn_spec fw uptime
  rw [← hm.running] at hfollow
  obtain ⟨sent, hcommand, hsent⟩ :=
    run_command (a := fw.hci.next) hidle hsubmitted (hm.size ▸ hm.fits)
  -- the queue has the request no longer, and nothing else is changed
  have hbegun : Matches { s with
      submitted := false, worker := .returned (s.running && fw.hci.next.accepted), sent }
      (beginBigWork fw.ble) :=
    ⟨hm.running, hm.synced, hm.retryAt, hm.pending, rfl, hm.mail, hm.size, hm.fits⟩
  obtain ⟨t, hnote, hmatches, hposter, hworker, hsent'⟩ := run_note hbegun rfl hrunning hfollow
  refine ⟨t, ?_, hmatches, hposter, hworker, ?_⟩
  · rw [machine.run_append, hcommand]
    exact hnote
  · rw [hsent', hsent, hmail, hm.running]

/-! ## Every interleaving -/

/-- The mailbox as the file declares it, whatever the other threads have set. -/
def initial (running synced : Bool) (retryAt : Int) : State := { running, synced, retryAt }

structure Kept (s : State) : Prop where
  held : Held s
  carried : Carried s

theorem kept_initial (running synced : Bool) (retryAt : Int) :
    Kept (initial running synced retryAt) := by
  refine ⟨rfl, List.length_replicate, trivial, fun hreq => ?_, reads_of_idle rfl, ?_, .nil⟩
  · exact absurd hreq (not_requested rfl rfl)
  · intro c hc
    cases hc

theorem kept_run {running synced : Bool} {retryAt : Int} {labels : List Label} {s : State}
    (hrun : machine.run (initial running synced retryAt) labels = some s) : Kept s := by
  refine machine.run_invariant (fun s l t hs hstep => ?_) (kept_initial _ _ _) hrun
  exact ⟨held_step hs.held hstep, carried_step hs.held hs.carried hstep⟩

/-- The forwarding thread writes the bytes only while it holds the mailbox. -/
theorem post_keeps {s t : State} (howns : s.poster.owns = false) (hstep : post s = some t) :
    t.params = s.params ∧ t.len = s.len := by
  unfold post at hstep
  split at hstep
  · cases hstep
  · split at hstep
    · cases hstep
      exact ⟨rfl, rfl⟩
    · cases hstep
      exact ⟨rfl, rfl⟩
  · rename_i hposter
    rw [hposter] at howns
    cases howns
  · rename_i hposter
    rw [hposter] at howns
    cases howns

/-- The work item never writes them. -/
theorem work_keeps {s t : State} (hstep : work s = some t) :
    t.params = s.params ∧ t.len = s.len := by
  unfold work at hstep
  split at hstep
  · split at hstep
    · cases hstep
      exact ⟨rfl, rfl⟩
    · cases hstep
  · cases hstep
    exact ⟨rfl, rfl⟩
  · split at hstep
    · obtain ⟨byte, _, heq⟩ := Option.map_eq_some_iff.mp hstep
      cases heq
      exact ⟨rfl, rfl⟩
    · cases hstep
  · cases hstep
    exact ⟨rfl, rfl⟩
  · cases hstep

/-- A request keeps its bytes: no step writes them. -/
theorem requested_keeps {s t : State} {l : Label} (hheld : Held s) (hreq : s.Requested)
    (hstep : step s l = some t) : s.poster.owns = false ∧ t.params = s.params ∧ t.len = s.len := by
  have howns : s.poster.owns = false := by
    rcases (requested_iff s).mp hreq with hsubmitted | hbusy
    · exact (hheld.queued hsubmitted).2.1
    · exact (hheld.working hbusy).2.1
  refine ⟨howns, ?_⟩
  unfold step at hstep
  split at hstep
  · split at hstep
    · obtain ⟨r, _, heq⟩ := Option.map_eq_some_iff.mp hstep
      cases r with
      | none =>
          cases heq
          exact ⟨rfl, rfl⟩
      | some block =>
          cases heq
          exact ⟨rfl, rfl⟩
    · cases hstep
  · exact post_keeps howns hstep
  · exact work_keeps hstep
  · split at hstep
    · split at hstep
      · cases hstep
      · cases hstep
        exact ⟨rfl, rfl⟩
    · cases hstep
  · split at hstep
    · cases hstep
      exact ⟨rfl, rfl⟩
    · cases hstep
  · split at hstep
    · cases hstep
      exact ⟨rfl, rfl⟩
    · cases hstep
  · split at hstep
    · cases hstep
      exact ⟨rfl, rfl⟩
    · cases hstep
      exact ⟨rfl, rfl⟩
    · cases hstep
  · cases hstep
    exact ⟨rfl, rfl⟩

/-- **Every BIG Create Sync sent is one report's, whole and joinable**, however
the two threads are interleaved and whatever the events hold: the command for
the report that won as number `win` carries that report's block, the commands
belong to different reports, and the block of a request is not written while
the request is pending. -/
theorem big_create_sync_whole {running synced : Bool} {retryAt : Int} {labels : List Label}
    {s : State} (hrun : machine.run (initial running synced retryAt) labels = some s) :
    (∀ c ∈ s.sent, ∃ report numBis, s.wins[c.win]? = some report ∧ Joins report c.params ∧
      report[5]? = some numBis ∧ c.params.length = 24 + min numBis.toNat maxBis) ∧
    (s.sent.map Sent.win).Pairwise (· < ·) ∧
    ∀ l t, s.Requested → step s l = some t →
      s.poster.owns = false ∧ t.params = s.params ∧ t.len = s.len := by
  have hkept := kept_run hrun
  refine ⟨fun c hc => ?_, hkept.carried.delivered.once,
    fun l t hreq hstep => requested_keeps hkept.held hreq hstep⟩
  obtain ⟨_, report, hwin, hjoins⟩ := hkept.carried.delivered.each c hc
  obtain ⟨numBis, hnum, hlen⟩ := hjoins.length
  exact ⟨report, numBis, hwin, hjoins, hnum, hlen⟩

/-- BIGInfo of an open broadcast of three streams, on sync handle 0x0123. -/
def threeStreams : List UInt8 :=
  [0x3E, 20, 0x22, 0x23, 0x01, 3] ++ List.replicate 16 0

/-- Of a broadcast of one stream, on sync handle 0x0456. -/
def oneStream : List UInt8 :=
  [0x3E, 20, 0x22, 0x56, 0x04, 1] ++ List.replicate 16 0

/-- Two reports; the second comes while the first is with the work item. -/
def twoReports : List Label :=
  [.look threeStreams 0] ++ List.replicate 29 .post ++ [.work, .work] ++ List.replicate 20 .work ++
    [.look oneStream 0, .post] ++ List.replicate 6 .work ++ [.send, .answer true, .note 0, .work]

theorem big_create_sync_whole_two_reports :
    ∃ s, machine.run (initial true false 0) twoReports = some s ∧ s.sent.length = 1 ∧
      ∀ c ∈ s.sent, ∃ report numBis, s.wins[c.win]? = some report ∧ Joins report c.params ∧
        report[5]? = some numBis ∧ c.params.length = 24 + min numBis.toNat maxBis := by
  have hruns : ((machine.run (initial true false 0) twoReports).any fun s => s.sent.length == 1)
      = true := by decide +kernel
  obtain ⟨s, hrun, hone⟩ := (Option.any_eq_true _ _).mp hruns
  exact ⟨s, hrun, beq_iff_eq.mp hone, (big_create_sync_whole hrun).1⟩

end Nrf54Sniffer.Ble.Mailbox
