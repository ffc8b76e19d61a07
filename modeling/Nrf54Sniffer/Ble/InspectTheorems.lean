/-
Nrf54Sniffer.Ble.InspectTheorems — inspection never reads past the event.

On the bytes of an event each `Look` program does what the function of `Notes`
does (`noteCounts_runOn` and its like), and those never answer `none`. So no read
of a program is outside, whatever memory it runs in (`Sees`), and the callers
put the five together.
-/
import Nrf54Sniffer.Ble.Inspect
import Nrf54Sniffer.Ble.ForwardTheorems
import Mathlib.Logic.Basic

namespace Nrf54Sniffer.Ble.Inspect

open Nrf54Sniffer.Lib
open Nrf54Sniffer.Wire

/-! ## The programs on the bytes of an event -/

theorem sysGetLe16_runOn (evt : List UInt8) (i : Nat) :
    (sysGetLe16 i).runOn evt = (do return getLe16 (← evt[i]?) (← evt[i + 1]?)) := by
  simp only [sysGetLe16, Look.runOn_bind, Look.runOn_byte]
  rfl

theorem noteCommandResult_runOn (slot : CmdSlot) (evt : List UInt8) :
    (noteCommandResult slot evt.length).runOn evt = Ble.noteCommandResult slot evt := by
  unfold noteCommandResult Ble.noteCommandResult commandResult
  simp only [Look.runOn_bind, Look.runOn_byte, Look.runOn_ite, Look.runOn_pure, sysGetLe16_runOn]
  cases evt[0]? with
  | none => rfl
  | some code =>
      simp only [Option.bind_eq_bind, Option.bind_some]
      split
      · cases evt[3]? <;> cases evt[4]? <;> cases evt[5]? <;> rfl
      · split
        · cases evt[2]? <;> cases evt[4]? <;> cases evt[5]? <;> rfl
        · rfl

theorem keepHandles_runOn (evt : List UInt8) (n room i : Nat) :
    (keepHandles n evt.length room i).runOn evt = Ble.keepHandles evt n room i := by
  induction room generalizing i with
  | zero => rfl
  | succ room ih =>
      unfold keepHandles Ble.keepHandles
      rw [Look.runOn_ite]
      simp only [Look.runOn_bind, Look.runOn_pure, sysGetLe16_runOn, ih]
      split
      · cases evt[1 + 2 * i]? <;> cases evt[1 + 2 * i + 1]? <;> rfl
      · rfl

theorem noteBigEstablished_runOn (s : BleRadio) (evt : List UInt8) :
    (noteBigEstablished s evt.length).runOn evt = Ble.noteBigEstablished s evt := by
  unfold noteBigEstablished Ble.noteBigEstablished
  simp only [Look.runOn_bind, Look.runOn_byte, Look.runOn_pure, keepHandles_runOn]
  rfl

theorem eventSucceeded_runOn (need : Nat) (evt : List UInt8) :
    (eventSucceeded need evt.length).runOn evt = Ble.eventSucceeded need evt := by
  unfold eventSucceeded Ble.eventSucceeded
  rw [Look.runOn_ite]
  simp only [Look.runOn_bind, Look.runOn_byte, Look.runOn_pure]
  split
  · cases evt[3]? <;> rfl
  · rfl

theorem notePeriodicSync_runOn (s : BleRadio) (evt : List UInt8) :
    (notePeriodicSync s evt.length).runOn evt = Ble.notePeriodicSync s evt := by
  unfold notePeriodicSync Ble.notePeriodicSync
  simp only [Look.runOn_bind, Look.runOn_ite, Look.runOn_pure, eventSucceeded_runOn]
  rfl

theorem noteBigSync_runOn (s : BleRadio) (evt : List UInt8) (uptime : Int) :
    (noteBigSync s evt.length uptime).runOn evt = Ble.noteBigSync s evt uptime := by
  unfold noteBigSync Ble.noteBigSync
  simp only [Look.runOn_bind, Look.runOn_ite, Look.runOn_pure, Look.runOn_relocate,
    eventSucceeded_runOn]
  rw [← List.length_drop]
  simp only [noteBigEstablished_runOn]
  rfl

theorem noteCounts_runOn (s : BleRadio) (evt : List UInt8) (uptime : Int) :
    (noteCounts s evt.length uptime).runOn evt = Ble.noteCounts s evt uptime := by
  unfold noteCounts Ble.noteCounts
  simp only [Look.runOn_bind, Look.runOn_byte, Look.runOn_ite, Look.runOn_pure,
    notePeriodicSync_runOn, noteBigSync_runOn]
  rfl

/-- Long enough for the test in front, a train is read in any order. -/
theorem notePeriodic_runOn (s : BleRadio) (hci : List UInt8) :
    (notePeriodic s hci.length).runOn hci = Ble.notePeriodic s hci := by
  unfold notePeriodic Ble.notePeriodic
  rw [Look.runOn_ite]
  split
  · rfl
  · rename_i hlen
    have h21 : 21 ≤ hci.length := by omega
    obtain ⟨code, hcode⟩ := getElem?_of_lt h21 (by omega : 1 < 21)
    obtain ⟨sub, hsub⟩ := getElem?_of_lt h21 (by omega : 3 < 21)
    obtain ⟨lo, hlo⟩ := getElem?_of_lt h21 (by omega : 19 < 21)
    obtain ⟨hi, hhi⟩ := getElem?_of_lt h21 (by omega : 19 + 1 < 21)
    obtain ⟨addrType, htype⟩ := getElem?_of_lt h21 (by omega : 7 < 21)
    obtain ⟨sid, hsid⟩ := getElem?_of_lt h21 (by omega : 16 < 21)
    have haddr : takeExact 6 (hci.drop 8) = some ((hci.drop 8).take 6, (hci.drop 8).drop 6) :=
      if_pos (by rw [List.length_drop]; omega)
    simp only [Look.runOn_bind, Look.runOn_byte, Look.runOn_ite, Look.runOn_pure,
      sysGetLe16_runOn, Look.runOn_range hci 8 6 (by omega), periodicReport, hcode, hsub, hlo, hhi,
      htype, hsid, haddr, Option.bind_eq_bind, Option.bind_some]
    rw [ite_or]
    rfl

/-- So is a BIGInfo report. -/
theorem noteBigInfo_runOn (s : BleRadio) (hci : List UInt8) (uptime : Int) :
    (noteBigInfo s hci.length uptime).runOn hci = Ble.noteBigInfo s hci uptime := by
  unfold noteBigInfo Ble.noteBigInfo
  rw [Look.runOn_ite]
  split
  · rfl
  · rename_i hlen
    have h23 : 23 ≤ hci.length := by omega
    obtain ⟨code, hcode⟩ := getElem?_of_lt h23 (by omega : 1 < 23)
    obtain ⟨sub, hsub⟩ := getElem?_of_lt h23 (by omega : 3 < 23)
    obtain ⟨lo, hlo⟩ := getElem?_of_lt h23 (by omega : 4 < 23)
    obtain ⟨hi, hhi⟩ := getElem?_of_lt h23 (by omega : 4 + 1 < 23)
    obtain ⟨numBis, hnum⟩ := getElem?_of_lt h23 (by omega : 6 < 23)
    obtain ⟨enc, henc⟩ := getElem?_of_lt h23 (by omega : 22 < 23)
    simp only [Look.runOn_bind, Look.runOn_byte, Look.runOn_ite, Look.runOn_pure,
      sysGetLe16_runOn, hcode, hsub, hlo, hhi, hnum, henc, Option.bind_eq_bind, Option.bind_some]
    simp only [ite_or]
    rfl

/-! ## The memory -/

/-- A byte of the event, or of the copy just made of it. -/
def Place.Fresh (len : Nat) : Place → Prop
  | .event i => i < len
  | .peek i => i < peekLen len

/-- The event and `peek`, and whatever is behind them. -/
def memory (data : List UInt8) (peek : ByteBuffer peekSize) (beyond : Place → UInt8) :
    Place → UInt8
  | .event i => data.getD i (beyond (.event i))
  | .peek i => peek.bytes.getD i (beyond (.peek i))

theorem peekLen_eq (len : Nat) : peekLen len = min 32 (len + 1) := by
  unfold peekLen peekSize
  split
  · omega
  · omega

/-- The copies fit, `peek` starts with the event behind its H4 byte, and the rest
of it is what it was. -/
theorem fillPeek_spec (peek : ByteBuffer peekSize) (data : List UInt8) :
    ∃ peek', fillPeek peek data = some peek' ∧
      peek'.bytes = peekCopy data ++ peek.bytes.drop (peekLen data.length) := by
  have hlen := peekLen_eq data.length
  have hsize : peekSize = 32 := rfl
  have hhead : takeExact (peekLen data.length - 1) data
      = some (data.take (peekLen data.length - 1), data.drop (peekLen data.length - 1)) :=
    if_pos (by omega)
  have hcopied : (data.take (peekLen data.length - 1)).length = peekLen data.length - 1 := by
    rw [List.length_take]
    omega
  obtain ⟨p₁, hw₁, hb₁⟩ := peek.write_eq_some 0 [h4Event] (by decide)
  obtain ⟨p₂, hw₂, hb₂⟩ := p₁.write_eq_some 1 (data.take (peekLen data.length - 1)) (by omega)
  refine ⟨p₂, ?_, ?_⟩
  · simp only [fillPeek, hw₁, hhead, hw₂, Option.bind_eq_bind, Option.bind_some]
  · have hend : 1 + (peekLen data.length - 1) = peekLen data.length := by omega
    rw [hb₂, hcopied, hend, hb₁, List.take_zero, List.nil_append, Nat.zero_add,
      List.length_singleton, List.singleton_append, List.take_succ_cons, List.take_zero,
      ← hend, Nat.add_comm 1, List.drop_succ_cons, List.drop_drop, Nat.add_comm 1, peekCopy,
      hlen]
    rfl

theorem peekCopy_len (data : List UInt8) : (peekCopy data).length = peekLen data.length := by
  rw [peekLen_eq, peekCopy, List.length_cons, List.length_take]
  omega

theorem holds_event (data : List UInt8) (peek : ByteBuffer peekSize) (beyond : Place → UInt8) :
    Look.Holds (fun i => memory data peek beyond (.event i)) data := by
  intro i b hb
  show data.getD i _ = b
  rw [List.getD_eq_getElem?_getD, hb]
  rfl

theorem holds_peek {data : List UInt8} {peek : ByteBuffer peekSize} {rest : List UInt8}
    (hpeek : peek.bytes = peekCopy data ++ rest) (beyond : Place → UInt8) :
    Look.Holds (fun i => memory data peek beyond (.peek i)) (peekCopy data) := by
  intro i b hb
  obtain ⟨hi, _⟩ := List.getElem?_eq_some_iff.mp hb
  show peek.bytes.getD i _ = b
  rw [hpeek, List.getD_eq_getElem?_getD, List.getElem?_append_left hi, hb]
  rfl

/-! ## The handles stored -/

/-- The handles of the streams, as many as there are and have room. -/
def firstHandles (numBis : UInt8) (bytes : List UInt8) : List UInt16 :=
  (List.range (min (min numBis.toNat maxBis) (bytes.length / 2))).map fun i =>
    getLe16 (bytes.getD (2 * i) 0) (bytes.getD (2 * i + 1) 0)

theorem keepHandles_eq (numBis : UInt8) (bytes : List UInt8) (n room i : Nat) :
    Ble.keepHandles (numBis :: bytes) n room i
      = some ((List.range (min (min (n - i) room) (bytes.length / 2 - i))).map fun j =>
          getLe16 (bytes.getD (2 * (i + j)) 0) (bytes.getD (2 * (i + j) + 1) 0)) := by
  induction room generalizing i with
  | zero =>
      rw [Nat.min_zero, Nat.zero_min]
      rfl
  | succ room ih =>
      unfold Ble.keepHandles
      by_cases hmore : i < n ∧ 1 + 2 * (i + 1) ≤ (numBis :: bytes).length
      · have hlen : 2 * (i + 1) ≤ bytes.length := by
          have := hmore.2
          rw [List.length_cons] at this
          omega
        have hlo : (numBis :: bytes)[1 + 2 * i]? = some (bytes.getD (2 * i) 0) := by
          rw [Nat.add_comm, List.getElem?_cons_succ, List.getD_eq_getElem?_getD,
            List.getElem?_eq_getElem (by omega)]
          rfl
        have hhi : (numBis :: bytes)[1 + 2 * i + 1]? = some (bytes.getD (2 * i + 1) 0) := by
          rw [List.getElem?_cons_succ, Nat.add_comm 1, List.getD_eq_getElem?_getD,
            List.getElem?_eq_getElem (by omega)]
          rfl
        have hcount : min (min (n - i) (room + 1)) (bytes.length / 2 - i)
            = min (min (n - (i + 1)) room) (bytes.length / 2 - (i + 1)) + 1 := by omega
        rw [if_pos hmore, hlo, hhi, ih, hcount, List.range_succ_eq_map, List.map_cons,
          List.map_map]
        simp only [Option.bind_eq_bind, Option.bind_some, Option.some_inj, List.cons.injEq]
        refine ⟨rfl, List.map_congr_left fun j _ => ?_⟩
        have hj : i + 1 + j = i + (j + 1) := by omega
        rw [hj]
        rfl
      · have hcount : min (min (n - i) (room + 1)) (bytes.length / 2 - i) = 0 := by
          rw [List.length_cons] at hmore
          omega
        rw [if_neg hmore, hcount]
        rfl

/-- A BIG was joined, and the event reaches its number of streams. -/
structure BigJoined (data : List UInt8) (numBis : UInt8) : Prop where
  code : data[0]? = some evtLeMeta
  sub : data[2]? = some leBigSyncEstablished
  status : data[3]? = some hciSuccess
  streams : data[16]? = some numBis

/-- The capture takes the event. -/
theorem BigJoined.captured {data : List UInt8} {numBis h4 : UInt8} (h : BigJoined data numBis)
    (hevent : h4 = h4Event) : captures h4 data = true := by
  subst hevent
  cases data with
  | nil => cases h.code
  | cons code data =>
      cases h.code
      rfl

/-- `note_counts` stores the first handles of a BIG joined. -/
theorem noteCounts_bigJoined {s : BleRadio} {data : List UInt8} {numBis : UInt8}
    (h : BigJoined data numBis) (uptime : Int) :
    ∃ s', Ble.noteCounts s data uptime = some s' ∧
      s'.follow.bisHandles = firstHandles numBis (data.drop 17) := by
  have hlen : 16 < data.length := (List.getElem?_eq_some_iff.mp h.streams).1
  have hrest : data.drop 16 = numBis :: data.drop 17 := by
    rw [List.drop_eq_getElem_cons hlen, (List.getElem?_eq_some_iff.mp h.streams).2]
  have hok : Ble.eventSucceeded 17 data = some true := by
    rw [Ble.eventSucceeded, if_pos (by omega), h.status]
    rfl
  have hkept := keepHandles_eq numBis (data.drop 17) numBis.toNat maxBis 0
  simp only [Nat.sub_zero, Nat.zero_add] at hkept
  have hstored : ∀ s : BleRadio, Ble.noteBigEstablished s (data.drop 16) = some { s with follow :=
      { s.follow with
        bisHandles := firstHandles numBis (data.drop 17), isoPathWork := true } } := by
    intro s
    rw [hrest, Ble.noteBigEstablished]
    show ((Ble.keepHandles _ numBis.toNat maxBis 0).bind _) = _
    rw [hkept]
    rfl
  have hresult := hstored { s with follow := { s.follow with bigSynced := true } }
  refine ⟨_, Eq.trans ?_ hresult, rfl⟩
  unfold Ble.noteCounts
  rw [if_neg (by omega), h.code, h.sub]
  show Ble.noteBigSync s data uptime = _
  rw [Ble.noteBigSync, hok]
  rfl

/-! ## The callers -/

/-- An event of two bytes or more can be looked at for an answer. -/
theorem noteCommandResult_total (slot : CmdSlot) {evt : List UInt8} (h : 2 ≤ evt.length) :
    ∃ slot', Ble.noteCommandResult slot evt = some slot' := by
  suffices H : ∃ r, commandResult evt = some r by
    obtain ⟨r, hr⟩ := H
    rw [Ble.noteCommandResult, hr]
    exact ⟨_, rfl⟩
  obtain ⟨code, hcode⟩ := getElem?_of_lt h (by omega : 0 < 2)
  unfold commandResult
  rw [hcode]
  simp only [Option.bind_eq_bind, Option.bind_some]
  by_cases hlen : 6 ≤ evt.length
  · obtain ⟨b2, h2⟩ := getElem?_of_lt hlen (by omega : 2 < 6)
    obtain ⟨b3, h3⟩ := getElem?_of_lt hlen (by omega : 3 < 6)
    obtain ⟨b4, h4⟩ := getElem?_of_lt hlen (by omega : 4 < 6)
    obtain ⟨b5, h5⟩ := getElem?_of_lt hlen (by omega : 5 < 6)
    simp only [h2, h3, h4, h5, Option.bind_some]
    split
    · exact ⟨_, rfl⟩
    · split
      · exact ⟨_, rfl⟩
      · exact ⟨_, rfl⟩
  · rw [if_neg (fun hc => hlen hc.2), if_neg (fun hc => hlen hc.2)]
    exact ⟨_, rfl⟩

section Callers

variable {data : List UInt8} {peek : ByteBuffer peekSize} {rest : List UInt8}

/-- A program on the event. -/
theorem event_yields {α : Type} {p : Look Nat α} {a : α} (h : p.runOn data = some a)
    (peek : ByteBuffer peekSize) (beyond : Place → UInt8) :
    Look.Yields (Place.Fresh data.length) (memory data peek beyond) (p.relocate Place.event) a :=
  .relocate Place.event (fun _ hi => hi) (Look.yields_of_runOn (holds_event data peek beyond) h)

/-- A program on the copy. -/
theorem peek_yields {α : Type} {p : Look Nat α} {a : α}
    (hpeek : peek.bytes = peekCopy data ++ rest) (h : p.runOn (peekCopy data) = some a)
    (beyond : Place → UInt8) :
    Look.Yields (Place.Fresh data.length) (memory data peek beyond) (p.relocate Place.peek) a := by
  refine .relocate Place.peek (fun i hi => ?_) (Look.yields_of_runOn (holds_peek hpeek beyond) h)
  rw [peekCopy_len] at hi
  exact hi

theorem answers_yields (slot : CmdSlot) (h4 : UInt8) (data : List UInt8)
    (peek : ByteBuffer peekSize) (beyond : Place → UInt8) :
    ∃ slot', noteAnswer slot h4 data = some slot' ∧
      Look.Yields (Place.Fresh data.length) (memory data peek beyond)
        (answers slot h4 data.length) slot' := by
  unfold noteAnswer answers
  split
  · rename_i hlook
    obtain ⟨slot', hslot⟩ := noteCommandResult_total slot hlook.2
    refine ⟨slot', hslot, event_yields ?_ peek beyond⟩
    rw [noteCommandResult_runOn, hslot]
  · exact ⟨slot, rfl, .pure slot⟩

theorem takes_yields (running : Bool) (h4 : UInt8) (data : List UInt8)
    (peek : ByteBuffer peekSize) (beyond : Place → UInt8) :
    Look.Yields (Place.Fresh data.length) (memory data peek beyond)
      (takes running h4 data.length) (running && captures h4 data) := by
  unfold takes
  cases running with
  | false =>
      rw [if_neg (by simp), if_neg (by simp)]
      exact .pure _
  | true =>
      by_cases hiso : h4 = h4Iso
      · subst hiso
        exact .pure _
      · rw [if_neg (fun h => hiso h.2)]
        by_cases hevent : h4 = h4Event
        · subst hevent
          cases data with
          | nil => exact .pure _
          | cons code data =>
              rw [if_pos ⟨rfl, rfl, Nat.succ_pos _⟩]
              exact .bind (Look.yields_byte (Nat.succ_pos _)) (.pure _)
        · rw [if_neg (fun h => hevent h.2.1)]
          have hno : captures h4 data = false := by simp [captures, hiso, hevent]
          rw [hno]
          exact .pure _

theorem counts_yields {s s' : BleRadio} {h4 : UInt8} {now : Readings}
    (h : countEvent s h4 data now = some s') (peek : ByteBuffer peekSize)
    (beyond : Place → UInt8) :
    Look.Yields (Place.Fresh data.length) (memory data peek beyond)
      (counts s h4 data.length now) s' := by
  unfold countEvent at h
  unfold counts
  split at h
  · rename_i hevent
    rw [if_pos hevent]
    exact event_yields ((noteCounts_runOn _ _ _).trans h) peek beyond
  · rename_i hevent
    rw [if_neg hevent]
    cases h
    exact .pure _

theorem peeks_yields {s s' : BleRadio} {h4 : UInt8} {now : Readings}
    (h : peekEvent s h4 data now = some s') (hpeek : peek.bytes = peekCopy data ++ rest)
    (beyond : Place → UInt8) :
    Look.Yields (Place.Fresh data.length) (memory data peek beyond)
      (peeks s h4 data.length now) s' := by
  unfold peekEvent at h
  unfold peeks
  split at h
  · rename_i hfollow
    rw [if_pos hfollow]
    obtain ⟨s₁, hperiodic, hbig⟩ := Option.bind_eq_some_iff.mp h
    rw [← notePeriodic_runOn, peekCopy_len] at hperiodic
    rw [← noteBigInfo_runOn, peekCopy_len] at hbig
    exact .bind (peek_yields hpeek hperiodic beyond) (peek_yields hpeek hbig beyond)
  · rename_i hfollow
    rw [if_neg hfollow]
    cases h
    exact .pure _

end Callers

/-- The looks for trains and broadcasts leave the handles alone. -/
theorem peekEvent_bisHandles {s s' : BleRadio} {h4 : UInt8} {data : List UInt8} {now : Readings}
    (h : peekEvent s h4 data now = some s') : s'.follow.bisHandles = s.follow.bisHandles := by
  have hput : ∀ (f : Following) (req : SyncReq), (putSyncReq f req).bisHandles = f.bisHandles := by
    intro f req
    unfold putSyncReq
    split
    · rfl
    · rfl
  unfold peekEvent at h
  split at h
  · obtain ⟨s₁, hperiodic, hbig⟩ := Option.bind_eq_some_iff.mp h
    have hfirst : s₁.follow.bisHandles = s.follow.bisHandles := by
      rcases notePeriodic_cases hperiodic with rfl | ⟨req, rfl⟩
      · rfl
      · exact hput _ _
    rcases noteBigInfo_cases hbig with rfl | ⟨-, bigParams, rfl⟩
    · exact hfirst
    · exact hfirst
  · cases h
    rfl

/-- **Inspection never reads past the event.** For every packet, whatever the
thread has noted before, whatever was left in `peek` and whatever lies behind
the event and behind `peek`: each byte read is one of the event, or of the copy
just made of it, and what is noted is what `Notes` says. When it is that a BIG
was joined, the handles stored are the first `min(num_bis, MAX_BIS)` of those
that are there whole. -/
theorem inspection_inside (slot : CmdSlot) (s : BleRadio) (h4 : UInt8) (data : List UInt8)
    (now : Readings) (peek : ByteBuffer peekSize) (beyond : Place → UInt8) :
    ∃ peek' slot' s', fillPeek peek data = some peek' ∧
      Look.Yields (Place.Fresh data.length) (memory data peek' beyond)
        (inspect slot s h4 data.length now) (slot', s') ∧
      noteAnswer slot h4 data = some slot' ∧
      (if s.running && captures h4 data then
        beforeLock s h4 data now = some (s', sizePacket h4 data now.nowUs) else s' = s) ∧
      ∀ numBis, s.running = true → h4 = h4Event → BigJoined data numBis →
        s'.follow.bisHandles = firstHandles numBis (data.drop 17) := by
  obtain ⟨peek', hfill, hpeek⟩ := fillPeek_spec peek data
  obtain ⟨slot', hslot, hanswer⟩ := answers_yields slot h4 data peek' beyond
  have htakes := takes_yields s.running h4 data peek' beyond
  cases hforward : s.running && captures h4 data with
  | false =>
      rw [hforward] at htakes
      refine ⟨peek', slot', s, hfill, .bind hanswer (.bind htakes (.pure _)), hslot, rfl, ?_⟩
      intro numBis hrunning hevent hjoined
      rw [hjoined.captured hevent, hrunning] at hforward
      cases hforward
  | true =>
      rw [hforward] at htakes
      obtain ⟨s', hbefore, -⟩ := beforeLock_spec s h4 data now
      have hparts := hbefore
      simp only [beforeLock, Option.bind_eq_bind, Option.bind_eq_some_iff] at hparts
      obtain ⟨s₁, hcount, s₂, hpeeked, heq⟩ := hparts
      cases heq
      refine ⟨peek', slot', s', hfill, .bind hanswer (.bind htakes
        (.bind (counts_yields hcount peek' beyond)
          (.bind (peeks_yields hpeeked hpeek beyond) (.pure _)))), hslot, hbefore, ?_⟩
      intro numBis _ hevent hjoined
      rw [peekEvent_bisHandles hpeeked]
      rw [countEvent, if_pos hevent] at hcount
      obtain ⟨s₃, hcounts, hstored⟩ := noteCounts_bigJoined hjoined now.uptimeCounts
      rw [hcounts] at hcount
      cases hcount
      exact hstored

/-- BIG Sync Established for three streams, cut off in the second handle. -/
def cutShort : List UInt8 :=
  [0x3E, 19, 0x1D, 0] ++ List.replicate 12 0 ++ [3, 0x10, 0x00, 0x11]

/-- The old bytes behind it are no handle. -/
theorem inspection_inside_cut_short :
    ∃ peek' slot' s', Look.Yields (Place.Fresh cutShort.length)
        (memory cutShort peek' fun _ => 0xAA)
        (inspect {} { running := true } h4Event cutShort.length ⟨0, 0, 0⟩) (slot', s') ∧
      s'.follow.bisHandles = [0x0010] := by
  obtain ⟨peek', slot', s', -, hyields, -, -, hstored⟩ := inspection_inside {} { running := true }
    h4Event cutShort ⟨0, 0, 0⟩ (.zero _) fun _ => 0xAA
  exact ⟨peek', slot', s', hyields, hstored 3 rfl rfl ⟨rfl, rfl, rfl, rfl⟩⟩

end Nrf54Sniffer.Ble.Inspect
