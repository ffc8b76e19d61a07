/-
Nrf54Sniffer.Ble.Mailbox — the mailbox between `note_biginfo` and
`big_work_fn`, a line and a byte at a time.

The forwarding thread fills `big_params` and the work queue empties it. Both
copies go a byte at a time, and either thread may be stopped between any two
lines. What decides who may touch the bytes is `big_pending`: the forwarding
thread sets it with a compare-and-set before it copies, the work item clears it
when it is through. `running`, `big_synced` and `big_retry_at` are written by
other threads as well, so they may become anything at any time (`elsewhere`).

`wins` and the numbers in `sent` are ghosts: the reports whose compare-and-set
won, and for each command sent how many had won by then.

`noteBigInfo` and `bigWorkFn` are the same code uninterrupted: `run_post` and
`run_work` say so.
-/
import Nrf54Sniffer.Ble.Forward
import Nrf54Sniffer.Ble.Hci
import Nrf54Sniffer.Ble.Commands
import Nrf54Sniffer.Lib.Machine

namespace Nrf54Sniffer.Ble.Mailbox

open Nrf54Sniffer.Lib
open Nrf54Sniffer.Wire

/-! ## State -/

/-- The forwarding thread in `note_biginfo`. `report` is the event it looks at,
`block` the local `params`. -/
inductive Poster where
  | idle
  /-- The block is built, the compare-and-set comes next. -/
  | built (report block : List UInt8)
  /-- In `memcpy`, with `i` bytes copied. -/
  | copying (block : List UInt8) (i : Nat)
  /-- `big_len` is stored, `k_work_submit` comes next. -/
  | stored
  deriving DecidableEq, Repr

/-- It has won the mailbox and not yet handed it on. -/
def Poster.owns : Poster → Bool
  | .copying .. | .stored => true
  | _ => false

/-- The work queue in `big_work_fn`. -/
inductive Worker where
  | idle
  /-- `running` not yet tested. -/
  | took
  /-- In `hci_command`, its length argument read, with the bytes so far in the
  command buffer. -/
  | reading (len : Nat) (bytes : List UInt8)
  /-- The command is sent, its answer awaited. -/
  | awaiting
  | returned (joined : Bool)
  /-- The outcome is noted, `atomic_clear` comes next. -/
  | noted
  deriving DecidableEq, Repr

/-- It may still send a command. -/
def Worker.unsent : Worker → Bool
  | .took | .reading .. => true
  | _ => false

/-- A command sent, and how many reports had won before the one it is for. -/
structure Sent where
  win : Nat
  params : List UInt8
  deriving DecidableEq, Repr

structure State where
  /-- `big_params`, all of it. -/
  params : List UInt8 := List.replicate (25 + maxBis) 0
  len : Nat := 0
  pending : Bool := false
  submitted : Bool := false
  running : Bool
  synced : Bool
  retryAt : Int
  poster : Poster := .idle
  worker : Worker := .idle
  wins : List (List UInt8) := []
  sent : List Sent := []

/-- A step of the forwarding thread, of the work queue, or of anything else. A
command fails for want of a buffer or in `bt_send`, with nothing sent. -/
inductive Label where
  | look (report : List UInt8) (uptime : Int)
  | post
  | work
  | send
  | fail
  | answer (joined : Bool)
  | note (uptime : Int)
  | elsewhere (running synced : Bool) (retryAt : Int)
  deriving DecidableEq, Repr

/-! ## Steps -/

/-- The part of `note_biginfo` before the compare-and-set: the block, if the
report is to be joined. -/
def joinBlock (synced : Bool) (retryAt : Int) (hci : List UInt8) (uptime : Int) :
    Option (Option (List UInt8)) :=
  if hci.length < 23 then some none
  else do
    let code ← hci[1]?
    let sub ← hci[3]?
    if code ≠ evtLeMeta ∨ sub ≠ leBigInfoAdvReport then some none
    else if synced ∨ uptime < retryAt then some none
    else do
      let syncHandle := getLe16 (← hci[4]?) (← hci[5]?)
      let numBis ← hci[6]?
      let encrypted ← hci[22]?
      if numBis = 0 ∨ encrypted ≠ 0 then some none
      else some (some (bigCreateSyncParams syncHandle (min numBis.toNat maxBis)))

/-- `note_biginfo` is called on the copy of an event. -/
def look (s : State) (report : List UInt8) (uptime : Int) : Option State :=
  (joinBlock s.synced s.retryAt (peekCopy report) uptime).map fun
    | none => s
    | some block => { s with poster := .built report block }

/-- The rest of `note_biginfo`, a line or a byte. -/
def post (s : State) : Option State :=
  match s.poster with
  | .idle => none
  | .built report block =>
      if s.pending then some { s with poster := .idle }
      else some { s with pending := true, poster := .copying block 0, wins := s.wins ++ [report] }
  | .copying block i =>
      match block[i]? with
      | some byte => some { s with params := s.params.set i byte, poster := .copying block (i + 1) }
      | none => some { s with len := block.length, poster := .stored }
  | .stored => some { s with submitted := true, poster := .idle }

/-- The lines of `big_work_fn` that neither send nor wait. -/
def work (s : State) : Option State :=
  match s.worker with
  | .idle => if s.submitted then some { s with submitted := false, worker := .took } else none
  | .took =>
      some { s with worker := if s.running then .reading s.len [] else .returned false }
  | .reading len bytes =>
      if bytes.length < len then
        (s.params[bytes.length]?).map fun byte =>
          { s with worker := .reading len (bytes ++ [byte]) }
      else none
  | .noted => some { s with pending := false, worker := .idle }
  | _ => none

/-- One step. -/
def step (s : State) : Label → Option State
  | .look report uptime => if s.poster = .idle then look s report uptime else none
  | .post => post s
  | .work => work s
  | .send =>
      match s.worker with
      | .reading len bytes =>
          if bytes.length < len then none
          else some { s with worker := .awaiting, sent := s.sent ++ [⟨s.wins.length - 1, bytes⟩] }
      | _ => none
  | .fail =>
      match s.worker with
      | .reading _ _ => some { s with worker := .returned false }
      | _ => none
  | .answer joined =>
      match s.worker with
      | .awaiting => some { s with worker := .returned joined }
      | _ => none
  | .note uptime =>
      match s.worker with
      | .returned true => some { s with synced := true, worker := .noted }
      | .returned false => some { s with retryAt := uptime + bigRetryMs, worker := .noted }
      | _ => none
  | .elsewhere running synced retryAt => some { s with running, synced, retryAt }

/-- The mailbox as a machine. -/
def machine : Machine State Label := ⟨step⟩

/-- A request waits for the work item, or is with it. -/
def State.Requested (s : State) : Prop := s.submitted = true ∨ s.worker ≠ .idle

/-! ## What a command carries -/

/-- The report, an event of the controller, is one of BIGInfo for a broadcast
that is not encrypted and has a stream, and the block asks to join it: its sync
handle, and one index for each stream, from 1, as far as there is room. -/
def Joins (report block : List UInt8) : Prop :=
  ∃ lo hi numBis,
    22 ≤ report.length ∧ report[0]? = some evtLeMeta ∧ report[2]? = some leBigInfoAdvReport ∧
    report[3]? = some lo ∧ report[4]? = some hi ∧ report[5]? = some numBis ∧
    report[21]? = some 0 ∧ 1 ≤ numBis.toNat ∧
    block = [0, lo, hi, 0] ++ List.replicate 16 0 ++
      [0, 0xC8, 0x00, UInt8.ofNat (min numBis.toNat maxBis)] ++
      (List.range (min numBis.toNat maxBis)).map fun i => UInt8.ofNat (i + 1)

/-- Twenty-four bytes and the indices. -/
theorem Joins.length {report block : List UInt8} (h : Joins report block) :
    ∃ numBis, report[5]? = some numBis ∧ block.length = 24 + min numBis.toNat maxBis := by
  obtain ⟨lo, hi, numBis, _, _, _, _, _, hnum, _, _, rfl⟩ := h
  refine ⟨numBis, hnum, ?_⟩
  simp only [List.length_append, List.length_cons, List.length_nil, List.length_replicate,
    List.length_map, List.length_range]

/-- It fits `big_params`. -/
theorem Joins.fits {report block : List UInt8} (h : Joins report block) :
    block.length ≤ 25 + maxBis := by
  obtain ⟨numBis, _, hlen⟩ := h.length
  rw [hlen]
  have hle := Nat.min_le_right numBis.toNat maxBis
  omega

/-- The byte of an event, behind the H4 byte of its copy. -/
theorem peekCopy_get {data : List UInt8} {i : Nat} (h : i < 31) :
    (peekCopy data)[i + 1]? = data[i]? := by
  unfold peekCopy
  rw [List.getElem?_cons_succ, List.getElem?_take]
  split
  · rfl
  · rw [List.getElem?_eq_none (by omega)]

theorem peekCopy_length (data : List UInt8) :
    (peekCopy data).length = min 32 (data.length + 1) := by
  unfold peekCopy
  rw [List.length_cons, List.length_take]
  omega

/-- The checks of `note_biginfo` read inside the copy, and pass only for a
report to be joined. -/
theorem joinBlock_spec (synced : Bool) (retryAt : Int) (report : List UInt8) (uptime : Int) :
    ∃ r, joinBlock synced retryAt (peekCopy report) uptime = some r ∧
      ∀ block ∈ r, Joins report block := by
  unfold joinBlock
  have hlen := peekCopy_length report
  by_cases hshort : (peekCopy report).length < 23
  · exact ⟨none, if_pos hshort, by simp⟩
  · have h22 : 22 ≤ report.length := by omega
    obtain ⟨code, hcode⟩ := getElem?_of_lt h22 (by omega : 0 < 22)
    obtain ⟨sub, hsub⟩ := getElem?_of_lt h22 (by omega : 2 < 22)
    obtain ⟨lo, hlo⟩ := getElem?_of_lt h22 (by omega : 3 < 22)
    obtain ⟨hi, hhi⟩ := getElem?_of_lt h22 (by omega : 4 < 22)
    obtain ⟨numBis, hnum⟩ := getElem?_of_lt h22 (by omega : 5 < 22)
    obtain ⟨enc, henc⟩ := getElem?_of_lt h22 (by omega : 21 < 22)
    simp only [if_neg hshort, peekCopy_get (by omega : 0 < 31), peekCopy_get (by omega : 2 < 31),
      peekCopy_get (by omega : 3 < 31), peekCopy_get (by omega : 4 < 31),
      peekCopy_get (by omega : 5 < 31), peekCopy_get (by omega : 21 < 31), hcode, hsub, hlo, hhi,
      hnum, henc, Option.bind_eq_bind, Option.bind_some]
    split
    · exact ⟨none, rfl, by simp⟩
    · rename_i hkind
      split
      · exact ⟨none, rfl, by simp⟩
      · split
        · exact ⟨none, rfl, by simp⟩
        · rename_i hjoin
          refine ⟨_, rfl, fun block hblock => ?_⟩
          cases hblock
          have hone : 1 ≤ numBis.toNat := by
            have hne : numBis ≠ 0 := fun hzero => hjoin (.inl hzero)
            have hne' : numBis.toNat ≠ 0 := fun hzero => hne (UInt8.toNat_inj.mp hzero)
            omega
          have hmeta : code = evtLeMeta := Decidable.byContradiction fun hne => hkind (.inl hne)
          have hbig : sub = leBigInfoAdvReport :=
            Decidable.byContradiction fun hne => hkind (.inr hne)
          have hopen : enc = 0 := Decidable.byContradiction fun hne => hjoin (.inr hne)
          subst hmeta hbig hopen
          refine ⟨lo, hi, numBis, h22, hcode, hsub, hlo, hhi, hnum, henc, hone, ?_⟩
          rw [bigCreateSyncParams, putLe16_getLe16]
          rfl

end Nrf54Sniffer.Ble.Mailbox
