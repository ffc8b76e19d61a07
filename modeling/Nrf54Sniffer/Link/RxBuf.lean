/-
Nrf54Sniffer.Link.RxBuf — `drain` and `reader` of `link.c` on the 512 bytes of
`rx_buf`.

Where `Reader` has the list of bytes pending, this has the array, `rx_len` and
the index `at`. A read of a byte that is not in the array, or that the UART has
not brought yet, answers `none`, as does a subtraction of sizes that would
wrap. `drain_refines` and `feed_refines` say that none of these happens, that the
loop ends, and that what is done is what the list model does.
-/
import Nrf54Sniffer.Lib.ByteBuffer
import Nrf54Sniffer.Link.ReaderTheorems

namespace Nrf54Sniffer.Link

open Nrf54Sniffer.Lib
open Nrf54Sniffer.Wire

/-! ## The code -/

/-- A call is for the frame the bytes start with. -/
theorem drainStep_call {W : WireFormat} {p : List UInt8} {n : Nat} {call : Call}
    (h : drainStep W p = some (n, some call)) :
    n = snHeaderLen + lenField p ∧ call = callOf p ∧ n ≤ p.length := by
  rcases drainStep_cases h with ⟨-, -, -, hnone⟩ | ⟨-, hall, rfl, hcall⟩
  · cases hnone
  · cases hcall
    exact ⟨rfl, rfl, hall⟩

/-- A call of the frame handler: the type, and the range of `rx_buf` it is given
while `received` bytes are in it. -/
structure Handled where
  type : UInt8
  off : Nat
  len : Nat
  received : Nat
  payload : List UInt8
  deriving DecidableEq, Repr

/-- The call as the list model has it. -/
def Handled.call (h : Handled) : Call := ⟨h.type, h.payload⟩

/-- The range is inside the bytes received, and the payload is its bytes. -/
structure Handled.InRange (h : Handled) : Prop where
  inside : h.off + h.len ≤ h.received
  buffer : h.received ≤ 512
  bounded : h.len ≤ 502
  bytes : h.payload.length = h.len

/-- `rx_buf`, `rx_len` and the handler calls so far. -/
structure RxBuf where
  buf : ByteBuffer rxBufSize := .zero _
  rxLen : Nat := 0
  handled : List Handled := []

namespace RxBuf

/-- `rx_buf[i]`, a byte received. -/
def get (s : RxBuf) (i : Nat) : Option UInt8 := if i < s.rxLen then s.buf.bytes[i]? else none

/-- The range of `n` bytes at `i`, all received. -/
def range (s : RxBuf) (i n : Nat) : Option (List UInt8) :=
  if i + n ≤ s.rxLen then s.buf.read i n else none

/-- The loop of `drain`, from the index `i`: the handler calls, and the index it
ends at. -/
def drainLoop (W : WireFormat) (s : RxBuf) : Nat → Nat → Option (List Handled × Nat)
  | 0, _ => none
  | fuel + 1, i =>
      if s.rxLen < i then none
      else if s.rxLen - i < snHeaderLen then some ([], i)
      else do
        let magic := getLe16 (← s.get i) (← s.get (i + 1))
        if magic ≠ W.magic then drainLoop W s fuel (i + 1)
        else
          let wantCrc := getLe16 (← s.get (i + 8)) (← s.get (i + 9))
          if W.crc16 (← s.range i 8) ≠ wantCrc then drainLoop W s fuel (i + 1)
          else
            let len := (getLe16 (← s.get (i + 6)) (← s.get (i + 7))).toNat
            if len > snMaxPayload then drainLoop W s fuel (i + 1)
            else if s.rxLen - i < snHeaderLen + len then some ([], i)
            else
              let type ← s.get (i + 2)
              let payload ← s.range (i + snHeaderLen) len
              let (calls, i') ← drainLoop W s fuel (i + (snHeaderLen + len))
              some (⟨type, i + snHeaderLen, len, s.rxLen, payload⟩ :: calls, i')

/-- `memmove(rx_buf, rx_buf + i, rx_len - i)`, and the new `rx_len`. -/
def moveDown (s : RxBuf) (i : Nat) : Option RxBuf :=
  if s.rxLen < i then none
  else do
    let tail ← s.buf.read i (s.rxLen - i)
    let buf ← s.buf.write 0 tail
    some { s with buf, rxLen := s.rxLen - i }

/-- `drain`. -/
def drain (W : WireFormat) (s : RxBuf) : Option RxBuf := do
  let (calls, i) ← drainLoop W s (s.rxLen + 1) 0
  let s := { s with handled := s.handled ++ calls }
  let s ← if i > 0 then s.moveDown i else some s
  if s.rxLen = rxBufSize then s.moveDown (rxBufSize - snHeaderLen) else some s

/-- One turn of `reader` with a chunk. -/
def feed (W : WireFormat) (s : RxBuf) (chunk : List UInt8) : Option RxBuf :=
  if rxBufSize < s.rxLen then none
  else do
    let room := rxBufSize - s.rxLen
    let take := if chunk.length < room then chunk.length else room
    let buf ← s.buf.write s.rxLen (chunk.take take)
    drain W { s with buf, rxLen := s.rxLen + take }

/-- All the turns. -/
def feedAll (W : WireFormat) (s : RxBuf) : List (List UInt8) → Option RxBuf
  | [] => some s
  | c :: cs => (s.feed W c).bind fun s => s.feedAll W cs

/-! ## The list model -/

/-- The bytes received and not consumed. -/
def rx (s : RxBuf) : List UInt8 := s.buf.bytes.take s.rxLen

/-- `rx_len` is a length of the array. -/
def Sound (s : RxBuf) : Prop := s.rxLen ≤ rxBufSize

theorem Sound.rx_length {s : RxBuf} (h : s.Sound) : s.rx.length = s.rxLen := by
  rw [rx, List.length_take, s.buf.size_eq]
  exact Nat.min_eq_left h

/-- The bytes from `i` on, as the loop sees them. -/
theorem get_eq (s : RxBuf) (i k : Nat) : s.get (i + k) = (s.rx.drop i)[k]? := by
  rw [get, rx, List.getElem?_drop, List.getElem?_take]

theorem get_of_lt {s : RxBuf} (h : s.Sound) {i k : Nat} (hk : i + k < s.rxLen) :
    s.get (i + k) = some ((s.rx.drop i).getD k 0) := by
  have hlen : k < (s.rx.drop i).length := by
    rw [List.length_drop, h.rx_length]
    omega
  rw [get_eq, List.getElem?_eq_getElem hlen, List.getD_eq_getElem?_getD,
    List.getElem?_eq_getElem hlen]
  rfl

theorem range_of_le {s : RxBuf} (h : s.Sound) {i n : Nat} (hn : i + n ≤ s.rxLen) :
    s.range i n = some ((s.rx.drop i).take n) := by
  have hcap : s.rxLen ≤ rxBufSize := h
  rw [range, if_pos hn, s.buf.read_eq_some i n (by omega), rx, List.drop_take, List.take_take,
    Nat.min_eq_left (by omega)]

/-- One turn of the loop is one step of the scanner. -/
theorem drainLoop_succ {W : WireFormat} {s : RxBuf} (h : s.Sound) {i : Nat} (hi : i ≤ s.rxLen)
    (fuel : Nat) :
    drainLoop W s (fuel + 1) i =
      match drainStep W (s.rx.drop i) with
      | none => some ([], i)
      | some (n, none) => drainLoop W s fuel (i + n)
      | some (n, some call) => (drainLoop W s fuel (i + n)).map fun (calls, i') =>
          (⟨call.type, i + snHeaderLen, n - snHeaderLen, s.rxLen, call.payload⟩ :: calls, i') := by
  have h10 : snHeaderLen = 10 := rfl
  have hlen : (s.rx.drop i).length = s.rxLen - i := by rw [List.length_drop, h.rx_length]
  rw [drainLoop, if_neg (by omega)]
  unfold drainStep
  rw [hlen]
  split
  · rfl
  · rename_i hten
    have hget : ∀ k, k < 10 → s.get (i + k) = some ((s.rx.drop i).getD k 0) :=
      fun k hk => get_of_lt h (by omega)
    have hfirst : s.get i = some ((s.rx.drop i).getD 0 0) := hget 0 (by omega)
    have hhead : s.range i 8 = some ((s.rx.drop i).take 8) := range_of_le h (by omega)
    simp only [hfirst, hget 1 (by omega), hget 2 (by omega), hget 6 (by omega), hget 7 (by omega),
      hget 8 (by omega), hget 9 (by omega), hhead, Option.bind_eq_bind, Option.bind_some]
    show (if u16At (s.rx.drop i) 0 ≠ W.magic then _ else
      if W.crc16 ((s.rx.drop i).take 8) ≠ u16At (s.rx.drop i) 8 then _ else
      if lenField (s.rx.drop i) > snMaxPayload then _ else
      if s.rxLen - i < snHeaderLen + lenField (s.rx.drop i) then _ else _) = _
    split
    · rfl
    · split
      · rfl
      · split
        · rfl
        · split
          · rfl
          · rename_i hall
            have hpayload : s.range (i + snHeaderLen) (lenField (s.rx.drop i))
                = some (((s.rx.drop i).drop snHeaderLen).take (lenField (s.rx.drop i))) := by
              rw [range_of_le h (by omega), List.drop_drop]
            show ((s.range (i + snHeaderLen) (lenField (s.rx.drop i))).bind fun payload =>
              (drainLoop W s fuel (i + (snHeaderLen + lenField (s.rx.drop i)))).bind _) = _
            rw [hpayload, Option.bind_some]
            dsimp only
            rw [Nat.add_sub_cancel_left]
            cases drainLoop W s fuel (i + (snHeaderLen + lenField (s.rx.drop i))) with
            | none => rfl
            | some r => rfl

/-- The loop ends within the bytes received, has done what a scan of them does,
and leaves what a scan leaves. -/
theorem drainLoop_run {W : WireFormat} {s : RxBuf} (h : s.Sound) {fuel i : Nat} (hi : i ≤ s.rxLen)
    (hfuel : s.rxLen - i < fuel) :
    ∃ calls i', drainLoop W s fuel i = some (calls, i') ∧ i' ≤ s.rxLen ∧
      calls.map Handled.call = ((drainScanner W).run (s.rx.drop i)).1 ∧
      s.rx.drop i' = ((drainScanner W).run (s.rx.drop i)).2 ∧ ∀ c ∈ calls, c.InRange := by
  induction fuel generalizing i with
  | zero => omega
  | succ fuel ih =>
      have hlen : (s.rx.drop i).length = s.rxLen - i := by rw [List.length_drop, h.rx_length]
      rw [drainLoop_succ h hi]
      cases hstep : drainStep W (s.rx.drop i) with
      | none =>
          rw [(drainScanner W).run_of_stop hstep]
          exact ⟨[], i, rfl, hi, rfl, rfl, by simp⟩
      | some r =>
          obtain ⟨n, out⟩ := r
          obtain ⟨hpos, hle⟩ := drainStep_pos hstep
          dsimp only at hpos hle
          obtain ⟨calls, i', hloop, hi', hcalls, hrest, hrange⟩ :=
            ih (i := i + n) (by omega) (by omega)
          rw [← List.drop_drop] at hcalls hrest
          rw [(drainScanner W).run_of_next hstep]
          cases out with
          | none => exact ⟨calls, i', hloop, hi', hcalls, hrest, hrange⟩
          | some call =>
              obtain ⟨rfl, rfl, hall⟩ := drainStep_call hstep
              refine ⟨_, i', by dsimp only; rw [hloop]; rfl, hi', ?_, hrest, ?_⟩
              · rw [List.map_cons, hcalls]
                rfl
              · intro c hc
                rcases List.mem_cons.mp hc with rfl | hc
                · have hcap : s.rxLen ≤ 512 := h
                  have h10 : snHeaderLen = 10 := rfl
                  rw [Nat.add_sub_cancel_left]
                  refine ⟨?_, hcap, ?_, ?_⟩
                  · show i + snHeaderLen + lenField (s.rx.drop i) ≤ s.rxLen
                    omega
                  · show lenField (s.rx.drop i) ≤ 502
                    omega
                  · show (((s.rx.drop i).drop snHeaderLen).take _).length = lenField (s.rx.drop i)
                    rw [List.length_take, List.length_drop]
                    omega
                · exact hrange c hc

/-- The array and the list model agree, and every call so far was in range. -/
structure Refines (s : RxBuf) (r : Reader) : Prop where
  sound : s.Sound
  rx : s.rx = r.rx
  calls : s.handled.map Handled.call = r.calls
  inRange : ∀ c ∈ s.handled, c.InRange

theorem refines_initial : Refines {} {} where
  sound := Nat.zero_le _
  rx := List.take_zero
  calls := rfl
  inRange := by simp

/-- A `memmove` to the front drops the bytes before. -/
theorem Refines.moveDown {s : RxBuf} {r : Reader} (h : Refines s r) {i : Nat} (hi : i ≤ s.rxLen) :
    ∃ s', s.moveDown i = some s' ∧ Refines s' ⟨r.rx.drop i, r.calls⟩ := by
  have hcap : s.rxLen ≤ rxBufSize := h.sound
  have htail : (s.buf.bytes.drop i).take (s.rxLen - i) = s.rx.drop i := by
    rw [RxBuf.rx, List.drop_take]
  have hlen : (s.rx.drop i).length = s.rxLen - i := by rw [List.length_drop, h.sound.rx_length]
  obtain ⟨buf, hwrite, hbytes⟩ := s.buf.write_take 0 (s.rx.drop i) (by omega)
  refine ⟨{ s with buf, rxLen := s.rxLen - i }, ?_, ?_, ?_, h.calls, h.inRange⟩
  · rw [RxBuf.moveDown, if_neg (by omega), s.buf.read_eq_some i _ (by omega), htail]
    simp only [Option.bind_eq_bind, Option.bind_some, hwrite]
  · show s.rxLen - i ≤ rxBufSize
    omega
  · rw [Nat.zero_add, List.take_zero, List.nil_append, hlen] at hbytes
    rw [← h.rx, ← hbytes]
    rfl

/-- **`drain`** stays inside the array, and does what the list model does. -/
theorem drain_refines (W : WireFormat) {s : RxBuf} {r : Reader} (h : Refines s r) :
    ∃ s', s.drain W = some s' ∧
      Refines s' ⟨(Link.drain W r.rx).2, r.calls ++ (Link.drain W r.rx).1⟩ := by
  obtain ⟨calls, i, hloop, hi, hcalls, hrest, hrange⟩ :=
    drainLoop_run (W := W) h.sound (Nat.zero_le _) (by omega : s.rxLen - 0 < s.rxLen + 1)
  rw [List.drop_zero, h.rx] at hcalls hrest
  unfold Link.drain
  cases hrun : (drainScanner W).run r.rx with
  | mk out left =>
      rw [hrun] at hcalls hrest
      dsimp only at hcalls hrest ⊢
      have hcalled : Refines { s with handled := s.handled ++ calls } ⟨r.rx, r.calls ++ out⟩ := by
        refine ⟨h.sound, h.rx, ?_, ?_⟩
        · rw [List.map_append, h.calls, hcalls]
        · intro c hc
          rcases List.mem_append.mp hc with hc | hc
          · exact h.inRange c hc
          · exact hrange c hc
      obtain ⟨s₁, hmove, hs₁⟩ : ∃ s₁, (if i > 0 then
          RxBuf.moveDown { s with handled := s.handled ++ calls } i
          else some { s with handled := s.handled ++ calls }) = some s₁ ∧
          Refines s₁ ⟨left, r.calls ++ out⟩ := by
        split
        · obtain ⟨s₁, hmove, hs₁⟩ := hcalled.moveDown hi
          exact ⟨s₁, hmove, hrest ▸ hs₁⟩
        · rename_i hzero
          have hleft : r.rx = left := by
            rw [← hrest, Nat.eq_zero_of_not_pos hzero]
            rfl
          exact ⟨_, rfl, hleft ▸ hcalled⟩
      have hlen : s₁.rxLen = left.length := by rw [← hs₁.sound.rx_length, hs₁.rx]
      have hdrain : s.drain W = if s₁.rxLen = rxBufSize then
          s₁.moveDown (rxBufSize - snHeaderLen) else some s₁ := by
        unfold drain
        rw [hloop]
        simp only [Option.bind_eq_bind, Option.bind_some]
        split at hmove
        · rename_i hpos
          rw [if_pos hpos, hmove]
          rfl
        · rename_i hzero
          rw [if_neg hzero]
          cases hmove
          rfl
      rw [hdrain, hlen]
      split
      · rename_i hfull
        exact hs₁.moveDown (by rw [hlen, hfull]; decide)
      · exact ⟨s₁, rfl, hs₁⟩

/-- One turn of `reader`. -/
theorem feed_refines (W : WireFormat) {s : RxBuf} {r : Reader} (h : Refines s r)
    (chunk : List UInt8) : ∃ s', s.feed W chunk = some s' ∧ Refines s' (r.feed W chunk) := by
  have hcap : s.rxLen ≤ rxBufSize := h.sound
  have hrx : r.rx.length = s.rxLen := by rw [← h.rx, h.sound.rx_length]
  have htake : (if chunk.length < rxBufSize - s.rxLen then chunk.length
      else rxBufSize - s.rxLen) = min chunk.length (rxBufSize - r.rx.length) := by
    rw [hrx]
    split
    · omega
    · omega
  have hlen : (chunk.take (min chunk.length (rxBufSize - r.rx.length))).length
      = min chunk.length (rxBufSize - r.rx.length) := by
    rw [List.length_take]
    omega
  obtain ⟨buf, hwrite, hbytes⟩ := s.buf.write_take s.rxLen
    (chunk.take (min chunk.length (rxBufSize - r.rx.length))) (by omega)
  have happended : Refines
      { s with buf, rxLen := s.rxLen + min chunk.length (rxBufSize - r.rx.length) }
      ⟨r.rx ++ chunk.take (min chunk.length (rxBufSize - r.rx.length)), r.calls⟩ := by
    refine ⟨?_, ?_, h.calls, h.inRange⟩
    · show s.rxLen + _ ≤ rxBufSize
      omega
    · rw [hlen] at hbytes
      exact hbytes.trans (congrArg (· ++ _) h.rx)
  obtain ⟨s', hdrain, hs'⟩ := drain_refines W happended
  refine ⟨s', ?_, hs'⟩
  rw [feed, if_neg (by omega)]
  simp only [htake, hwrite, Option.bind_eq_bind, Option.bind_some]
  exact hdrain

/-- All the turns. -/
theorem feedAll_refines (W : WireFormat) {s : RxBuf} {r : Reader} (h : Refines s r)
    (chunks : List (List UInt8)) :
    ∃ s', s.feedAll W chunks = some s' ∧ Refines s' (r.feedAll W chunks) := by
  induction chunks generalizing s r with
  | nil => exact ⟨s, rfl, h⟩
  | cons c cs ih =>
      obtain ⟨s₁, hfeed, hs₁⟩ := feed_refines W h c
      obtain ⟨s', hall, hs'⟩ := ih hs₁
      refine ⟨s', ?_, hs'⟩
      rw [feedAll, hfeed, Option.bind_some, hall]

end RxBuf

end Nrf54Sniffer.Link
