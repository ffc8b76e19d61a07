/-
Nrf54Sniffer.Link.RxPath — the receive path of `link.c`: the two DMA buffers,
the ring behind them, and the reader thread.

`uartCbRx` is `uart_cb_rx`. The driver under it is Zephyr's, taken by its
documented order of events: a buffer is reported piece by piece with RX_RDY, a
full one to its end and then released, and only then is another asked for;
after an error what came before it is reported, and then RX_DISABLED. The DMA
meanwhile goes straight on into the buffer it was given, without waiting for
the report of the last one, so a buffer handed over too early would be written
over unread.

`Sound` ties `rx_dma_next` to where the DMA is, and what is in the two buffers
to the bytes received.
-/
import Nrf54Sniffer.Lib.ByteBuffer
import Nrf54Sniffer.Lib.ClaimRing
import Nrf54Sniffer.Lib.Machine
import Nrf54Sniffer.Link.Reference

namespace Nrf54Sniffer.Link.RxPath

open Nrf54Sniffer.Lib
open Nrf54Sniffer.Wire

/-! ## The callback -/

/-- `sizeof(rx_dma[0])`. -/
def rxDmaSize : Nat := 512

def rxRingSize : Nat := 1024

/-- `rx_dma`, `rx_dma_next` and `rx_ring`. The buffer `rx_dma[0]` is `false`. -/
structure Rx where
  rxDma : Bool → ByteBuffer rxDmaSize := fun _ => .zero _
  rxDmaNext : Bool := true
  rxRing : ClaimRing UInt8 rxRingSize := .empty

/-- The events of the asynchronous UART API. -/
inductive UartEvent where
  | txDone
  | txAborted
  | rxRdy (buf : Bool) (offset len : Nat)
  | rxBufRequest
  | rxBufReleased (buf : Bool)
  | rxStopped
  | rxDisabled
  deriving DecidableEq, Repr

/-- `uart_cb`, receiving: the ring takes what fits. `none` is a read past the
end of a buffer. -/
def uartCb (s : Rx) : UartEvent → Option Rx
  | .rxRdy buf offset len =>
      ((s.rxDma buf).read offset len).map fun bytes => { s with rxRing := s.rxRing.put bytes }
  | _ => some s

/-- What the callback asks of the driver. -/
inductive DriverCall where
  | uartRxBufRsp (buf : Bool)
  | uartRxEnable (buf : Bool)
  deriving DecidableEq, Repr

/-- `uart_cb_rx`. -/
def uartCbRx (s : Rx) (e : UartEvent) : Option (Rx × Option DriverCall) :=
  (uartCb s e).map fun s =>
    match e with
    | .rxBufRequest => ({ s with rxDmaNext := !s.rxDmaNext }, some (.uartRxBufRsp s.rxDmaNext))
    | .rxDisabled => ({ s with rxDmaNext := true }, some (.uartRxEnable false))
    | _ => (s, none)

/-! ## The driver -/

/-- The buffer being filled and how far, the one to go on with, a full one that
is not released, how much of the older of the two is reported, and whether an
error has stopped the receiver. -/
structure Driver where
  cur : Bool := false
  pos : Nat := 0
  next : Option Bool := none
  full : Option Bool := none
  reported : Nat := 0
  stopped : Bool := false
  deriving DecidableEq, Repr

/-- The receiver is on and has room. -/
def Driver.listens (d : Driver) : Bool := !d.stopped && d.pos < rxDmaSize

/-- After one more byte: a full buffer is left for the next, if there is one. -/
def Driver.advance (d : Driver) : Driver :=
  if d.pos + 1 = rxDmaSize then
    match d.next with
    | some j => { d with cur := j, pos := 0, next := none, full := some d.cur }
    | none => { d with pos := d.pos + 1 }
  else { d with pos := d.pos + 1 }

/-- Which buffer is to be reported, and up to where. -/
def Driver.report (d : Driver) : Bool × Nat :=
  match d.full with
  | some f => (f, rxDmaSize)
  | none => (d.cur, d.pos)

/-- What a call of the callback does. -/
def Driver.take (d : Driver) : Option DriverCall → Driver
  | some (.uartRxBufRsp buf) => { d with next := some buf }
  | some (.uartRxEnable buf) => { cur := buf }
  | none => d

/-! ## The machine -/

/-- The callback's state and the driver's, the bytes received, those reported,
how many the ring had no room for, and the chunks the reader got. -/
structure State where
  rx : Rx := {}
  driver : Driver := {}
  received : List UInt8 := []
  handed : List UInt8 := []
  lost : Nat := 0
  got : List (List UInt8) := []

inductive Label where
  | arrive (b : UInt8)
  | rdy (n : Nat)
  | released
  | request
  | error
  | disabled
  | get (n : Nat)
  deriving DecidableEq, Repr

/-- One of the two buffers written. -/
def setDma (rxDma : Bool → ByteBuffer rxDmaSize) (b : Bool) (buf : ByteBuffer rxDmaSize) :
    Bool → ByteBuffer rxDmaSize := fun i => if i = b then buf else rxDma i

/-- The driver raises an event. -/
def State.raise (s : State) (e : UartEvent) (d : Driver) : Option State :=
  (uartCbRx s.rx e).map fun r => { s with rx := r.1, driver := d.take r.2 }

/-- The DMA writes a byte. -/
def State.write (s : State) (b : UInt8) : Option State :=
  ((s.rx.rxDma s.driver.cur).write s.driver.pos [b]).map fun buf =>
    { s with
      rx := { s.rx with rxDma := setDma s.rx.rxDma s.driver.cur buf }
      driver := s.driver.advance
      received := s.received ++ [b] }

/-- `ring_buf_get`. -/
def ringBufGet (r : ClaimRing UInt8 rxRingSize) (n : Nat) : ClaimRing UInt8 rxRingSize :=
  (r.claim n).finish n

/-- One step. -/
def step (s : State) : Label → Option State
  | .arrive b => if s.driver.listens then s.write b else none
  | .rdy n =>
      let (buf, stop) := s.driver.report
      if 0 < n ∧ s.driver.reported + n ≤ stop then
        let bytes := ((s.rx.rxDma buf).read s.driver.reported n).getD []
        { s with
          handed := s.handed ++ bytes
          lost := s.lost + (bytes.length - s.rx.rxRing.space) }.raise
          (.rxRdy buf s.driver.reported n) { s.driver with reported := s.driver.reported + n }
      else none
  | .released =>
      match s.driver.full with
      | some f =>
          if s.driver.reported = rxDmaSize then
            s.raise (.rxBufReleased f) { s.driver with full := none, reported := 0 }
          else none
      | none => none
  | .request =>
      if s.driver.listens ∧ s.driver.next = none ∧ s.driver.full = none then
        s.raise .rxBufRequest s.driver
      else none
  | .error => s.raise .rxStopped { s.driver with stopped := true }
  | .disabled =>
      if s.driver.listens = false ∧ s.driver.full = none ∧ s.driver.reported = s.driver.pos then
        s.raise .rxDisabled s.driver
      else none
  | .get n =>
      if 0 < n ∧ n ≤ readerChunk ∧ n ≤ s.rx.rxRing.size then
        some { s with
          rx := { s.rx with rxRing := ringBufGet s.rx.rxRing n }
          got := s.got ++ [s.rx.rxRing.queued.take n] }
      else none

/-- The receive path, from `sn_link_init` on. -/
def machine : Machine State Label := ⟨step⟩

/-! ## The buffers -/

/-- The bytes received that no RX_RDY has reported, as they stand in memory. -/
def State.unreported (s : State) : List UInt8 :=
  match s.driver.full with
  | some f => (s.rx.rxDma f).bytes.drop s.driver.reported
      ++ (s.rx.rxDma s.driver.cur).bytes.take s.driver.pos
  | none => ((s.rx.rxDma s.driver.cur).bytes.take s.driver.pos).drop s.driver.reported

/-- `rx_dma_next` is never the buffer being filled, and what stands unreported
in memory is what was received. -/
structure Sound (s : State) : Prop where
  next : ∀ j, s.driver.next = some j →
    j = !s.driver.cur ∧ s.driver.full = none ∧ s.rx.rxDmaNext = s.driver.cur
  free : s.driver.next = none → s.rx.rxDmaNext = !s.driver.cur
  full : ∀ f, s.driver.full = some f → f = !s.driver.cur
  pos : s.driver.pos ≤ rxDmaSize
  reported : s.driver.reported ≤ s.driver.report.2
  bytes : s.handed ++ s.unreported = s.received

theorem sound_initial : Sound {} where
  next := by simp
  free := fun _ => rfl
  full := by simp
  pos := Nat.zero_le _
  reported := Nat.zero_le _
  bytes := rfl

theorem setDma_same (rxDma : Bool → ByteBuffer rxDmaSize) (b : Bool) (buf : ByteBuffer rxDmaSize) :
    setDma rxDma b buf b = buf := if_pos rfl

theorem setDma_other (rxDma : Bool → ByteBuffer rxDmaSize) (b : Bool)
    (buf : ByteBuffer rxDmaSize) : setDma rxDma b buf (!b) = rxDma (!b) :=
  if_neg (by cases b <;> decide)

/-- A byte goes behind those not reported, in its own buffer. -/
theorem write_unreported {s t : State} {b : UInt8} (h : Sound s)
    (hlistens : s.driver.listens = true) (hstep : s.write b = some t) :
    t.unreported = s.unreported ++ [b] := by
  simp only [Driver.listens, Bool.and_eq_true, decide_eq_true_eq] at hlistens
  obtain ⟨buf, hw, rfl⟩ := Option.map_eq_some_iff.mp hstep
  obtain ⟨buf', hw', htake⟩ := (s.rx.rxDma s.driver.cur).write_take s.driver.pos [b] hlistens.2
  rw [hw] at hw'
  cases hw'
  have hsize := (s.rx.rxDma s.driver.cur).size_eq
  have hlen : ((s.rx.rxDma s.driver.cur).bytes.take s.driver.pos).length = s.driver.pos := by
    rw [List.length_take]
    omega
  have hreported := h.reported
  have hnew : (setDma s.rx.rxDma s.driver.cur buf s.driver.cur) = buf := setDma_same _ _ _
  cases hfull : s.driver.full with
  | some f =>
      -- the full buffer is the other one
      have hf := h.full f hfull
      have hold : setDma s.rx.rxDma s.driver.cur buf f = s.rx.rxDma f := by
        rw [hf]
        exact setDma_other _ _ _
      have hnone : s.driver.next = none := by
        cases hnext : s.driver.next with
        | none => rfl
        | some j =>
            have := (h.next j hnext).2.1
            rw [hfull] at this
            cases this
      have hadvance : s.driver.advance = { s.driver with pos := s.driver.pos + 1 } := by
        simp [Driver.advance, hnone]
      simp only [State.unreported, hadvance, hfull]
      show (setDma s.rx.rxDma s.driver.cur buf f).bytes.drop s.driver.reported
        ++ (setDma s.rx.rxDma s.driver.cur buf s.driver.cur).bytes.take (s.driver.pos + 1) = _
      rw [hold, hnew, List.append_assoc, ← htake]
      rfl
  | none =>
      have hwithin : s.driver.reported ≤ s.driver.pos := by
        simpa [Driver.report, hfull] using hreported
      have hrest : (buf.bytes.take (s.driver.pos + 1)).drop s.driver.reported
          = ((s.rx.rxDma s.driver.cur).bytes.take s.driver.pos).drop s.driver.reported ++ [b] := by
        have htake' : buf.bytes.take (s.driver.pos + 1) = _ := htake
        rw [htake', List.drop_append_of_le_length (by omega)]
      by_cases hlast : s.driver.pos + 1 = rxDmaSize
      · cases hnext : s.driver.next with
        | none =>
            have hadvance : s.driver.advance = { s.driver with pos := s.driver.pos + 1 } := by
              simp [Driver.advance, hnext]
            simp only [State.unreported, hadvance, hfull]
            show ((setDma s.rx.rxDma s.driver.cur buf s.driver.cur).bytes.take
              (s.driver.pos + 1)).drop s.driver.reported = _
            rw [hnew, hrest]
        | some j =>
            -- all of the buffer is left to be reported, and nothing is in the next
            have hadvance : s.driver.advance
                = { s.driver with cur := j, pos := 0, next := none, full := some s.driver.cur } := by
              simp [Driver.advance, hnext, hlast]
            simp only [State.unreported, hadvance, hfull, List.take_zero, List.append_nil]
            show (setDma s.rx.rxDma s.driver.cur buf s.driver.cur).bytes.drop s.driver.reported = _
            have hwhole : buf.bytes.take (s.driver.pos + 1) = buf.bytes :=
              List.take_of_length_le (by rw [buf.size_eq]; omega)
            rw [hnew, ← hrest, hwhole]
      · have hadvance : s.driver.advance = { s.driver with pos := s.driver.pos + 1 } := by
          simp [Driver.advance, hlast]
        simp only [State.unreported, hadvance, hfull]
        show ((setDma s.rx.rxDma s.driver.cur buf s.driver.cur).bytes.take
          (s.driver.pos + 1)).drop s.driver.reported = _
        rw [hnew, hrest]

theorem write_sound {s t : State} {b : UInt8} (h : Sound s) (hlistens : s.driver.listens = true)
    (hstep : s.write b = some t) : Sound t := by
  have hunreported := write_unreported h hlistens hstep
  obtain ⟨hnext, hfree, hfull, hpos, hreported, hbytes⟩ := h
  simp only [Driver.listens, Bool.and_eq_true, decide_eq_true_eq] at hlistens
  obtain ⟨buf, hw, rfl⟩ := Option.map_eq_some_iff.mp hstep
  have hlater : s.handed ++ (s.unreported ++ [b]) = s.received ++ [b] := by
    rw [← List.append_assoc, hbytes]
  rw [← hunreported] at hlater
  by_cases hswitch : s.driver.pos + 1 = rxDmaSize ∧ s.driver.next ≠ none
  · obtain ⟨hlast, hsome⟩ := hswitch
    obtain ⟨j, hj⟩ := Option.ne_none_iff_exists'.mp hsome
    obtain ⟨rfl, hnone, hheld⟩ := hnext j hj
    have hadvance : s.driver.advance = { s.driver with
        cur := !s.driver.cur, pos := 0, next := none, full := some s.driver.cur } := by
      simp [Driver.advance, hj, hlast]
    refine ⟨?_, ?_, ?_, ?_, ?_, hlater⟩
    · simp [hadvance]
    · intro _
      simp [hadvance, hheld]
    · intro f hf
      simp only [hadvance, Option.some.injEq] at hf
      simp [hadvance, hf]
    · simp [hadvance]
    · simp only [hadvance, Driver.report]
      simp only [Driver.report, hnone] at hreported
      omega
  · have hadvance : s.driver.advance = { s.driver with pos := s.driver.pos + 1 } := by
      unfold Driver.advance
      split
      · rename_i hlast
        split
        · rename_i j hj
          exact absurd ⟨hlast, by simp [hj]⟩ hswitch
        · rfl
      · rfl
    refine ⟨?_, ?_, ?_, ?_, ?_, hlater⟩
    · simpa [hadvance] using hnext
    · simpa [hadvance] using hfree
    · simpa [hadvance] using hfull
    · rw [hadvance]
      exact hlistens.2
    · simp only [hadvance, Driver.report] at hreported ⊢
      split at hreported <;> omega

/-- A report of what is there stays inside the buffer and reads the bytes
received next. -/
theorem report_read {s : State} {n : Nat} (h : Sound s)
    (hn : s.driver.reported + n ≤ s.driver.report.2) :
    (s.rx.rxDma s.driver.report.1).read s.driver.reported n = some (s.unreported.take n) := by
  have hpos := h.pos
  unfold State.unreported
  cases hfull : s.driver.full with
  | some f =>
      simp only [Driver.report, hfull] at hn ⊢
      have hsize := (s.rx.rxDma f).size_eq
      rw [ByteBuffer.read_eq_some _ _ _ hn, List.take_append_of_le_length]
      rw [List.length_drop]
      omega
  | none =>
      simp only [Driver.report, hfull] at hn ⊢
      rw [ByteBuffer.read_eq_some _ _ _ (by omega), List.drop_take, List.take_take,
        Nat.min_eq_left (by omega)]

/-- What is left once `n` more bytes are reported. -/
theorem unreported_drop {s : State} {n : Nat} (h : Sound s)
    (hn : s.driver.reported + n ≤ s.driver.report.2) (rx : Rx) (handed : List UInt8) (lost : Nat)
    (hdma : rx.rxDma = s.rx.rxDma) :
    State.unreported { s with
        rx, handed, lost, driver := { s.driver with reported := s.driver.reported + n } }
      = s.unreported.drop n := by
  have hpos := h.pos
  unfold State.unreported
  cases hfull : s.driver.full with
  | some f =>
      simp only [Driver.report, hfull] at hn
      simp only [hdma]
      have hsize := (s.rx.rxDma f).size_eq
      rw [List.drop_append_of_le_length, List.drop_drop]
      rw [List.length_drop]
      omega
  | none =>
      simp only [hdma]
      rw [List.drop_drop]

/-! ## What a step does -/

/-- The steps, each with what it was taken on. -/
inductive Takes (s : State) : Label → State → Prop
  | arrive {b : UInt8} {t : State} (hlistens : s.driver.listens = true) (hw : s.write b = some t) :
      Takes s (.arrive b) t
  | rdy {n : Nat} {bytes : List UInt8} (hpos : 0 < n)
      (hn : s.driver.reported + n ≤ s.driver.report.2)
      (hread : (s.rx.rxDma s.driver.report.1).read s.driver.reported n = some bytes) :
      Takes s (.rdy n) { s with
        rx := { s.rx with rxRing := s.rx.rxRing.put bytes }
        driver := { s.driver with reported := s.driver.reported + n }
        handed := s.handed ++ bytes
        lost := s.lost + (bytes.length - s.rx.rxRing.space) }
  | released {f : Bool} (hfull : s.driver.full = some f) (hall : s.driver.reported = rxDmaSize) :
      Takes s .released { s with driver := { s.driver with full := none, reported := 0 } }
  | request (hlistens : s.driver.listens = true) (hnext : s.driver.next = none)
      (hfull : s.driver.full = none) :
      Takes s .request { s with
        rx := { s.rx with rxDmaNext := !s.rx.rxDmaNext }
        driver := { s.driver with next := some s.rx.rxDmaNext } }
  | error : Takes s .error { s with driver := { s.driver with stopped := true } }
  | disabled (hdeaf : s.driver.listens = false) (hfull : s.driver.full = none)
      (hall : s.driver.reported = s.driver.pos) :
      Takes s .disabled { s with rx := { s.rx with rxDmaNext := true }, driver := {} }
  | get {n : Nat} (hpos : 0 < n) (hchunk : n ≤ readerChunk) (hn : n ≤ s.rx.rxRing.size) :
      Takes s (.get n) { s with
        rx := { s.rx with rxRing := ringBufGet s.rx.rxRing n }
        got := s.got ++ [s.rx.rxRing.queued.take n] }

theorem step_takes {s t : State} {l : Label} (h : step s l = some t) : Takes s l t := by
  cases l with
  | arrive b =>
      obtain ⟨hlistens, hw⟩ := Option.ite_none_right_eq_some.mp h
      exact .arrive hlistens hw
  | rdy n =>
      obtain ⟨⟨hpos, hn⟩, hr⟩ := Option.ite_none_right_eq_some.mp h
      obtain ⟨r, hcb, rfl⟩ := Option.map_eq_some_iff.mp hr
      obtain ⟨rx, hput, rfl⟩ := Option.map_eq_some_iff.mp hcb
      obtain ⟨bytes, hread, rfl⟩ := Option.map_eq_some_iff.mp hput
      have htaken := Takes.rdy hpos hn hread
      simp only [hread, Option.getD_some]
      exact htaken
  | released =>
      simp only [step] at h
      split at h
      · rename_i f hfull
        obtain ⟨hall, heq⟩ := Option.ite_none_right_eq_some.mp h
        cases heq
        exact .released hfull hall
      · cases h
  | request =>
      obtain ⟨⟨hlistens, hnext, hfull⟩, heq⟩ := Option.ite_none_right_eq_some.mp h
      cases heq
      exact .request hlistens hnext hfull
  | error =>
      cases h
      exact .error
  | disabled =>
      obtain ⟨⟨hdeaf, hfull, hall⟩, heq⟩ := Option.ite_none_right_eq_some.mp h
      cases heq
      exact .disabled hdeaf hfull hall
  | get n =>
      obtain ⟨⟨hpos, hchunk, hn⟩, heq⟩ := Option.ite_none_right_eq_some.mp h
      cases heq
      exact .get hpos hchunk hn

/-- **One step keeps the two buffers in order.** -/
theorem step_sound (s : State) (l : Label) (t : State) (h : Sound s) (hstep : step s l = some t) :
    Sound t := by
  cases step_takes hstep with
  | arrive hlistens hw => exact write_sound h hlistens hw
  | @rdy n bytes hpos hn hread =>
      have hbytes : bytes = s.unreported.take n := by
        rw [report_read h hn] at hread
        exact (Option.some.inj hread).symm
      refine ⟨h.next, h.free, h.full, h.pos, hn, ?_⟩
      rw [unreported_drop h hn { s.rx with rxRing := s.rx.rxRing.put bytes } _ _ rfl]
      show s.handed ++ bytes ++ s.unreported.drop n = s.received
      rw [hbytes, List.append_assoc, List.take_append_drop, h.bytes]
  | @released f hfull hall =>
      refine ⟨?_, h.free, by simp, h.pos, Nat.zero_le _, ?_⟩
      · intro j hj
        obtain ⟨hother, hnone, _⟩ := h.next j hj
        rw [hfull] at hnone
        cases hnone
      · have hbytes := h.bytes
        have hsize := (s.rx.rxDma f).size_eq
        simp only [State.unreported, hfull, hall] at hbytes
        rw [List.drop_eq_nil_of_le (by omega), List.nil_append] at hbytes
        simpa only [State.unreported, List.drop_zero] using hbytes
  | request hlistens hnext hfull =>
      have hother := h.free hnext
      refine ⟨?_, by simp, h.full, h.pos, h.reported, h.bytes⟩
      intro j hj
      simp only [Option.some.injEq] at hj
      subst hj
      exact ⟨hother, hfull, by simp [hother]⟩
  | error => exact ⟨h.next, h.free, h.full, h.pos, h.reported, h.bytes⟩
  | disabled hdeaf hfull hall =>
      refine ⟨by simp, fun _ => rfl, by simp, Nat.zero_le _, Nat.zero_le _, ?_⟩
      have hbytes := h.bytes
      simp only [State.unreported, hfull, hall] at hbytes
      rw [List.drop_eq_nil_of_le (List.length_take_le _ _)] at hbytes
      simpa [State.unreported] using hbytes
  | get _ _ _ => exact ⟨h.next, h.free, h.full, h.pos, h.reported, h.bytes⟩

/-! ## The ring -/

/-- What the reader got and what is still in the ring came in order, and what
is missing is counted. -/
structure Queued (s : State) : Prop where
  claimed : s.rx.rxRing.claimed = []
  order : (s.got.flatten ++ s.rx.rxRing.queued).Sublist s.handed
  counted : (s.got.flatten ++ s.rx.rxRing.queued).length + s.lost = s.handed.length
  chunks : ReaderChunks s.got

theorem queued_initial : Queued {} where
  claimed := rfl
  order := .slnil
  counted := rfl
  chunks := by simp [ReaderChunks]

theorem step_queued (s : State) (l : Label) (t : State) (h : Queued s) (hstep : step s l = some t) :
    Queued t := by
  cases step_takes hstep with
  | arrive hlistens hw =>
      obtain ⟨buf, _, rfl⟩ := Option.map_eq_some_iff.mp hw
      exact ⟨h.claimed, h.order, h.counted, h.chunks⟩
  | @rdy n bytes hpos hn hread =>
      have hcounted := h.counted
      refine ⟨h.claimed, ?_, ?_, h.chunks⟩
      · show (s.got.flatten ++ (s.rx.rxRing.queued ++ bytes.take s.rx.rxRing.space)).Sublist
          (s.handed ++ bytes)
        rw [← List.append_assoc]
        exact h.order.append (List.take_sublist _ _)
      · simp only [ClaimRing.put, List.length_append, List.length_take] at hcounted ⊢
        omega
  | released _ _ => exact ⟨h.claimed, h.order, h.counted, h.chunks⟩
  | request _ _ _ => exact ⟨h.claimed, h.order, h.counted, h.chunks⟩
  | error => exact ⟨h.claimed, h.order, h.counted, h.chunks⟩
  | disabled _ _ _ => exact ⟨h.claimed, h.order, h.counted, h.chunks⟩
  | @get n hpos hchunk hn =>
      have hring : (ringBufGet s.rx.rxRing n).queued = s.rx.rxRing.queued.drop n := by
        have hclaimed : (s.rx.rxRing.claimed ++ s.rx.rxRing.queued.take n).length = n := by
          rw [h.claimed, List.nil_append, List.length_take]
          simp only [ClaimRing.size] at hn
          omega
        show (s.rx.rxRing.claimed ++ s.rx.rxRing.queued.take n).drop n
          ++ s.rx.rxRing.queued.drop n = _
        rw [List.drop_eq_nil_of_le (by omega), List.nil_append]
      have hsame : (s.got ++ [s.rx.rxRing.queued.take n]).flatten
          ++ (ringBufGet s.rx.rxRing n).queued = s.got.flatten ++ s.rx.rxRing.queued := by
        simp [hring]
      refine ⟨rfl, by rw [hsame]; exact h.order, by rw [hsame]; exact h.counted, ?_⟩
      intro c hc
      rcases List.mem_append.mp hc with hc | hc
      · exact h.chunks c hc
      · rw [List.mem_singleton.mp hc, List.length_take]
        simp only [ClaimRing.size] at hn
        omega

/-! ## Receiving does not end -/

/-- The driver finishing with what it has: no byte comes, no error. -/
def finishing : Label → Bool
  | .rdy _ | .released | .disabled => true
  | _ => false

/-- What is there can be reported. -/
theorem rdy_enabled {s : State} {n : Nat} (h : Sound s) (hpos : 0 < n)
    (hn : s.driver.reported + n ≤ s.driver.report.2) :
    ∃ t, step s (.rdy n) = some t ∧ t.received = s.received ∧
      t.driver = { s.driver with reported := s.driver.reported + n } := by
  cases hstep : step s (.rdy n) with
  | none =>
      simp [step, hpos, hn, State.raise, uartCbRx, uartCb, report_read h hn] at hstep
  | some t =>
      cases step_takes hstep with
      | rdy _ _ _ => exact ⟨_, rfl, rfl, rfl⟩

/-- A receiver that stopped is on again, once the driver has reported what came
before. -/
def Recovers (s : State) : Prop :=
  ∃ ls t, (∀ l ∈ ls, finishing l = true) ∧ machine.run s ls = some t ∧
    t.driver.listens = true ∧ t.received = s.received

theorem Recovers.cons {s t : State} {l : Label} (hl : finishing l = true)
    (hstep : step s l = some t) (hsame : t.received = s.received) (h : Recovers t) :
    Recovers s := by
  obtain ⟨ls, u, hls, hrun, hlistens, hreceived⟩ := h
  refine ⟨l :: ls, u, ?_, machine.run_cons_eq_some.mpr ⟨t, hstep, hrun⟩, hlistens,
    hreceived.trans hsame⟩
  intro l' hl'
  rcases List.mem_cons.mp hl' with rfl | hl'
  · exact hl
  · exact hls l' hl'

/-- `RX_DISABLED`: the callback switches the receiver on. -/
theorem recovers_disabled {s : State} (hdeaf : s.driver.listens = false)
    (hfull : s.driver.full = none) (hall : s.driver.reported = s.driver.pos) : Recovers s := by
  have hstep : step s .disabled
      = some { s with rx := { s.rx with rxDmaNext := true }, driver := {} } :=
    if_pos ⟨hdeaf, hfull, hall⟩
  exact .cons rfl hstep rfl ⟨[], _, by simp, rfl, rfl, rfl⟩

theorem recovers_last {s : State} (h : Sound s) (hfull : s.driver.full = none) : Recovers s := by
  cases hlistens : s.driver.listens with
  | true => exact ⟨[], s, by simp, rfl, hlistens, rfl⟩
  | false =>
      have hreported := h.reported
      by_cases hall : s.driver.reported = s.driver.pos
      · exact recovers_disabled hlistens hfull hall
      · simp only [Driver.report, hfull] at hreported
        obtain ⟨t, hstep, hreceived, hdriver⟩ := rdy_enabled h
          (n := s.driver.pos - s.driver.reported) (by omega)
          (by simp only [Driver.report, hfull]; omega)
        refine .cons rfl hstep hreceived (recovers_disabled ?_ ?_ ?_)
        · rw [hdriver]
          exact hlistens
        · rw [hdriver]
          exact hfull
        · rw [hdriver]
          show s.driver.reported + (s.driver.pos - s.driver.reported) = s.driver.pos
          omega

theorem recovers_full {s : State} (h : Sound s) {f : Bool} (hfull : s.driver.full = some f)
    (hall : s.driver.reported = rxDmaSize) : Recovers s := by
  have hstep : step s .released
      = some { s with driver := { s.driver with full := none, reported := 0 } } := by
    simp only [step, hfull, if_pos hall]
    rfl
  exact .cons rfl hstep rfl (recovers_last (step_sound s _ _ h hstep) rfl)

theorem recovers {s : State} (h : Sound s) : Recovers s := by
  cases hfull : s.driver.full with
  | none => exact recovers_last h hfull
  | some f =>
      have hreported := h.reported
      by_cases hall : s.driver.reported = rxDmaSize
      · exact recovers_full h hfull hall
      · simp only [Driver.report, hfull] at hreported
        obtain ⟨t, hstep, hreceived, hdriver⟩ := rdy_enabled h
          (n := rxDmaSize - s.driver.reported) (by omega)
          (by simp only [Driver.report, hfull]; omega)
        refine .cons rfl hstep hreceived (recovers_full (step_sound s _ _ h hstep) (f := f) ?_ ?_)
        · rw [hdriver]
          exact hfull
        · rw [hdriver]
          show s.driver.reported + (rxDmaSize - s.driver.reported) = rxDmaSize
          omega

/-! ## Every run -/

theorem run_sound {s : State} {ls : List Label} (hrun : machine.run {} ls = some s) :
    Sound s ∧ Queued s :=
  ⟨machine.run_invariant step_sound sound_initial hrun,
    machine.run_invariant step_queued queued_initial hrun⟩

/-- What was received and not lost is with the reader, in the ring or in the
buffers, in order. -/
theorem received_order {s : State} (hsound : Sound s) (hqueued : Queued s) :
    (s.got.flatten ++ s.rx.rxRing.queued ++ s.unreported).Sublist s.received ∧
      (s.got.flatten ++ s.rx.rxRing.queued ++ s.unreported).length + s.lost
        = s.received.length := by
  have hbytes := hsound.bytes
  have hcounted := hqueued.counted
  constructor
  · rw [← hbytes]
    exact hqueued.order.append (.refl _)
  · simp only [← hbytes, List.length_append] at hcounted ⊢
    omega

/-- Where nothing was lost, the reader got the beginning of it. -/
theorem got_received {s : State} (hsound : Sound s) (hqueued : Queued s) (hlost : s.lost = 0) :
    s.got.flatten <+: s.received := by
  obtain ⟨horder, hlength⟩ := received_order hsound hqueued
  have hall : s.got.flatten ++ s.rx.rxRing.queued ++ s.unreported = s.received :=
    horder.eq_of_length (by omega)
  rw [← hall, List.append_assoc]
  exact List.prefix_append _ _

/-- Where no header among the bytes got announces too much, the handler calls are
those of one parse of them, however they were cut. -/
theorem got_parses (W : WireFormat) {s : State} (hqueued : Queued s)
    (hbounded : (drainScanner W).Bounded readerRoom s.got.flatten) :
    Parses W s.got.flatten (Reader.feedAll W {} s.got).calls (Reader.feedAll W {} s.got).rx := by
  rw [feedAll_run hqueued.chunks hbounded]
  exact parses_run W s.got.flatten

/-- **The reader gets what was received.** Whatever comes and whenever the
driver raises its events, errors among them: the buffer the driver goes on with
is not the one being filled and holds nothing unreported, no report reaches
past a buffer, and what the reader got, what waits in the ring and what is
unreported came in this order, with only the bytes a full ring had no room for
missing. Lost bytes or not, where no header among the bytes got announces a frame
that `rx_buf` has no room to wait for, the handler calls are those of one parse of
what was got, however it was cut. Where none was lost the bytes got are the
beginning of those received, so the condition may be asked of these. And a
receiver that has stopped is on again once the driver is done with what came
before. -/
theorem rx_path_delivers (W : WireFormat) {s : State} {ls : List Label}
    (hrun : machine.run {} ls = some s) :
    (∀ j, s.driver.next = some j → j ≠ s.driver.cur ∧ s.driver.full = none) ∧
    (∀ n, s.driver.reported + n ≤ s.driver.report.2 →
      ((s.rx.rxDma s.driver.report.1).read s.driver.reported n).isSome = true) ∧
    (s.got.flatten ++ s.rx.rxRing.queued ++ s.unreported).Sublist s.received ∧
    (s.got.flatten ++ s.rx.rxRing.queued ++ s.unreported).length + s.lost = s.received.length ∧
    (Announces W s.got.flatten →
      Parses W s.got.flatten (Reader.feedAll W {} s.got).calls (Reader.feedAll W {} s.got).rx) ∧
    (s.lost = 0 → s.got.flatten <+: s.received ∧ (Announces W s.received →
      Parses W s.got.flatten (Reader.feedAll W {} s.got).calls
        (Reader.feedAll W {} s.got).rx)) ∧
    Recovers s := by
  obtain ⟨hsound, hqueued⟩ := run_sound hrun
  obtain ⟨horder, hlength⟩ := received_order hsound hqueued
  refine ⟨fun j hj => ?_, fun n hn => by rw [report_read hsound hn]; rfl, horder, hlength,
    fun hannounces => got_parses W hqueued (bounded_of_announces hannounces),
    fun hlost => ?_, recovers hsound⟩
  · obtain ⟨rfl, hfull, _⟩ := hsound.next j hj
    exact ⟨by cases s.driver.cur <;> decide, hfull⟩
  · have hstart := got_received hsound hqueued hlost
    refine ⟨hstart, fun hannounces => got_parses W hqueued ?_⟩
    intro ps qs hsplit
    obtain ⟨more, hmore⟩ := hstart
    exact bounded_of_announces hannounces ps (qs ++ more)
      (by rw [← List.append_assoc, hsplit, hmore])

/-- An error after two bytes, one of them reported; the third comes into the
buffer enabled again. -/
theorem rx_path_delivers_through_error :
    let ls : List Label :=
      [.request, .arrive 1, .arrive 2, .rdy 1, .error, .rdy 1, .disabled, .arrive 3, .get 2]
    ∃ s, machine.run {} ls = some s ∧ s.got = [[1, 2]] ∧
      (s.got.flatten ++ s.rx.rxRing.queued ++ s.unreported).Sublist [1, 2, 3] ∧ Recovers s := by
  intro ls
  have hruns : (machine.run {} ls).any (fun s =>
      s.got == [[1, 2]] && s.received == [1, 2, 3]) = true := by decide +kernel
  obtain ⟨s, hs, hfacts⟩ := (Option.any_eq_true _ _).mp hruns
  simp only [Bool.and_eq_true, beq_iff_eq] at hfacts
  obtain ⟨-, -, horder, -, -, -, hrecovers⟩ := rx_path_delivers ccittFormat hs
  rw [hfacts.2] at horder
  exact ⟨s, hs, hfacts.1, horder, hrecovers⟩

end Nrf54Sniffer.Link.RxPath
