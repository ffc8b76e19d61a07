/-
Nrf54Sniffer.Lib.Look — programs that look bytes up, and where they look.

A `Look` is a program whose only effect is to read the byte at an address: what
it reads decides what it does next. `run` answers it out of a memory, which has
a byte at every address, as the bytes behind a buffer are there too, and `reads`
is the list of the addresses asked for. `runOn` answers it out of a list of
bytes, and gives up at the first index outside: where it does not give up, every
read is inside in any memory that holds the list, and the answer is the same
(`yields_of_runOn`).
-/
namespace Nrf54Sniffer.Lib

/-- A program over addresses in `ι` with a result in `α`. -/
inductive Look (ι α : Type) where
  | pure (a : α)
  | read (i : ι) (next : UInt8 → Look ι α)

namespace Look

variable {ι κ α β : Type}

/-- One program after another. -/
def bind : Look ι α → (α → Look ι β) → Look ι β
  | .pure a, k => k a
  | .read i next, k => .read i fun b => (next b).bind k

instance : Monad (Look ι) where
  pure := .pure
  bind := Look.bind

/-- The byte at an address. -/
def byte (i : ι) : Look ι UInt8 := .read i .pure

/-- The `n` bytes from `i` on, in order. -/
def range (i : Nat) : Nat → Look Nat (List UInt8)
  | 0 => Pure.pure []
  | n + 1 => do
      let b ← byte i
      let bs ← range (i + 1) n
      return b :: bs

/-- The program, its addresses translated. -/
def relocate (f : ι → κ) : Look ι α → Look κ α
  | .pure a => .pure a
  | .read i next => .read (f i) fun b => (next b).relocate f

/-! ## In a memory -/

/-- The result. -/
def run (mem : ι → UInt8) : Look ι α → α
  | .pure a => a
  | .read i next => (next (mem i)).run mem

/-- The addresses read. -/
def reads (mem : ι → UInt8) : Look ι α → List ι
  | .pure _ => []
  | .read i next => i :: (next (mem i)).reads mem

@[simp] theorem run_bind (mem : ι → UInt8) (p : Look ι α) (k : α → Look ι β) :
    (p >>= k).run mem = (k (p.run mem)).run mem := by
  show (p.bind k).run mem = _
  induction p with
  | pure a => rfl
  | read i next ih => exact ih (mem i)

@[simp] theorem reads_bind (mem : ι → UInt8) (p : Look ι α) (k : α → Look ι β) :
    (p >>= k).reads mem = p.reads mem ++ (k (p.run mem)).reads mem := by
  show (p.bind k).reads mem = _
  induction p with
  | pure a => rfl
  | read i next ih => exact congrArg (i :: ·) (ih (mem i))

@[simp] theorem run_relocate (f : ι → κ) (mem : κ → UInt8) (p : Look ι α) :
    (p.relocate f).run mem = p.run fun i => mem (f i) := by
  induction p with
  | pure a => rfl
  | read i next ih => exact ih (mem (f i))

@[simp] theorem reads_relocate (f : ι → κ) (mem : κ → UInt8) (p : Look ι α) :
    (p.relocate f).reads mem = (p.reads fun i => mem (f i)).map f := by
  induction p with
  | pure a => rfl
  | read i next ih => exact congrArg (f i :: ·) (ih (mem (f i)))

/-! ## On a list of bytes -/

/-- The result, if no read is outside the list. -/
def runOn (bytes : List UInt8) : Look Nat α → Option α
  | .pure a => some a
  | .read i next => bytes[i]?.bind fun b => (next b).runOn bytes

theorem runOn_pure (bytes : List UInt8) (a : α) :
    (Pure.pure a : Look Nat α).runOn bytes = some a := rfl

theorem runOn_byte (bytes : List UInt8) (i : Nat) : (byte i).runOn bytes = bytes[i]? := by
  show (bytes[i]?.bind fun b => some b) = _
  cases bytes[i]? with
  | none => rfl
  | some b => rfl

theorem runOn_bind (bytes : List UInt8) (p : Look Nat α) (k : α → Look Nat β) :
    (p >>= k).runOn bytes = (p.runOn bytes).bind fun a => (k a).runOn bytes := by
  show (p.bind k).runOn bytes = _
  induction p with
  | pure a => rfl
  | read i next ih =>
      show (bytes[i]?.bind fun b => ((next b).bind k).runOn bytes) = _
      simp only [ih, runOn, Option.bind_assoc]

theorem runOn_ite {c : Prop} [Decidable c] (bytes : List UInt8) (p q : Look Nat α) :
    (if c then p else q).runOn bytes = if c then p.runOn bytes else q.runOn bytes := by
  split
  · rfl
  · rfl

/-- A program started further on sees the rest of the bytes. -/
theorem runOn_relocate (bytes : List UInt8) (d : Nat) (p : Look Nat α) :
    (p.relocate (d + ·)).runOn bytes = p.runOn (bytes.drop d) := by
  induction p with
  | pure a => rfl
  | read i next ih =>
      show (bytes[d + i]?.bind fun b => ((next b).relocate (d + ·)).runOn bytes)
        = (bytes.drop d)[i]?.bind fun b => (next b).runOn (bytes.drop d)
      rw [List.getElem?_drop]
      exact congrArg _ (funext ih)

theorem runOn_range (bytes : List UInt8) (i n : Nat) (h : i + n ≤ bytes.length) :
    (range i n).runOn bytes = some ((bytes.drop i).take n) := by
  induction n generalizing i with
  | zero => rfl
  | succ n ih =>
      have hi : i < bytes.length := by omega
      rw [range, runOn_bind, runOn_byte, List.getElem?_eq_getElem hi, Option.bind_some, runOn_bind,
        ih (i + 1) (by omega), Option.bind_some, runOn_pure, List.drop_eq_getElem_cons hi,
        List.take_succ_cons]

/-- The memory holds the bytes. -/
def Holds (mem : Nat → UInt8) (bytes : List UInt8) : Prop :=
  ∀ i b, bytes[i]? = some b → mem i = b

/-- The answer is `a`, and every address read meets `P`. -/
structure Yields (P : ι → Prop) (mem : ι → UInt8) (p : Look ι α) (a : α) : Prop where
  run : p.run mem = a
  reads : ∀ i ∈ p.reads mem, P i

theorem Yields.pure {P : ι → Prop} {mem : ι → UInt8} (a : α) :
    Yields P mem (Pure.pure a : Look ι α) a :=
  ⟨rfl, fun _ hi => by cases hi⟩

theorem Yields.bind {P : ι → Prop} {mem : ι → UInt8} {p : Look ι α} {k : α → Look ι β} {a : α}
    {b : β} (hp : Yields P mem p a) (hk : Yields P mem (k a) b) : Yields P mem (p >>= k) b := by
  refine ⟨?_, fun i hi => ?_⟩
  · rw [run_bind, hp.run, hk.run]
  · rw [reads_bind, hp.run] at hi
    rcases List.mem_append.mp hi with hi | hi
    · exact hp.reads i hi
    · exact hk.reads i hi

theorem Yields.relocate {P : ι → Prop} {Q : κ → Prop} {mem : κ → UInt8} {p : Look ι α} {a : α}
    (f : ι → κ) (hP : ∀ i, P i → Q (f i)) (h : Yields P (fun i => mem (f i)) p a) :
    Yields Q mem (p.relocate f) a := by
  refine ⟨?_, fun j hj => ?_⟩
  · rw [run_relocate, h.run]
  · rw [reads_relocate] at hj
    obtain ⟨i, hi, rfl⟩ := List.mem_map.mp hj
    exact hP i (h.reads i hi)

theorem yields_byte {P : ι → Prop} {mem : ι → UInt8} {i : ι} (h : P i) :
    Yields P mem (byte i) (mem i) := by
  refine ⟨rfl, fun j hj => ?_⟩
  rcases List.mem_cons.mp hj with rfl | hj
  · exact h
  · cases hj

/-- Where a run on the bytes gives an answer, a run in memory gives it too, and
reads only the bytes. -/
theorem yields_of_runOn {bytes : List UInt8} {mem : Nat → UInt8} {p : Look Nat α} {a : α}
    (hmem : Holds mem bytes) (h : p.runOn bytes = some a) :
    Yields (· < bytes.length) mem p a := by
  induction p with
  | pure b =>
      refine ⟨Option.some.inj h, fun i hi => ?_⟩
      cases hi
  | read i next ih =>
      obtain ⟨b, hb, hnext⟩ := Option.bind_eq_some_iff.mp h
      have hrest := ih b hnext
      rw [← hmem i b hb] at hrest
      refine ⟨hrest.run, fun j hj => ?_⟩
      rcases List.mem_cons.mp hj with rfl | hj
      · exact (List.getElem?_eq_some_iff.mp hb).1
      · exact hrest.reads j hj

end Look

end Nrf54Sniffer.Lib
