/-
Nrf54Sniffer.Lib.ByteBuffer — a byte array of fixed size with checked
accesses.

A `ByteBuffer cap` is a list of exactly `cap` bytes: the length is a field of
the structure, so no value of another length exists. `write` and `read` answer
`none` when the access would leave the array, which is how a function that
indexes past its buffer shows up in a model built from them.

The lemmas say what a successful write leaves in the bytes before its end:
everything below the offset is kept and the source follows it.
-/

namespace Nrf54Sniffer.Lib

/-- `cap` bytes of storage. -/
structure ByteBuffer (cap : Nat) where
  bytes : List UInt8
  size_eq : bytes.length = cap

namespace ByteBuffer

variable {cap : Nat}

/-- Zeroed storage. -/
def zero (cap : Nat) : ByteBuffer cap := ⟨List.replicate cap 0, List.length_replicate⟩

/-- Copies `src` to `off`; `none` when it would run past the end. -/
def write (b : ByteBuffer cap) (off : Nat) (src : List UInt8) : Option (ByteBuffer cap) :=
  if h : off + src.length ≤ cap then
    some ⟨b.bytes.take off ++ src ++ b.bytes.drop (off + src.length), by
      have := b.size_eq
      simp only [List.length_append, List.length_take, List.length_drop]
      omega⟩
  else none

/-- The `n` bytes at `off`; `none` when they run past the end. -/
def read (b : ByteBuffer cap) (off n : Nat) : Option (List UInt8) :=
  if off + n ≤ cap then some ((b.bytes.drop off).take n) else none

/-- A write that fits succeeds, and splices the source in. -/
theorem write_eq_some (b : ByteBuffer cap) (off : Nat) (src : List UInt8)
    (h : off + src.length ≤ cap) :
    ∃ b', b.write off src = some b' ∧
      b'.bytes = b.bytes.take off ++ src ++ b.bytes.drop (off + src.length) :=
  ⟨_, dif_pos h, rfl⟩

/-- The bytes up to the end of a write are the kept prefix and the source. -/
theorem write_take (b : ByteBuffer cap) (off : Nat) (src : List UInt8)
    (h : off + src.length ≤ cap) :
    ∃ b', b.write off src = some b' ∧
      b'.bytes.take (off + src.length) = b.bytes.take off ++ src := by
  obtain ⟨b', hw, hb⟩ := b.write_eq_some off src h
  refine ⟨b', hw, ?_⟩
  have hlen : (b.bytes.take off ++ src).length = off + src.length := by
    have := b.size_eq
    simp only [List.length_append, List.length_take]
    omega
  rw [hb, ← hlen, List.take_left]

/-- A write at the start keeps every byte past the source. -/
theorem write_zero_take (b : ByteBuffer cap) (src : List UInt8) (n : Nat)
    (h : src.length ≤ n) (hn : n ≤ cap) :
    ∃ b', b.write 0 src = some b' ∧
      b'.bytes.take n = src ++ (b.bytes.take n).drop src.length := by
  obtain ⟨b', hw, hb⟩ := b.write_eq_some 0 src (by omega)
  refine ⟨b', hw, ?_⟩
  rw [hb, Nat.zero_add, List.take_zero, List.nil_append, List.take_append,
    List.take_of_length_le h, List.drop_take]

/-- A read inside the array succeeds. -/
theorem read_eq_some (b : ByteBuffer cap) (off n : Nat) (h : off + n ≤ cap) :
    b.read off n = some ((b.bytes.drop off).take n) :=
  if_pos h

/-- Two pieces written one after the other are read back as one. -/
theorem write_write_read (b : ByteBuffer cap) (xs ys : List UInt8)
    (h : xs.length + ys.length ≤ cap) :
    ∃ b₁ b₂, b.write 0 xs = some b₁ ∧ b₁.write xs.length ys = some b₂ ∧
      b₂.read 0 (xs.length + ys.length) = some (xs ++ ys) := by
  obtain ⟨b₁, hw₁, ht₁⟩ := b.write_take 0 xs (by omega)
  obtain ⟨b₂, hw₂, ht₂⟩ := b₁.write_take xs.length ys h
  refine ⟨b₁, b₂, hw₁, hw₂, ?_⟩
  rw [Nat.zero_add, List.take_zero, List.nil_append] at ht₁
  rw [b₂.read_eq_some 0 _ (by omega), List.drop_zero, ht₂, ht₁]

end ByteBuffer

end Nrf54Sniffer.Lib
