/-
Nrf54Sniffer.Lib.DeltaLog — a log of stamped items packed behind a header,
each stamp coded as a sixteen-bit delta from the one before.

`EntryFormat` is one kind of item: its stamp, its bytes after the delta, and a
strict reader for them. `encodeFrom` packs items one after another from a base
stamp, `decodeFrom` reads `n` of them back and adds the deltas up, and
`decodeFrom_encodeFrom` is the round trip for items whose stamps go up by at
most `0xFFFF` at a time (`Steps`).

`Holds` is the representation invariant of a buffer such a log is built in:
how many items it holds, how far it is filled and which bytes it is filled
with. `Holds.append` says what adding one entry does to it, `Holds.decode`
that the buffer always reads back as the items added, and `Holds.sealed` what
is sent once a header is written in front. A packer that keeps its own
`used`, `count`, `base` and `last` proves its correctness through these three.
-/
import Nrf54Sniffer.Lib.Bytes
import Nrf54Sniffer.Lib.ByteBuffer

namespace Nrf54Sniffer.Lib

/-- A kind of item: when it was taken, its bytes after the delta, what a
reader sees of it, and the reader. -/
structure EntryFormat (α β : Type) where
  stamp : α → Nat
  body : α → List UInt8
  view : α → β
  parse : List UInt8 → Option (β × List UInt8)
  parse_body : ∀ a rest, parse (body a ++ rest) = some (view a, rest)

namespace EntryFormat

variable {α β : Type} (F : EntryFormat α β)

/-! ## Encoding and decoding -/

/-- One entry: the delta from `t`, then the body. -/
def entry (t : Nat) (a : α) : List UInt8 := leBytes 2 (F.stamp a - t) ++ F.body a

/-- Entries one after another, each delta measured from the entry before. -/
def encodeFrom : Nat → List α → List UInt8
  | _, [] => []
  | t, a :: as => F.entry t a ++ encodeFrom (F.stamp a) as

/-- Reads `n` entries, accumulating the stamps from `t`. -/
def decodeFrom : Nat → Nat → List UInt8 → Option (List (Nat × β) × List UInt8)
  | 0, _, xs => some ([], xs)
  | n + 1, t, xs => do
      let (dt, xs) ← readLE 2 xs
      let (b, xs) ← F.parse xs
      let (items, xs) ← decodeFrom n (t + dt) xs
      some ((t + dt, b) :: items, xs)

/-- What a reader sees of an item: its stamp and its view. -/
def seen (a : α) : Nat × β := (F.stamp a, F.view a)

/-- Each stamp is at or after the one before, by at most `0xFFFF`. -/
def Steps : Nat → List α → Prop
  | _, [] => True
  | t, a :: as => t ≤ F.stamp a ∧ F.stamp a - t ≤ 0xFFFF ∧ Steps (F.stamp a) as

/-- The stamp of the last item, or `t` when there is none. -/
def lastFrom : Nat → List α → Nat
  | t, [] => t
  | _, a :: as => lastFrom (F.stamp a) as

/-- Entries read back as the items packed, with what follows left over. -/
theorem decodeFrom_encodeFrom (t : Nat) (as : List α) (rest : List UInt8)
    (h : F.Steps t as) :
    F.decodeFrom as.length t (F.encodeFrom t as ++ rest) = some (as.map F.seen, rest) := by
  induction as generalizing t with
  | nil => rfl
  | cons a as ih =>
      obtain ⟨hle, hdt, htail⟩ := h
      have hsum : t + (F.stamp a - t) = F.stamp a := by omega
      have hread : readLE 2 (F.encodeFrom t (a :: as) ++ rest)
          = some (F.stamp a - t, F.body a ++ (F.encodeFrom (F.stamp a) as ++ rest)) := by
        simp only [encodeFrom, entry, List.append_assoc]
        exact readLE_leBytes_append 2 _ _ (by omega)
      rw [List.length_cons, decodeFrom, hread]
      simp only [Option.bind_eq_bind, Option.bind_some, F.parse_body, hsum, ih (F.stamp a) htail]
      rfl

/-! ## Adding at the end -/

theorem encodeFrom_append_singleton (t : Nat) (as : List α) (a : α) :
    F.encodeFrom t (as ++ [a]) = F.encodeFrom t as ++ F.entry (F.lastFrom t as) a := by
  induction as generalizing t with
  | nil => simp [encodeFrom, lastFrom]
  | cons b as ih => simp [encodeFrom, lastFrom, ih]

theorem lastFrom_append_singleton (t : Nat) (as : List α) (a : α) :
    F.lastFrom t (as ++ [a]) = F.stamp a := by
  induction as generalizing t with
  | nil => rfl
  | cons b as ih => exact ih (F.stamp b)

theorem steps_append_singleton (t : Nat) (as : List α) (a : α) (h : F.Steps t as)
    (hle : F.lastFrom t as ≤ F.stamp a) (hdt : F.stamp a - F.lastFrom t as ≤ 0xFFFF) :
    F.Steps t (as ++ [a]) := by
  induction as generalizing t with
  | nil => exact ⟨hle, hdt, trivial⟩
  | cons b as ih => exact ⟨h.1, h.2.1, ih (F.stamp b) h.2.2 hle hdt⟩

theorem entry_length (t : Nat) (a : α) : (F.entry t a).length = 2 + (F.body a).length := by
  simp [entry]

/-! ## A buffer being filled -/

/-- The buffer holds the items `as`: `hdr` bytes left for a header, then their
entries from the stamp `base`, up to `used`. -/
structure Holds {cap : Nat} (hdr : Nat) (buf : ByteBuffer cap) (used count base last : Nat)
    (as : List α) : Prop where
  used_le : used ≤ cap
  count_eq : count = as.length
  used_eq : used = hdr + (F.encodeFrom base as).length
  bytes_eq : (buf.bytes.take used).drop hdr = F.encodeFrom base as
  steps : F.Steps base as
  last_eq : as ≠ [] → last = F.lastFrom base as

namespace Holds

variable {F} {cap hdr used count base last : Nat} {buf : ByteBuffer cap} {as : List α}

/-- An emptied buffer holds nothing, whatever its bytes and stamps are. -/
theorem nil (h : hdr ≤ cap) (buf : ByteBuffer cap) (base last : Nat) :
    F.Holds hdr buf hdr 0 base last [] where
  used_le := h
  count_eq := rfl
  used_eq := rfl
  bytes_eq := by
    rw [List.drop_eq_nil_iff.mpr (by rw [List.length_take]; omega)]
    rfl
  steps := trivial
  last_eq := fun hne => absurd rfl hne

/-- Writing one more entry at `used` adds its item at the end. -/
theorem append (h : F.Holds hdr buf used count base last as) (a : α)
    (hlast : last = F.lastFrom base as) (hle : last ≤ F.stamp a)
    (hdt : F.stamp a - last ≤ 0xFFFF) (hroom : used + (F.entry last a).length ≤ cap) :
    ∃ buf', buf.write used (F.entry last a) = some buf' ∧
      F.Holds hdr buf' (used + (F.entry last a).length) (count + 1) base (F.stamp a)
        (as ++ [a]) := by
  obtain ⟨buf', hw, htake⟩ := buf.write_take used (F.entry last a) hroom
  have henc : F.encodeFrom base (as ++ [a]) = F.encodeFrom base as ++ F.entry last a := by
    rw [F.encodeFrom_append_singleton, ← hlast]
  have hhdr : hdr ≤ (buf.bytes.take used).length := by
    have := buf.size_eq
    have := h.used_le
    have := h.used_eq
    rw [List.length_take]
    omega
  refine ⟨buf', hw, ⟨hroom, ?_, ?_, ?_, ?_, ?_⟩⟩
  · rw [List.length_append, h.count_eq]; rfl
  · rw [henc, List.length_append, h.used_eq, Nat.add_assoc]
  · rw [htake, List.drop_append_of_le_length hhdr, h.bytes_eq, henc]
  · exact F.steps_append_singleton base as a h.steps (hlast ▸ hle) (hlast ▸ hdt)
  · intro _
    exact (F.lastFrom_append_singleton base as a).symm

/-- The filled bytes read back as the items added. -/
theorem decode (h : F.Holds hdr buf used count base last as) :
    F.decodeFrom count base ((buf.bytes.take used).drop hdr) = some (as.map F.seen, []) := by
  rw [h.bytes_eq, h.count_eq]
  simpa using F.decodeFrom_encodeFrom base as [] h.steps

/-- With its header written, the buffer up to `used` is the header and the
entries. -/
theorem sealed (h : F.Holds hdr buf used count base last as) (header : List UInt8)
    (hlen : header.length = hdr) :
    ∃ buf', buf.write 0 header = some buf' ∧
      buf'.bytes.take used = header ++ F.encodeFrom base as := by
  have hle : header.length ≤ used := by
    have := h.used_eq
    omega
  obtain ⟨buf', hw, htake⟩ := buf.write_zero_take header used hle h.used_le
  exact ⟨buf', hw, by rw [htake, hlen, h.bytes_eq]⟩

/-- A read among the entries sees the entry bytes. -/
theorem read (h : F.Holds hdr buf used count base last as) (off n : Nat)
    (hfit : off + n ≤ (F.encodeFrom base as).length) :
    buf.read (hdr + off) n = some (((F.encodeFrom base as).drop off).take n) := by
  have hused := h.used_eq
  have hcap := h.used_le
  rw [buf.read_eq_some (hdr + off) n (by omega), ← h.bytes_eq, List.drop_take, List.drop_take,
    List.take_take, List.drop_drop, Nat.min_eq_left (by omega)]

end Holds

end EntryFormat

end Nrf54Sniffer.Lib
