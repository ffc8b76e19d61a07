/-
Nrf54Sniffer.Lib.Bytes — little-endian fields and exact-length reads over
byte lists.

`leBytes k n` writes the low `k` bytes of `n`, least significant first, and
`leValue` reads a byte list back as a number. `leValue_leBytes` is the round
trip for a value that fits, `leBytes_leValue` the converse for any byte list.
`takeExact` and `readLE` are the two readers a strict decoder is built from:
both refuse an input that is too short and return what is left over.

Nothing here depends on what the bytes mean.
-/
import Mathlib.Algebra.Group.Nat.Defs

namespace Nrf54Sniffer.Lib

/-! ## Little-endian fields -/

/-- The low `k` bytes of `n`, least significant first. -/
def leBytes : Nat → Nat → List UInt8
  | 0, _ => []
  | k + 1, n => UInt8.ofNat n :: leBytes k (n / 256)

/-- A byte list read as a little-endian number. -/
def leValue : List UInt8 → Nat
  | [] => 0
  | b :: bs => b.toNat + 256 * leValue bs

@[simp] theorem leBytes_length (k n : Nat) : (leBytes k n).length = k := by
  induction k generalizing n with
  | zero => rfl
  | succ k ih => simp [leBytes, ih]

/-- A value that fits its field is read back. -/
theorem leValue_leBytes (k n : Nat) (h : n < 256 ^ k) : leValue (leBytes k n) = n := by
  induction k generalizing n with
  | zero =>
      have : n = 0 := by simpa using h
      subst this; rfl
  | succ k ih =>
      have hq : n / 256 < 256 ^ k := by
        rw [Nat.div_lt_iff_lt_mul (by omega), ← Nat.pow_succ]
        exact h
      simp only [leBytes, leValue, ih (n / 256) hq, UInt8.toNat_ofNat']
      omega

/-- Every byte list is the field of its own value. -/
theorem leBytes_leValue (bs : List UInt8) : leBytes bs.length (leValue bs) = bs := by
  induction bs with
  | nil => rfl
  | cons b bs ih =>
      have hb : b.toNat < 256 := UInt8.toNat_lt b
      have hdiv : (b.toNat + 256 * leValue bs) / 256 = leValue bs := by omega
      have hhead : UInt8.ofNat (b.toNat + 256 * leValue bs) = b := by
        apply UInt8.toNat_inj.mp
        simp only [UInt8.toNat_ofNat']
        omega
      rw [List.length_cons, leValue, leBytes, hdiv, ih, hhead]

/-! ## Exact-length reads -/

/-- The first `n` elements and what follows, or nothing when there are fewer. -/
def takeExact {α : Type} (n : Nat) (xs : List α) : Option (List α × List α) :=
  if n ≤ xs.length then some (xs.take n, xs.drop n) else none

/-- A `k`-byte little-endian number and what follows it. -/
def readLE (k : Nat) (xs : List UInt8) : Option (Nat × List UInt8) :=
  (takeExact k xs).map fun (field, rest) => (leValue field, rest)

/-- A known prefix is consumed exactly. -/
theorem takeExact_append {α : Type} {n : Nat} (xs rest : List α) (h : xs.length = n) :
    takeExact n (xs ++ rest) = some (xs, rest) := by
  subst h
  simp [takeExact]

/-- A written field is read back and what follows it is left. -/
theorem readLE_leBytes_append (k n : Nat) (rest : List UInt8) (h : n < 256 ^ k) :
    readLE k (leBytes k n ++ rest) = some (n, rest) := by
  rw [readLE, takeExact_append _ _ (leBytes_length k n)]
  simp [leValue_leBytes k n h]

end Nrf54Sniffer.Lib
