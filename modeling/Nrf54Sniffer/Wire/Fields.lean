/-
Nrf54Sniffer.Wire.Fields — the little-endian fields of the wire format as the
code writes them, with shifts and masks, and the proof that they are the
fields `Lib.leBytes` reads back; and the error numbers the firmware names,
which its functions return negated.
-/
import Nrf54Sniffer.Lib.Bytes

namespace Nrf54Sniffer.Wire

open Nrf54Sniffer.Lib

/-- `put_le16` of `batch.c`; `radio_ble.c` writes its sixteen-bit fields the
same way in place. -/
def putLe16 (v : UInt16) : List UInt8 := [(v &&& 0xFF).toUInt8, (v >>> 8).toUInt8]

/-- The bytes of a `u64`, least significant first, as the header loops of both
batchers and the packed metadata structures lay them out. -/
def putLe64 (v : UInt64) : List UInt8 :=
  (List.range 8).map fun i => (v >>> UInt64.ofNat (8 * i)).toUInt8

/-- `p[0] | (uint16_t)p[1] << 8`. -/
def getLe16 (lo hi : UInt8) : UInt16 := lo.toUInt16 ||| (hi.toUInt16 <<< 8)

/-- The bytes of a `uint32_t`, least significant first, as `reply` writes them. -/
def putLe32 (v : UInt32) : List UInt8 :=
  [(v &&& 0xFF).toUInt8, ((v >>> 8) &&& 0xFF).toUInt8, ((v >>> 16) &&& 0xFF).toUInt8,
   ((v >>> 24) &&& 0xFF).toUInt8]

/-- `p[0] | (uint32_t)p[1] << 8 | (uint32_t)p[2] << 16 | (uint32_t)p[3] << 24`. -/
def getLe32 (b0 b1 b2 b3 : UInt8) : UInt32 :=
  b0.toUInt32 ||| (b1.toUInt32 <<< 8) ||| (b2.toUInt32 <<< 16) ||| (b3.toUInt32 <<< 24)

def eIo : Int := 5
def eNoDev : Int := 19
def eInval : Int := 22
def eNoData : Int := 61
def eNoBufs : Int := 105
def eTimedOut : Int := 116

@[simp] theorem putLe16_length (v : UInt16) : (putLe16 v).length = 2 := rfl

theorem putLe16_eq (v : UInt16) : putLe16 v = leBytes 2 v.toNat := by
  have hlo : (v &&& 0xFF).toUInt8 = UInt8.ofNat v.toNat := by
    apply UInt8.toNat_inj.mp
    have hand : v.toNat &&& 255 = v.toNat % 2 ^ 8 := Nat.and_two_pow_sub_one_eq_mod v.toNat 8
    have hff : (0xFF : UInt16).toNat = 255 := rfl
    rw [UInt16.toNat_toUInt8, UInt16.toNat_and, hff, hand, Nat.mod_mod, UInt8.toNat_ofNat']
  have hhi : (v >>> 8).toUInt8 = UInt8.ofNat (v.toNat / 256) := by
    apply UInt8.toNat_inj.mp
    have h8 : (8 : UInt16).toNat % 16 = 8 := rfl
    rw [UInt16.toNat_toUInt8, UInt16.toNat_shiftRight, h8, Nat.shiftRight_eq_div_pow,
      UInt8.toNat_ofNat']
  simp only [putLe16, leBytes, hlo, hhi]

/-- Byte `i` of a `u64`. -/
theorem shiftRight_toUInt8 (v : UInt64) (i : Nat) (hi : i < 8) :
    (v >>> UInt64.ofNat (8 * i)).toUInt8 = UInt8.ofNat (v.toNat / 256 ^ i) := by
  apply UInt8.toNat_inj.mp
  have hshift : (8 * i) % 2 ^ 64 % 64 = 8 * i := by omega
  have hpow : 2 ^ (8 * i) = 256 ^ i := by rw [Nat.pow_mul]
  simp only [UInt64.toNat_toUInt8, UInt64.toNat_shiftRight, UInt64.toNat_ofNat', hshift,
    Nat.shiftRight_eq_div_pow, hpow, UInt8.toNat_ofNat']

theorem putLe64_eq (v : UInt64) : putLe64 v = leBytes 8 v.toNat := by
  have hbytes : putLe64 v = (List.range 8).map fun i => UInt8.ofNat (v.toNat / 256 ^ i) := by
    apply List.map_congr_left
    intro i hi
    exact shiftRight_toUInt8 v i (List.mem_range.mp hi)
  rw [hbytes]
  simp [List.range, List.range.loop, leBytes, Nat.div_div_eq_div_mul]

theorem putLe32_eq (v : UInt32) : putLe32 v = leBytes 4 v.toNat := by
  have hbyte : ∀ (w : UInt32) (n : Nat), w.toNat = n → (w &&& 0xFF).toUInt8 = UInt8.ofNat n := by
    intro w n hw
    apply UInt8.toNat_inj.mp
    have hand : n &&& 255 = n % 2 ^ 8 := Nat.and_two_pow_sub_one_eq_mod n 8
    have hff : (0xFF : UInt32).toNat = 255 := rfl
    rw [UInt32.toNat_toUInt8, UInt32.toNat_and, hff, hw, hand, Nat.mod_mod, UInt8.toNat_ofNat']
  have hshift : ∀ k : UInt32, k.toNat < 32 → (v >>> k).toNat = v.toNat / 2 ^ k.toNat := by
    intro k hk
    rw [UInt32.toNat_shiftRight, Nat.mod_eq_of_lt hk, Nat.shiftRight_eq_div_pow]
  simp only [putLe32, leBytes, hbyte v _ rfl, hbyte _ _ (hshift 8 (by decide)),
    hbyte _ _ (hshift 16 (by decide)), hbyte _ _ (hshift 24 (by decide)), Nat.div_div_eq_div_mul]
  rfl

theorem getLe16_toNat (lo hi : UInt8) : (getLe16 lo hi).toNat = leValue [lo, hi] := by
  have hlo : lo.toNat < 2 ^ 8 := UInt8.toNat_lt lo
  have hhi : hi.toNat < 2 ^ 8 := UInt8.toNat_lt hi
  have hshift : hi.toNat <<< 8 = 2 ^ 8 * hi.toNat := by
    rw [Nat.shiftLeft_eq, Nat.mul_comm]
  have hor : lo.toNat ||| 2 ^ 8 * hi.toNat = 2 ^ 8 * hi.toNat + lo.toNat := by
    rw [Nat.or_comm, Nat.two_pow_add_eq_or_of_lt hlo]
  simp only [getLe16, UInt16.toNat_or, UInt8.toNat_toUInt16, UInt16.toNat_shiftLeft, leValue]
  have h8 : (8 : UInt16).toNat % 16 = 8 := rfl
  rw [h8, hshift, Nat.mod_eq_of_lt (by omega : 2 ^ 8 * hi.toNat < 2 ^ 16), hor]
  omega

/-- Two bytes are the field of their own value. -/
theorem putLe16_getLe16 (lo hi : UInt8) : putLe16 (getLe16 lo hi) = [lo, hi] := by
  rw [putLe16_eq, getLe16_toNat]
  exact leBytes_leValue [lo, hi]

/-- A field that was put is got back. -/
theorem getLe16_putLe16 (v : UInt16) :
    getLe16 (v &&& 0xFF).toUInt8 (v >>> 8).toUInt8 = v := by
  apply UInt16.toNat_inj.mp
  have hput : [(v &&& 0xFF).toUInt8, (v >>> 8).toUInt8] = leBytes 2 v.toNat := putLe16_eq v
  rw [getLe16_toNat, hput, leValue_leBytes 2 v.toNat (UInt16.toNat_lt v)]

/-- The low half of a 32-bit field is the field of its first two bytes. -/
theorem getLe32_low (b0 b1 b2 b3 : UInt8) :
    (getLe32 b0 b1 b2 b3 &&& 0xFFFF).toUInt16 = getLe16 b0 b1 := by
  apply UInt16.toBitVec_inj.mp
  apply BitVec.eq_of_getElem_eq
  intro i hi
  have hones : (65535#16)[i] = true := BitVec.getElem_allOnes i hi
  simp [getLe32, getLe16, hones]

/-- The high half is that of its last two. -/
theorem getLe32_high (b0 b1 b2 b3 : UInt8) :
    (getLe32 b0 b1 b2 b3 >>> 16).toUInt16 = getLe16 b2 b3 := by
  apply UInt16.toBitVec_inj.mp
  apply BitVec.eq_of_getElem_eq
  intro i hi
  have h0 : b0.toBitVec.getLsbD (16 + i) = false := BitVec.getLsbD_of_ge _ _ (by omega)
  have h1 : b1.toBitVec.getLsbD (16 + i - 8) = false := BitVec.getLsbD_of_ge _ _ (by omega)
  have hnext : 16 + i - 24 = i - 8 := by omega
  have hbound : ∀ n, n ≤ 16 → decide (16 + i < n) = false := fun n hn => decide_eq_false (by omega)
  have hin : 16 + i < 32 := by omega
  have hin' : i < 32 := by omega
  have hlow : decide (16 + i < 24) = decide (i < 8) := by simp only [decide_eq_decide]; omega
  simp [getLe32, getLe16, h0, h1, hnext, hbound, hin, hin', hlow]

end Nrf54Sniffer.Wire
