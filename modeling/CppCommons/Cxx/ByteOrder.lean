import CppCommons.Cxx.ByteString

/-!
# Bytes of machine words

The sources split words into bytes and put them together again by shifts, the
most significant byte first.
-/

namespace CppCommons
namespace Cxx

theorem toNat_lowByte (v : UInt32) : (v &&& 0xFF).toUInt8.toNat = v.toNat % 256 := by
  have hmask : v.toNat &&& 255 = v.toNat % 256 := Nat.and_two_pow_sub_one_eq_mod v.toNat 8
  simp only [UInt32.toNat_toUInt8, UInt32.toNat_and, UInt32.reduceToNat, hmask]
  exact Nat.mod_mod v.toNat 256

theorem toNat_byteShifted (d : UInt8) {k : UInt32} (hk : k.toNat <= 24) :
    (d.toUInt32 <<< k).toNat = d.toNat <<< k.toNat := by
  have hd := d.toNat_lt
  rw [UInt32.toNat_shiftLeft, UInt8.toNat_toUInt32, Nat.mod_eq_of_lt (by lia : k.toNat < 32)]
  apply Nat.mod_eq_of_lt
  rw [Nat.shiftLeft_eq]
  calc
    d.toNat * 2 ^ k.toNat < 2 ^ 8 * 2 ^ k.toNat :=
      Nat.mul_lt_mul_of_pos_right hd (Nat.two_pow_pos _)
    _ <= 2 ^ 8 * 2 ^ 24 := Nat.mul_le_mul_left _ (Nat.pow_le_pow_right (by lia) hk)
    _ = 2 ^ 32 := by norm_num

theorem toNat_bigEndian (d0 d1 d2 d3 : UInt8) :
    ((d0.toUInt32 <<< 24) ||| (d1.toUInt32 <<< 16) ||| (d2.toUInt32 <<< 8) |||
        d3.toUInt32).toNat =
      d0.toNat * 2 ^ 24 + (d1.toNat * 2 ^ 16 + (d2.toNat * 2 ^ 8 + d3.toNat)) := by
  have h1 := d1.toNat_lt
  have h2 := d2.toNat_lt
  have h3 := d3.toNat_lt
  -- Each byte lies below the place of the one before it, so the bits do not meet.
  have hlow : d2.toNat <<< 8 ||| d3.toNat = d2.toNat * 2 ^ 8 + d3.toNat := by
    rw [← Nat.shiftLeft_add_eq_or_of_lt h3, Nat.shiftLeft_eq]
  have hmiddle : d1.toNat <<< 16 ||| (d2.toNat * 2 ^ 8 + d3.toNat) =
      d1.toNat * 2 ^ 16 + (d2.toNat * 2 ^ 8 + d3.toNat) := by
    rw [← Nat.shiftLeft_add_eq_or_of_lt (by lia), Nat.shiftLeft_eq]
  rw [UInt32.toNat_or, UInt32.toNat_or, UInt32.toNat_or, toNat_byteShifted d0 (by decide),
    toNat_byteShifted d1 (by decide), toNat_byteShifted d2 (by decide), UInt8.toNat_toUInt32,
    Nat.or_assoc, Nat.or_assoc]
  simp only [UInt32.reduceToNat]
  rw [hlow, hmiddle, ← Nat.shiftLeft_add_eq_or_of_lt (by lia), Nat.shiftLeft_eq]

theorem bigEndian_bytes (v : UInt32) :
    (((v >>> 24) &&& 0xFF).toUInt8.toUInt32 <<< 24) |||
        (((v >>> 16) &&& 0xFF).toUInt8.toUInt32 <<< 16) |||
        (((v >>> 8) &&& 0xFF).toUInt8.toUInt32 <<< 8) ||| (v &&& 0xFF).toUInt8.toUInt32 = v := by
  have hv := v.toNat_lt
  apply UInt32.toNat_inj.mp
  rw [toNat_bigEndian, toNat_lowByte, toNat_lowByte, toNat_lowByte, toNat_lowByte]
  simp only [UInt32.toNat_shiftRight, UInt32.reduceToNat, Nat.shiftRight_eq_div_pow]
  lia

end Cxx
end CppCommons
