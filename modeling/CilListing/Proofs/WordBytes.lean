import CilListing.Bytes.LittleEndian
import Mathlib.Tactic.Ring

namespace CilListing

theorem littleEndian_lt (bytes : List UInt8) : littleEndian bytes < 256 ^ bytes.length := by
  induction bytes with
  | nil => exact Nat.one_pos
  | cons byte rest ih =>
    have bound := byte.toNat_lt
    rw [littleEndian, List.length_cons, pow_succ]
    omega

/-- Reading undoes writing for numbers that fit the width. Of a larger number the lowest
bytes are left. -/
theorem littleEndian_toLittleEndian (width number : Nat) :
    littleEndian (toLittleEndian width number) = number % 256 ^ width := by
  induction width generalizing number with
  | zero => rw [toLittleEndian, littleEndian, pow_zero, Nat.mod_one]
  | succ width ih =>
    have low : (UInt8.ofNat number).toNat = number % 256 := UInt8.toNat_ofNat'
    rw [toLittleEndian, littleEndian, ih, low, pow_succ', Nat.mod_mul]

theorem littleEndian_toLittleEndian_of_lt {width number : Nat} (fits : number < 256 ^ width) :
    littleEndian (toLittleEndian width number) = number := by
  rw [littleEndian_toLittleEndian, Nat.mod_eq_of_lt fits]

/-- A word of as many bytes as were read holds the number without loss. The modulus of the word
type is left as it is written there. -/
theorem toLittleEndian_mod {bytes : List UInt8} {width modulus : Nat}
    (length : bytes.length = width) (fits : modulus = 256 ^ width) :
    toLittleEndian width (littleEndian bytes % modulus) = bytes := by
  subst width modulus
  rw [Nat.mod_eq_of_lt (littleEndian_lt bytes), toLittleEndian_littleEndian]

theorem int8_ofNat_toUInt8 (value : Int8) : Int8.ofNat value.toUInt8.toNat = value := by
  rw [← UInt8.toInt8_ofNat', UInt8.ofNat_toNat, Int8.toInt8_toUInt8]

theorem int16_ofNat_toUInt16 (value : Int16) : Int16.ofNat value.toUInt16.toNat = value := by
  rw [← UInt16.toInt16_ofNat', UInt16.ofNat_toNat, Int16.toInt16_toUInt16]

theorem int32_ofNat_toUInt32 (value : Int32) : Int32.ofNat value.toUInt32.toNat = value := by
  rw [← UInt32.toInt32_ofNat', UInt32.ofNat_toNat, Int32.toInt32_toUInt32]

theorem int64_ofNat_toUInt64 (value : Int64) : Int64.ofNat value.toUInt64.toNat = value := by
  rw [← UInt64.toInt64_ofNat', UInt64.ofNat_toNat, Int64.toInt64_toUInt64]

end CilListing
