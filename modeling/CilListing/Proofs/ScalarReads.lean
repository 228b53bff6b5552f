import CilListing.Proofs.CursorRuns
import Mathlib.Algebra.BigOperators.Ring.Finset
import Mathlib.Data.Int.ModEq
import Mathlib.Tactic.NormNum

namespace CilListing

namespace Scalar

/-- Whether a type has negative numbers. Floating point values count as their bit patterns. -/
def isSigned : Scalar → Bool
  | i8 | i16 | i32 | i64 => true
  | u8 | u16 | u32 | u64 | f32 | f64 => false

/-- The range of a type. -/
def Holds (scalar : Scalar) (number : Int) : Prop :=
  if scalar.isSigned then -2 ^ (8 * scalar.width - 1) ≤ number ∧ number < 2 ^ (8 * scalar.width - 1)
  else 0 ≤ number ∧ number < 2 ^ (8 * scalar.width)

/-- The number that a value stands for. -/
def Value.number : Value → Int
  | u8 value => value.toNat
  | i8 value => value.toInt
  | u16 value => value.toNat
  | i16 value => value.toInt
  | u32 value => value.toNat
  | i32 value => value.toInt
  | u64 value => value.toNat
  | i64 value => value.toInt
  | f32 bits => bits.toNat
  | f64 bits => bits.toNat

end Scalar

/-- The bytes of a number in two's complement, least significant first. The byte at a place is the
digit there to base 256, also of a number below zero. -/
def twosComplement (width : Nat) (number : Int) : List UInt8 :=
  (List.range width).map fun place => UInt8.ofInt (number / 256 ^ place)

/-- What the bytes from a position on add up to, each with the weight of its place. -/
def weighedBytes (data : List UInt8) (position width : Nat) : Nat :=
  ∑ place ∈ Finset.range width, (data.getD (position + place) 0).toNat * 256 ^ place

section Words

/-- A word's number with a sign and without one differ by a multiple of the modulus. -/
theorem toNat_modEq_toInt {bits : Nat} (word : BitVec bits) :
    (word.toNat : Int) ≡ word.toInt [ZMOD (2 ^ bits : Nat)] := by
  rw [BitVec.toInt_eq_toNat_bmod, Int.ModEq, Int.bmod_emod]

theorem littleEndian_eq_sum (bytes : List UInt8) :
    littleEndian bytes = ∑ place ∈ Finset.range bytes.length, (bytes.getD place 0).toNat * 256 ^ place := by
  induction bytes with
  | nil => rfl
  | cons byte rest ih =>
    have shifted : ∀ place, ((byte :: rest).getD (place + 1) 0).toNat * 256 ^ (place + 1) =
        256 * ((rest.getD place 0).toNat * 256 ^ place) := by
      intro place
      rw [List.getD_cons_succ, pow_succ']
      exact Nat.mul_left_comm ..
    rw [littleEndian, ih, List.length_cons, Finset.sum_range_succ', Finset.mul_sum]
    simp only [shifted, List.getD_cons_zero, pow_zero, mul_one]
    exact Nat.add_comm ..

theorem twosComplement_succ (width : Nat) (number : Int) :
    twosComplement (width + 1) number = UInt8.ofInt number :: twosComplement width (number / 256) := by
  have shifted : ∀ place, number / 256 ^ (place + 1) = number / 256 / 256 ^ place := by
    intro place
    rw [pow_succ', Int.ediv_ediv_of_nonneg (by norm_num)]
  rw [twosComplement, List.range_succ_eq_map, List.map_cons, List.map_map, pow_zero, Int.ediv_one]
  simp only [Function.comp_def, Nat.succ_eq_add_one, shifted]
  rfl

/-- The lowest bytes of a number are those of any other that differs by a multiple of the modulus. -/
theorem toLittleEndian_eq_twosComplement {width pattern : Nat} {number : Int}
    (same : (pattern : Int) ≡ number [ZMOD 256 ^ width]) :
    toLittleEndian width pattern = twosComplement width number := by
  induction width generalizing pattern number with
  | zero => rfl
  | succ width ih =>
    obtain ⟨multiple, apart⟩ := Int.modEq_iff_add_fac.mp same
    rw [pow_succ', mul_assoc] at apart
    have low : UInt8.ofNat pattern = UInt8.ofInt number := by
      have digit : (number % 2 ^ 8).toNat = pattern % 2 ^ 8 := by omega
      rw [UInt8.ofInt, digit, UInt8.ofNat_mod_size]
    -- Quotients round down, also below zero, so that they differ by a multiple of the smaller modulus.
    have high : ((pattern / 256 : Nat) : Int) ≡ number / 256 [ZMOD 256 ^ width] := by
      have quotient : number / 256 = (pattern / 256 : Nat) + 256 ^ width * multiple := by omega
      rw [quotient]
      exact Int.modEq_iff_add_fac.mpr ⟨multiple, rfl⟩
    rw [toLittleEndian, twosComplement_succ, low, ih high]

example : twosComplement 4 (-2) = [0xFE, 0xFF, 0xFF, 0xFF] := by decide

end Words

namespace Scalar

theorem width_le (scalar : Scalar) : scalar.width ≤ 8 := by
  cases scalar <;> decide

theorem scalar_ofPattern (scalar : Scalar) (number : Nat) : (scalar.ofPattern number).scalar = scalar := by
  cases scalar <;> rfl

/-- A value keeps as much of a pattern as its type has bytes. -/
theorem pattern_ofPattern (scalar : Scalar) (number : Nat) :
    (scalar.ofPattern number).pattern = number % 256 ^ scalar.width := by
  cases scalar with
  | u8 => exact UInt8.toNat_ofNat'
  | u16 => exact UInt16.toNat_ofNat'
  | u32 | f32 => exact UInt32.toNat_ofNat'
  | u64 | f64 => exact UInt64.toNat_ofNat'
  | i8 =>
    rw [ofPattern, Value.pattern, Int8.toUInt8_ofNat']
    exact UInt8.toNat_ofNat'
  | i16 =>
    rw [ofPattern, Value.pattern, Int16.toUInt16_ofNat']
    exact UInt16.toNat_ofNat'
  | i32 =>
    rw [ofPattern, Value.pattern, Int32.toUInt32_ofNat']
    exact UInt32.toNat_ofNat'
  | i64 =>
    rw [ofPattern, Value.pattern, Int64.toUInt64_ofNat']
    exact UInt64.toNat_ofNat'

namespace Value

variable (value : Value)

theorem ofPattern_pattern : value.scalar.ofPattern value.pattern = value := by
  cases value with
  | u8 word | u16 word | u32 word | u64 word | f32 word | f64 word => simp [scalar, pattern, ofPattern]
  | i8 word => exact congrArg Value.i8 (int8_ofNat_toUInt8 word)
  | i16 word => exact congrArg Value.i16 (int16_ofNat_toUInt16 word)
  | i32 word => exact congrArg Value.i32 (int32_ofNat_toUInt32 word)
  | i64 word => exact congrArg Value.i64 (int64_ofNat_toUInt64 word)

theorem pattern_lt : value.pattern < 256 ^ value.scalar.width := by
  rw [← value.ofPattern_pattern, pattern_ofPattern, scalar_ofPattern]
  exact Nat.mod_lt _ (by positivity)

theorem holds_number : value.scalar.Holds value.number := by
  cases value with
  | u8 word | u16 word | u32 word | u64 word | f32 word | f64 word =>
    exact ⟨Int.natCast_nonneg _, Int.ofNat_lt.mpr word.toNat_lt⟩
  | i8 word | i16 word | i32 word | i64 word =>
    exact ⟨word.toBitVec.le_toInt, word.toBitVec.toInt_lt⟩

/-- The pattern of a value is its number in two's complement. -/
theorem pattern_modEq_number : (value.pattern : Int) ≡ value.number [ZMOD 256 ^ value.scalar.width] := by
  cases value with
  | u8 | u16 | u32 | u64 | f32 | f64 => exact Int.ModEq.refl _
  | i8 word | i16 word | i32 word | i64 word =>
    exact toNat_modEq_toInt word.toBitVec

/-- Of the values of a type there is one only that agrees with a number up to the modulus of its
width. -/
theorem eq_ofPattern_iff {scalar : Scalar} {value : Value} {number : Nat} :
    value = scalar.ofPattern number ↔
      value.scalar = scalar ∧ value.number ≡ number [ZMOD 256 ^ scalar.width] := by
  constructor
  · rintro rfl
    have same := (scalar.ofPattern number).pattern_modEq_number
    rw [pattern_ofPattern, scalar_ofPattern] at same
    push_cast at same
    exact ⟨scalar_ofPattern .., same.symm.trans (Int.mod_modEq ..)⟩
  · rintro ⟨rfl, same⟩
    have patterns : value.pattern = (value.scalar.ofPattern number).pattern := by
      have integers := value.pattern_modEq_number.trans same
      have naturals : value.pattern ≡ number [MOD 256 ^ value.scalar.width] := by
        rw [← Int.natCast_modEq_iff]
        exact_mod_cast integers
      rw [pattern_ofPattern, ← naturals, Nat.mod_eq_of_lt value.pattern_lt]
    have fixedPoint := (value.scalar.ofPattern number).ofPattern_pattern
    rw [scalar_ofPattern, ← patterns, value.ofPattern_pattern] at fixedPoint
    exact fixedPoint

/-- A value is written as its number. -/
theorem bytes_eq_twosComplement : value.bytes = twosComplement value.scalar.width value.number :=
  toLittleEndian_eq_twosComplement value.pattern_modEq_number

theorem length_bytes : value.bytes.length = value.scalar.width := length_toLittleEndian ..

theorem littleEndian_bytes : littleEndian value.bytes = value.pattern :=
  littleEndian_toLittleEndian_of_lt value.pattern_lt

end Value

end Scalar

namespace Cursor

open Scalar

variable {cursor : Cursor}

theorem littleEndian_take {width : Nat} (enough : width ≤ cursor.remaining) :
    littleEndian (cursor.rest.take width) = weighedBytes cursor.data cursor.position width := by
  rw [remaining_eq] at enough
  rw [littleEndian_eq_sum, List.length_take_of_le enough, weighedBytes]
  refine Finset.sum_congr rfl ?_
  intro place inside
  rw [Finset.mem_range] at inside
  rw [List.getD_eq_getElem?_getD, List.getElem?_take_of_lt inside, rest, List.getElem?_drop,
    ← List.getD_eq_getElem?_getD]

theorem littleEndian_take_lt {width : Nat} (enough : width ≤ cursor.remaining) :
    littleEndian (cursor.rest.take width) < 256 ^ width := by
  have bound := littleEndian_lt (cursor.rest.take width)
  rw [remaining_eq] at enough
  rwa [List.length_take_of_le enough] at bound

theorem read_eq {scalar : Scalar} (enough : scalar.width ≤ cursor.remaining) :
    cursor.read scalar =
      (.ok (scalar.ofPattern (weighedBytes cursor.data cursor.position scalar.width)),
        cursor.forward scalar.width) := by
  rw [read_of_enough enough, littleEndian_take enough]

/-- A read succeeds where the bytes of the type are there, and the value is the one that they make. -/
theorem read_eq_ok_iff {scalar : Scalar} {value : Value} {next : Cursor} :
    cursor.read scalar = (.ok value, next) ↔
      scalar.width ≤ cursor.remaining ∧ value.scalar = scalar ∧
        value.number ≡ weighedBytes cursor.data cursor.position scalar.width [ZMOD 2 ^ (8 * scalar.width)] ∧
        next = cursor.forward scalar.width := by
  have modulus : (2 : Int) ^ (8 * scalar.width) = 256 ^ scalar.width := by
    rw [pow_mul]
    norm_num
  by_cases enough : scalar.width ≤ cursor.remaining
  · rw [read_eq enough, Prod.mk.injEq, Except.ok.injEq, modulus]
    constructor
    · rintro ⟨rfl, rfl⟩
      obtain ⟨kind, same⟩ := Value.eq_ofPattern_iff.mp rfl
      exact ⟨enough, kind, same, rfl⟩
    · rintro ⟨_, kind, same, rfl⟩
      exact ⟨(Value.eq_ofPattern_iff.mpr ⟨kind, same⟩).symm, rfl⟩
  · rw [read_of_short (Nat.not_le.mp enough)]
    simp [enough]

/-- A value that stands at the cursor is read, and the cursor moves behind it. -/
theorem read_of_front {value : Value} {later : List UInt8} (front : cursor.rest = value.bytes ++ later) :
    cursor.read value.scalar = (.ok value, cursor.forward value.bytes.length) := by
  have head : cursor.rest.take value.scalar.width = value.bytes := by
    rw [front, ← value.length_bytes, List.take_left]
  have enough : value.scalar.width ≤ cursor.remaining := by
    rw [remaining_eq, front, List.length_append, value.length_bytes]
    exact Nat.le_add_right ..
  rw [read_of_enough enough, head, value.littleEndian_bytes, value.ofPattern_pattern,
    value.length_bytes]

/-- Values that stand at the cursor one after the other are read in their order. -/
theorem mapM_value_of_front {values : List Value} {later : List UInt8}
    (front : cursor.rest = values.flatMap Value.bytes ++ later) :
    (values.map Value.scalar).mapM Stepwise.value cursor =
      (.ok values, cursor.forward (values.flatMap Value.bytes).length) := by
  induction values generalizing cursor with
  | nil => rfl
  | cons value values ih =>
    rw [List.flatMap_cons, List.append_assoc] at front
    have first : Stepwise.value value.scalar cursor = (.ok value, cursor.forward value.bytes.length) :=
      read_of_front front
    have behind : (cursor.forward value.bytes.length).rest = values.flatMap Value.bytes ++ later := by
      rw [rest_forward, front, List.drop_left]
    rw [List.map_cons, List.mapM_cons, Stepwise.bind_ok first, Stepwise.bind_ok (ih behind), forward_forward,
      List.flatMap_cons, List.length_append]
    rfl

end Cursor

open Scalar in
/-- Values written one after the other are read back by their types, whatever stands before and
behind them. And every value that is read is the one of its type's range that the bytes make. -/
theorem scalars_read_back :
    (∀ (before after : List UInt8) (values : List Value),
      let written := values.flatMap fun value => twosComplement value.scalar.width value.number
      let placed : Cursor := ⟨before ++ written ++ after, before.length⟩
      let finish : Cursor := ⟨before ++ written ++ after, before.length + written.length⟩
      (Cursor.start (before ++ written ++ after)).advance before.length = (.ok (), placed) ∧
        (values.map Value.scalar).mapM Stepwise.value placed = (.ok values, finish) ∧
        finish.rest = after) ∧
    ∀ (cursor next : Cursor) (scalar : Scalar) (value : Value),
      (cursor.read scalar = (.ok value, next) ↔
        scalar.width ≤ cursor.remaining ∧ value.scalar = scalar ∧
          value.number ≡ weighedBytes cursor.data cursor.position scalar.width [ZMOD 2 ^ (8 * scalar.width)] ∧
          next = cursor.forward scalar.width) ∧
      value.scalar.Holds value.number := by
  refine ⟨?_, fun cursor next scalar value => ⟨Cursor.read_eq_ok_iff, value.holds_number⟩⟩
  intro before after values written placed finish
  have bytes : written = values.flatMap Value.bytes :=
    List.flatMap_congr fun value _ => value.bytes_eq_twosComplement.symm
  have front : placed.rest = values.flatMap Value.bytes ++ after := by
    show (before ++ written ++ after).drop before.length = _
    rw [← bytes, List.append_assoc, List.drop_left]
  refine ⟨?_, ?_, ?_⟩
  · have room : ¬ (Cursor.start (before ++ written ++ after)).remaining < before.length := by
      simp only [Cursor.remaining, Cursor.length, Cursor.start, List.length_append]
      omega
    rw [Cursor.advance, if_neg room, Cursor.forward, Cursor.start, Nat.zero_add]
  · rw [Cursor.mapM_value_of_front front, ← bytes]
    rfl
  · show (before ++ written ++ after).drop (before.length + written.length) = after
    rw [← List.length_append, List.drop_left]

end CilListing
