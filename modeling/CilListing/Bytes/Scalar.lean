import CilListing.Bytes.LittleEndian
import CilListing.Number.Shortest

namespace CilListing

/-- The primitive types that can be read from bytes. -/
inductive Scalar
  | u8
  | i8
  | u16
  | i16
  | u32
  | i32
  | u64
  | i64
  | f32
  | f64
deriving DecidableEq, Repr

namespace Scalar

def width : Scalar → Nat
  | u8 | i8 => 1
  | u16 | i16 => 2
  | u32 | i32 | f32 => 4
  | u64 | i64 | f64 => 8

/-- A value of a primitive type. Floating point values are their bit patterns. -/
inductive Value
  | u8 (value : UInt8)
  | i8 (value : Int8)
  | u16 (value : UInt16)
  | i16 (value : Int16)
  | u32 (value : UInt32)
  | i32 (value : Int32)
  | u64 (value : UInt64)
  | i64 (value : Int64)
  | f32 (bits : UInt32)
  | f64 (bits : UInt64)
deriving DecidableEq, Repr

/-- The value of a type whose two's complement pattern is `number`. -/
def ofPattern : Scalar → Nat → Value
  | u8, number => .u8 (UInt8.ofNat number)
  | i8, number => .i8 (Int8.ofNat number)
  | u16, number => .u16 (UInt16.ofNat number)
  | i16, number => .i16 (Int16.ofNat number)
  | u32, number => .u32 (UInt32.ofNat number)
  | i32, number => .i32 (Int32.ofNat number)
  | u64, number => .u64 (UInt64.ofNat number)
  | i64, number => .i64 (Int64.ofNat number)
  | f32, number => .f32 (UInt32.ofNat number)
  | f64, number => .f64 (UInt64.ofNat number)

/-- Reads a value from the front of the bytes, if they are long enough. -/
def read? (scalar : Scalar) (bytes : List UInt8) : Option Value :=
  let head := bytes.take scalar.width
  if head.length < scalar.width then none else some (scalar.ofPattern (littleEndian head))

namespace Value

def scalar : Value → Scalar
  | u8 _ => .u8
  | i8 _ => .i8
  | u16 _ => .u16
  | i16 _ => .i16
  | u32 _ => .u32
  | i32 _ => .i32
  | u64 _ => .u64
  | i64 _ => .i64
  | f32 _ => .f32
  | f64 _ => .f64

/-- The two's complement pattern of a value. -/
def pattern : Value → Nat
  | u8 value => value.toNat
  | i8 value => value.toUInt8.toNat
  | u16 value => value.toNat
  | i16 value => value.toUInt16.toNat
  | u32 value => value.toNat
  | i32 value => value.toUInt32.toNat
  | u64 value => value.toNat
  | i64 value => value.toUInt64.toNat
  | f32 bits => bits.toNat
  | f64 bits => bits.toNat

/-- The bytes that `Scalar.read?` reads the value from. -/
def bytes (value : Value) : List UInt8 := toLittleEndian value.scalar.width value.pattern

/-- Integers in decimal, floating point values by their shortest decimal. -/
def text : Value → String
  | u8 value => toString value.toNat
  | i8 value => toString value.toInt
  | u16 value => toString value.toNat
  | i16 value => toString value.toInt
  | u32 value => toString value.toNat
  | i32 value => toString value.toInt
  | u64 value => toString value.toNat
  | i64 value => toString value.toInt
  | f32 bits => BinaryFormat.single.text bits.toNat
  | f64 bits => BinaryFormat.double.text bits.toNat

end Value

end Scalar

end CilListing
