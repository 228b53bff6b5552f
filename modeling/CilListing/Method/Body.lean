import CilListing.Bytes.LittleEndian
import CilListing.Error
import CilListing.Method.Flags

namespace CilListing

/-- What a method body says in front of its code. -/
structure MethodBody where
  codeSize : Nat
  headerSize : Nat
  localsToken : Token
  maxStack : UInt32
  isFat : Bool
  initLocals : Bool
  hasSections : Bool
deriving DecidableEq, Repr

namespace MethodBody

/-- Why bytes are no method body. -/
inductive Fault
  | empty
  | cut
  | shortHeader (declared : Nat)
  | unknownFormat (first : UInt8)
deriving DecidableEq, Repr

def Fault.error : Fault → Error
  | empty => .empty
  | cut => .outOfBounds .unnamed
  | shortHeader declared =>
    .malformed .unnamed ("Fat method header declares a size of " ++ toString declared ++ " bytes")
  | unknownFormat first =>
    .malformed .unnamed ("MethodHeader is neither FAT nor TINY - " ++ toString first.toNat)

/-- The number in `width` bytes at `position`. -/
def field (data : List UInt8) (position width : Nat) : Nat :=
  littleEndian ((data.drop position).take width)

/-- The stack depth of bodies that do not say one. -/
def tinyMaxStack : UInt32 := 8

/-- The least size of a fat header. -/
def fatHeaderSize : Nat := 12

/-- A tiny body has the code size in the upper six bits of its single header byte. -/
def parseTiny (first : UInt8) (data : List UInt8) : Except Fault MethodBody :=
  let codeSize := first.toNat / 4
  if data.length < codeSize + 1 then .error .cut
  else
    .ok
      { codeSize := codeSize
        headerSize := 1
        localsToken := ⟨0⟩
        maxStack := tinyMaxStack
        isFat := false
        initLocals := false
        hasSections := false }

/-- A fat body begins with flags and the header size in words of four bytes, then the stack
depth, the code size and the token of the local signature. -/
def parseFat (data : List UInt8) : Except Fault MethodBody :=
  if data.length < fatHeaderSize then .error .cut
  else
    let word := field data 0 2
    let headerSize := word / 4096 * 4
    let codeSize := field data 4 4
    let flags := BodyFlags.ofWord (UInt16.ofNat (word % 4096))
    if headerSize < fatHeaderSize then .error (.shortHeader headerSize)
    else if data.length < headerSize + codeSize then .error .cut
    else
      .ok
        { codeSize := codeSize
          headerSize := headerSize
          localsToken := ⟨UInt32.ofNat (field data 8 4)⟩
          maxStack := UInt32.ofNat (field data 2 2)
          isFat := true
          initLocals := flags.contains .initLocals
          hasSections := flags.contains .moreSections }

/-- Reads the header at the front of the bytes and makes sure that the code it announces is
there. What follows the code does not matter. -/
def parse : List UInt8 → Except Fault MethodBody
  | [] => .error .empty
  | first :: rest =>
    let format : BodyFlags := ⟨(first &&& 0x3).toUInt16⟩
    if format = .tiny then parseTiny first (first :: rest)
    else if format = .fat then parseFat (first :: rest)
    else .error (.unknownFormat first)

/-- The size of header and code together. -/
def size (body : MethodBody) : Nat := body.codeSize + body.headerSize

/-- The code within the bytes that the body was read from, and nothing in bytes too short for it. -/
def code (body : MethodBody) (data : List UInt8) : List UInt8 :=
  if data.length < body.size then [] else (data.drop body.headerSize).take body.codeSize

end MethodBody

end CilListing
