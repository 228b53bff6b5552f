import CilListing.Frame
import CilListing.Operand.Text

namespace CilListing

/-- How bytes that encode no instruction are shown. -/
inductive UnknownPolicy
  | mark
  | nop
deriving DecidableEq, Repr, Inhabited

namespace UnknownPolicy

/-- The opcode shown for an unknown one. -/
def opcode : UnknownPolicy → Opcode
  | mark => Opcode.unknown
  | nop => Opcode.ofByte 0x00

/-- The text shown as its operand. -/
def operandText (code : UInt16) : UnknownPolicy → Option String
  | mark => some (codeBytesText code)
  | nop => none

end UnknownPolicy

/-- A decoded instruction. The size counts the bytes that are present, so the
last instruction of cut code may be shorter than its opcode asks for. -/
structure Instruction where
  offset : UInt32
  size : UInt32
  code : UInt16
  opcode : Opcode
  operandText : Option String
  token : Option Token
deriving DecidableEq, Repr

namespace Instruction

def isUnknown (instruction : Instruction) : Bool := !instruction.opcode.isDefined

def isTwoByte (instruction : Instruction) : Bool := instruction.code > 0xFF

/-- The offset behind the instruction, held at the greatest offset there is. -/
def nextOffset (instruction : Instruction) : Nat :=
  min (instruction.offset.toNat + instruction.size.toNat) 0xFFFFFFFF

def text (instruction : Instruction) : String :=
  label instruction.offset.toNat ++ ": " ++ instruction.opcode.mnemonic ++
    match instruction.operandText with
    | some operand => " " ++ operand
    | none => ""

end Instruction

/-- The instruction of a frame at `position`. A frame without a known opcode has no operand to
look at. -/
def Frame.decode (backend : Backend) (policy : UnknownPolicy) (position : Nat) (frame : Frame) :
    Traced Instruction :=
  if frame.opcode.isDefined then
    let operand := frame.operand.text backend (position + frame.width)
    let notes := frame.operand.notes (position + frame.opcodeWidth)
    (operand.map fun text =>
      { offset := position.toUInt32
        size := frame.width.toUInt32
        code := frame.code
        opcode := frame.opcode
        operandText := text
        token := frame.operand.token? }).after (notes.map .noted)
  else
    { value :=
        { offset := position.toUInt32
          size := frame.width.toUInt32
          code := frame.code
          opcode := policy.opcode
          operandText := policy.operandText frame.code
          token := none }
      events := [.noted (.unknownOpcode frame.code position)] }

/-- The note on bytes that no frame covers: an escape byte alone at the end. -/
def Framing.restEvents (position : Nat) : List UInt8 → List Event
  | [] => []
  | _ :: _ => [.noted (.loneEscape position)]

/-- Decodes all bytes, counting positions from `position`. Nothing in the bytes can stop it. -/
def decodeStream (backend : Backend) (policy : UnknownPolicy) (position : Nat)
    (bytes : List UInt8) : Traced (List Instruction) :=
  let framing := Framing.cut position bytes
  let finish := position + bytes.length - framing.rest.length
  (Traced.collect (framing.frames.map fun placed =>
    placed.frame.decode backend policy placed.position)).before
      (Framing.restEvents finish framing.rest)

end CilListing
