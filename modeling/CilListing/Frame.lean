import CilListing.Opcode.Table
import CilListing.Operand.Basic

namespace CilListing

/-- One instruction cut out of the code: the code of its opcode and its operand. -/
structure Frame where
  code : UInt16
  operand : Operand
deriving DecidableEq, Repr

namespace Frame

def opcode (frame : Frame) : Opcode := Opcode.ofCode frame.code

/-- An escaped opcode takes two bytes. -/
def opcodeWidth (frame : Frame) : Nat := if frame.code > 0xFF then 2 else 1

def width (frame : Frame) : Nat := frame.opcodeWidth + frame.operand.width

/-- The frame of an opcode and the operand that follows it. -/
def ofCode (code : UInt16) (rest : List UInt8) : Frame :=
  ⟨code, Operand.read (Opcode.ofCode code).kind rest⟩

/-- Reads the frame at the front of the bytes. There is none without a byte,
and none behind an escape byte that stands alone. -/
def read? : List UInt8 → Option Frame
  | [] => none
  | [byte] => if byte = Opcode.escape then none else some (ofCode byte.toUInt16 [])
  | byte :: second :: rest =>
    if byte = Opcode.escape then some (ofCode (Opcode.escapedCode second) rest)
    else some (ofCode byte.toUInt16 (second :: rest))

/-- The bytes of a frame whose operand is complete. -/
def bytes (frame : Frame) : List UInt8 :=
  (if frame.code > 0xFF then [Opcode.escape, frame.code.toUInt8] else [frame.code.toUInt8]) ++
    frame.operand.bytes

theorem width_pos (frame : Frame) : 0 < frame.width := by
  rw [width, opcodeWidth]
  split <;> omega

theorem read?_eq_none_iff {bytes : List UInt8} :
    read? bytes = none ↔ bytes = [] ∨ bytes = [Opcode.escape] := by
  match bytes with
  | [] => simp [read?]
  | [byte] => simp [read?]
  | byte :: second :: rest =>
    rw [read?]
    split <;> simp

theorem drop_width_lt {bytes : List UInt8} {frame : Frame} (found : read? bytes = some frame) :
    (bytes.drop frame.width).length < bytes.length := by
  have positive := frame.width_pos
  cases bytes with
  | nil => simp [read?] at found
  | cons byte rest =>
    rw [List.length_drop, List.length_cons]
    omega

end Frame

/-- A frame with the position of its first byte. -/
structure PlacedFrame where
  position : Nat
  frame : Frame
deriving DecidableEq, Repr

/-- Bytes cut into frames, with the bytes at the end that belong to none. -/
structure Framing where
  frames : List PlacedFrame
  rest : List UInt8
deriving DecidableEq, Repr

namespace Framing

/-- Cuts the bytes from `position` on, behind the frames already cut, which stand in
reverse order. -/
def cutFrom (done : List PlacedFrame) (position : Nat) (bytes : List UInt8) : Framing :=
  match _found : Frame.read? bytes with
  | none => ⟨done.reverse, bytes⟩
  | some frame =>
    cutFrom (⟨position, frame⟩ :: done) (position + frame.width) (bytes.drop frame.width)
termination_by bytes.length
decreasing_by exact Frame.drop_width_lt _found

/-- Cuts all bytes into frames, counting positions from `position`. -/
def cut (position : Nat) (bytes : List UInt8) : Framing := cutFrom [] position bytes

theorem cutFrom_eq (done : List PlacedFrame) (position : Nat) (bytes : List UInt8) :
    cutFrom done position bytes =
      ⟨done.reverse ++ (cut position bytes).frames, (cut position bytes).rest⟩ := by
  induction length : bytes.length using Nat.strongRecOn generalizing done position bytes with
  | _ size ih =>
    subst length
    rw [cut, cutFrom.eq_def, cutFrom.eq_def []]
    split
    · simp
    · next frame found =>
      have shorter := Frame.drop_width_lt found
      rw [ih _ shorter _ _ _ rfl, ih _ shorter [_] _ _ rfl]
      simp

/-- Where no frame begins, cutting ends. -/
theorem cut_of_none {position : Nat} {bytes : List UInt8} (ended : Frame.read? bytes = none) :
    cut position bytes = ⟨[], bytes⟩ := by
  rw [cut, cutFrom.eq_def]
  split
  · rfl
  · next frame found => rw [ended] at found; cases found

/-- Where a frame begins, it comes first and cutting goes on behind it. -/
theorem cut_of_some {position : Nat} {bytes : List UInt8} {frame : Frame}
    (found : Frame.read? bytes = some frame) :
    cut position bytes =
      ⟨⟨position, frame⟩ :: (cut (position + frame.width) (bytes.drop frame.width)).frames,
        (cut (position + frame.width) (bytes.drop frame.width)).rest⟩ := by
  rw [cut, cutFrom.eq_def]
  split
  · next ended => rw [ended] at found; cases found
  · next other foundOther =>
    rw [foundOther] at found
    cases found
    rw [cutFrom_eq]
    rfl

end Framing

end CilListing
