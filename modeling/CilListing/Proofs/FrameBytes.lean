import CilListing.Frame
import CilListing.Proofs.OpcodeTable
import CilListing.Proofs.OperandBytes

namespace CilListing

/-- The bytes of an opcode as they stand in the code. -/
def Opcode.codeBytes (code : UInt16) : List UInt8 :=
  if code > 0xFF then [escape, code.toUInt8] else [code.toUInt8]

attribute [ext] Frame

namespace Frame

theorem length_codeBytes (frame : Frame) : (Opcode.codeBytes frame.code).length = frame.opcodeWidth := by
  rw [Opcode.codeBytes, opcodeWidth]
  split <;> rfl

/-- What stands behind the opcode of a frame at `position`. -/
theorem drop_opcodeWidth {bytes rest : List UInt8} {frame : Frame} {position : Nat}
    (split : bytes.drop position = Opcode.codeBytes frame.code ++ rest) :
    bytes.drop (position + frame.opcodeWidth) = rest := by
  rw [← List.drop_drop, split, ← length_codeBytes, List.drop_left]

theorem bytes_eq (frame : Frame) :
    frame.bytes = Opcode.codeBytes frame.code ++ frame.operand.bytes := rfl

/-- Bytes that begin with an opcode hold its frame. -/
theorem read?_codeBytes_append {code : UInt16} (isCode : Opcode.IsCode code) (rest : List UInt8) :
    read? (Opcode.codeBytes code ++ rest) = some (ofCode code rest) := by
  rcases isCode with ⟨byte, single, rfl⟩ | ⟨byte, rfl⟩
  · rw [Opcode.codeBytes, if_neg (Opcode.not_toUInt16_gt byte), UInt8.toUInt8_toUInt16]
    cases rest with
    | nil => exact if_neg single
    | cons second rest => exact if_neg single
  · rw [Opcode.codeBytes, if_pos (Opcode.escapedCode_gt byte), Opcode.escapedCode_toUInt8]
    show read? (Opcode.escape :: byte :: rest) = _
    rw [read?, if_pos rfl]

/-- What a frame found in bytes says about them. -/
theorem exists_of_read? {bytes : List UInt8} {frame : Frame} (found : read? bytes = some frame) :
    ∃ rest, Opcode.IsCode frame.code ∧ bytes = Opcode.codeBytes frame.code ++ rest ∧
      frame.operand = Operand.read frame.opcode.kind rest := by
  have single (byte : UInt8) (rest : List UInt8) (other : byte ≠ Opcode.escape) :
      Opcode.IsCode byte.toUInt16 ∧ byte :: rest = Opcode.codeBytes byte.toUInt16 ++ rest := by
    refine ⟨Or.inl ⟨byte, other, rfl⟩, ?_⟩
    rw [Opcode.codeBytes, if_neg (Opcode.not_toUInt16_gt byte), UInt8.toUInt8_toUInt16]
    rfl
  match bytes with
  | [] => cases found
  | [byte] =>
    rw [read?] at found
    split at found
    · cases found
    · next other =>
      cases found
      obtain ⟨isCode, split⟩ := single byte [] other
      exact ⟨[], isCode, split, rfl⟩
  | byte :: second :: rest =>
    rw [read?] at found
    split at found
    · next same =>
      cases found
      refine ⟨rest, Or.inr ⟨second, rfl⟩, ?_, rfl⟩
      rw [same, ofCode, Opcode.codeBytes, if_pos (Opcode.escapedCode_gt second),
        Opcode.escapedCode_toUInt8]
      rfl
    · next other =>
      cases found
      obtain ⟨isCode, split⟩ := single byte (second :: rest) other
      exact ⟨second :: rest, isCode, split, rfl⟩

/-- The parts of a frame found in bytes, with what its operand was read from. -/
theorem reads_of_read? {bytes : List UInt8} {frame : Frame} (found : read? bytes = some frame) :
    ∃ rest, Opcode.IsCode frame.code ∧ bytes = Opcode.codeBytes frame.code ++ rest ∧
      Operand.Reads frame.opcode.kind rest frame.operand := by
  obtain ⟨rest, isCode, split, operand⟩ := exists_of_read? found
  refine ⟨rest, isCode, split, ?_⟩
  rw [operand]
  exact Operand.reads_read ..

theorem width_le_of_read? {bytes : List UInt8} {frame : Frame} (found : read? bytes = some frame) :
    frame.width ≤ bytes.length := by
  obtain ⟨rest, _, rfl, reads⟩ := reads_of_read? found
  rw [width, List.length_append, length_codeBytes]
  cases reads with
  | complete _ _ _ enough => exact Nat.add_le_add_left enough _
  | cut _ all _ => exact Nat.add_le_add_left all.le _

/-- A frame that is cut short goes to the end of the bytes. -/
theorem width_eq_of_isCut {bytes : List UInt8} {frame : Frame} (found : read? bytes = some frame)
    (isCut : frame.operand.isCut = true) : frame.width = bytes.length := by
  obtain ⟨rest, _, rfl, reads⟩ := reads_of_read? found
  rw [width, List.length_append, length_codeBytes]
  cases reads with
  | complete fits =>
    rw [Operand.isCut_of_fits fits] at isCut
    cases isCut
  | cut _ all _ => rw [all]

theorem kind?_of_read? {bytes : List UInt8} {frame : Frame} (found : read? bytes = some frame)
    (complete : frame.operand.isCut = false) : frame.operand.kind? = some frame.opcode.kind := by
  obtain ⟨_, _, _, reads⟩ := reads_of_read? found
  cases reads with
  | complete fits => exact fits
  | cut isCut => rw [isCut] at complete; cases complete

/-- A frame that is not cut short is all that its bytes say. -/
theorem bytes_append_drop {bytes : List UInt8} {frame : Frame} (found : read? bytes = some frame)
    (complete : frame.operand.isCut = false) : frame.bytes ++ bytes.drop frame.width = bytes := by
  obtain ⟨rest, _, rfl, reads⟩ := reads_of_read? found
  cases reads with
  | complete _ _ front _ =>
    have tail : (Opcode.codeBytes frame.code ++ rest).drop frame.width =
        rest.drop frame.operand.width := by
      rw [width, ← length_codeBytes, List.drop_append, List.drop_of_length_le (by omega)]
      simp
    rw [tail, bytes_eq, List.append_assoc, ← front, List.take_append_drop]
  | cut isCut => rw [isCut] at complete; cases complete

section Front

variable {front more : List UInt8} {frame : Frame}

/-- Within the bytes of an opcode no frame ends, be it for want of a byte or behind the escape. -/
theorem read?_front_of_lt (found : read? (front ++ more) = some frame)
    (short : front.length < frame.opcodeWidth) : read? front = none := by
  obtain ⟨rest, _, split, _⟩ := exists_of_read? found
  have inside : front <+: Opcode.codeBytes frame.code := by
    apply List.prefix_of_prefix_length_le ⟨more, rfl⟩ ⟨rest, split.symm⟩
    rw [length_codeBytes]
    exact short.le
  rw [read?_eq_none_iff]
  cases front with
  | nil => exact Or.inl rfl
  | cons byte later =>
    right
    unfold opcodeWidth at short
    rw [List.length_cons] at short
    split at short
    · next double =>
      have single : later = [] := List.length_eq_zero_iff.mp (by omega)
      rw [Opcode.codeBytes, if_pos double, List.cons_prefix_cons] at inside
      rw [inside.1, single]
    · omega

/-- What the front of some bytes holds of the frame that they begin with: less than its opcode, all
of it, or the opcode with an operand that is cut short. -/
theorem read?_front (found : read? (front ++ more) = some frame) :
    front.length < frame.opcodeWidth ∧ read? front = none ∨
      frame.width ≤ front.length ∧ read? front = some frame ∨
      ∃ short, frame.opcodeWidth ≤ front.length ∧ front.length < frame.width ∧ read? front = some short ∧
        short.code = frame.code ∧ short.operand.isCut = true := by
  by_cases short : front.length < frame.opcodeWidth
  · exact Or.inl ⟨short, read?_front_of_lt found short⟩
  right
  obtain ⟨rest, isCode, split, operand⟩ := exists_of_read? found
  obtain ⟨tail, rfl⟩ : Opcode.codeBytes frame.code <+: front := by
    apply List.prefix_of_prefix_length_le ⟨rest, split.symm⟩ ⟨more, rfl⟩
    rw [length_codeBytes]
    omega
  rw [List.append_assoc] at split
  obtain rfl := List.append_cancel_left split
  have same (read : frame.operand = Operand.read frame.opcode.kind tail) : ofCode frame.code tail = frame :=
    Frame.ext rfl read.symm
  rw [read?_codeBytes_append isCode, List.length_append, length_codeBytes, width]
  cases Operand.reads_read frame.opcode.kind tail with
  | complete _ need _ enough =>
    rw [need] at enough
    rw [Operand.read_append enough] at operand
    rw [operand, need]
    exact Or.inl ⟨by omega, congrArg some (same operand)⟩
  | cut isCut all lacking =>
    -- Where nothing follows, the frame was cut short already.
    by_cases last : more = []
    · rw [last, List.append_nil] at operand
      rw [operand, all]
      exact Or.inl ⟨le_rfl, congrArg some (same operand)⟩
    · have positive := List.length_pos_iff.mpr last
      have beyond : tail.length < frame.operand.width := by
        have reads := Operand.reads_read frame.opcode.kind (tail ++ more)
        rw [← operand] at reads
        cases reads with
        | complete _ need _ _ =>
          rw [need]
          exact Operand.lt_need_append lacking more
        | cut _ all _ =>
          rw [all, List.length_append]
          omega
      exact Or.inr ⟨ofCode frame.code tail, by omega, by omega, rfl, rfl, isCut⟩

/-- The front of bytes that hold no frame holds none. -/
theorem read?_take_of_none {bytes : List UInt8} (ended : read? bytes = none) (size : Nat) :
    read? (bytes.take size) = none := by
  rw [read?_eq_none_iff] at ended ⊢
  rcases ended with rfl | rfl
  · exact Or.inl List.take_nil
  · cases size with
    | zero => exact Or.inl rfl
    | succ => exact Or.inr (by simp)

/-- All of a frame is found in a front that it fits into. -/
theorem read?_take_of_le {bytes : List UInt8} {size : Nat} (found : read? bytes = some frame)
    (fits : frame.width ≤ size) : read? (bytes.take size) = some frame := by
  have within := width_le_of_read? found
  have split : frame.width = frame.opcodeWidth + frame.operand.width := rfl
  have length : (bytes.take size).length = min size bytes.length := List.length_take
  rw [← List.take_append_drop size bytes] at found
  rcases read?_front found with ⟨less, _⟩ | ⟨_, read⟩ | ⟨_, _, less, _⟩
  · omega
  · exact read
  · omega

end Front

/-- A complete frame is read back from its bytes, whatever follows them. -/
theorem read?_bytes_append {frame : Frame} (isCode : Opcode.IsCode frame.code)
    (fits : frame.operand.kind? = some frame.opcode.kind) (short : frame.operand.width < 2 ^ 32)
    (rest : List UInt8) : read? (frame.bytes ++ rest) = some frame := by
  rw [bytes_eq, List.append_assoc, read?_codeBytes_append isCode, ofCode]
  have operand := Operand.read_bytes_append fits short rest
  rw [opcode] at operand
  rw [operand]

theorem length_bytes {frame : Frame} {kind : OperandKind} (fits : frame.operand.kind? = some kind) :
    frame.bytes.length = frame.width := by
  rw [bytes_eq, List.length_append, length_codeBytes, Operand.length_bytes fits, width]

end Frame

end CilListing
