import CilListing.Listing
import CilListing.Proofs.FrameDecoding
import Mathlib.Data.List.Chain

namespace CilListing

namespace Instruction

/-- The number of bytes of the opcode. -/
def opcodeLength (instruction : Instruction) : Nat := if instruction.isTwoByte then 2 else 1

/-- The size that an instruction has where its code goes on long enough. -/
def fullSize (code : List UInt8) (instruction : Instruction) : Nat :=
  instruction.opcodeLength +
    instruction.opcode.kind.need (code.drop (instruction.offset.toNat + instruction.opcodeLength))

end Instruction

/-- Instructions that lie one behind the other on the code from its first byte on. Only the last
of them may lack a part of its operand, and only an escape byte may be left over. -/
structure InstructionTiling (code : List UInt8) (instructions : List Instruction) : Prop where
  first : ∀ instruction, instructions.head? = some instruction → instruction.offset = 0
  consecutive : instructions.IsChain fun before after =>
    after.offset.toNat = before.offset.toNat + before.size.toNat
  positive : ∀ instruction ∈ instructions, 1 ≤ instruction.size.toNat
  increasing : instructions.Pairwise fun before after => before.offset < after.offset
  covering :
    let total := (instructions.map fun instruction => instruction.size.toNat).sum
    (total = code.length ∨ total + 1 = code.length) ∧
      (total + 1 = code.length ↔ code.drop total = [0xFE])
  opcodeBytes : ∀ instruction ∈ instructions,
    (∃ byte rest, code.drop instruction.offset.toNat = byte :: rest ∧ byte ≠ 0xFE ∧
      instruction.code.toNat = byte.toNat) ∨
    (∃ byte rest, code.drop instruction.offset.toNat = 0xFE :: byte :: rest ∧
      instruction.code.toNat = 0xFE00 + byte.toNat)
  complete : ∀ instruction ∈ instructions.dropLast, instruction.size.toNat = instruction.fullSize code
  truncated : ∀ instruction ∈ instructions, instruction.size.toNat ≠ instruction.fullSize code →
    instructions.getLast? = some instruction ∧ instruction.size.toNat < instruction.fullSize code ∧
      instruction.offset.toNat + instruction.size.toNat = code.length ∧
      instruction.operandText = none ∧ instruction.token = none

section Placed

variable {code : List UInt8} {placed : PlacedFrame} (backend : Backend) (policy : UnknownPolicy)

/-- The opcode that stands at the front of a placed frame. -/
theorem codeBytes_of_read? {bytes : List UInt8} {frame : Frame} (found : Frame.read? bytes = some frame) :
    (∃ byte rest, bytes = byte :: rest ∧ byte ≠ 0xFE ∧ frame.code.toNat = byte.toNat) ∨
      ∃ byte rest, bytes = 0xFE :: byte :: rest ∧ frame.code.toNat = 0xFE00 + byte.toNat := by
  obtain ⟨rest, isCode, split, _⟩ := Frame.exists_of_read? found
  rcases isCode with ⟨byte, single, code⟩ | ⟨byte, code⟩
  · left
    rw [code, Opcode.codeBytes, if_neg (Opcode.not_toUInt16_gt byte), UInt8.toUInt8_toUInt16] at split
    refine ⟨byte, rest, split, single, ?_⟩
    rw [code, UInt8.toNat_toUInt16]
  · right
    rw [code, Opcode.codeBytes, if_pos (Opcode.escapedCode_gt byte), Opcode.escapedCode_toUInt8] at split
    refine ⟨byte, rest, split, ?_⟩
    rw [code, Opcode.escapedCode_toNat]

theorem opcodeLength_decode (position : Nat) (frame : Frame) :
    (frame.decode backend policy position).value.opcodeLength = frame.opcodeWidth := by
  rw [Frame.decode_value, Instruction.opcodeLength, Instruction.isTwoByte, Frame.opcodeWidth]
  simp only [decide_eq_true_eq]

/-- In code of less than 32 bits of length, offset and size are exact. -/
theorem offset_size_decode (short : code.length < 2 ^ 32)
    (within : placed.position + placed.frame.width ≤ code.length) :
    (placed.frame.decode backend policy placed.position).value.offset.toNat = placed.position ∧
      (placed.frame.decode backend policy placed.position).value.size.toNat = placed.frame.width := by
  rw [Frame.decode_value]
  constructor
  · exact Nat.mod_eq_of_lt (show placed.position < 2 ^ 32 by omega)
  · exact Nat.mod_eq_of_lt (show placed.frame.width < 2 ^ 32 by omega)

/-- The full size of a placed frame by the bytes that its operand is read from. -/
theorem exists_reads_fullSize (short : code.length < 2 ^ 32)
    (within : placed.position + placed.frame.width ≤ code.length)
    (found : Frame.read? (code.drop placed.position) = some placed.frame) :
    ∃ rest, Operand.Reads placed.frame.opcode.kind rest placed.frame.operand ∧
      (placed.frame.decode backend policy placed.position).value.fullSize code =
        placed.frame.opcodeWidth + placed.frame.opcode.kind.need rest := by
  obtain ⟨rest, _, split, reads⟩ := Frame.reads_of_read? found
  have offset := (offset_size_decode backend policy short within).1
  have kind := Frame.kind_decode backend policy placed.position placed.frame
  have opcode := opcodeLength_decode backend policy placed.position placed.frame
  refine ⟨rest, reads, ?_⟩
  rw [Instruction.fullSize, offset, kind, opcode, Frame.drop_opcodeWidth split]

/-- A placed frame has its full size, or it is cut short and ends with the code. -/
theorem fullSize_decode (short : code.length < 2 ^ 32)
    (within : placed.position + placed.frame.width ≤ code.length)
    (found : Frame.read? (code.drop placed.position) = some placed.frame) :
    placed.frame.width = (placed.frame.decode backend policy placed.position).value.fullSize code ∨
      placed.frame.operand.isCut = true ∧
        placed.frame.width < (placed.frame.decode backend policy placed.position).value.fullSize code := by
  obtain ⟨rest, reads, size⟩ := exists_reads_fullSize backend policy short within found
  rw [size, Frame.width]
  cases reads with
  | complete _ width _ _ => exact Or.inl (by rw [width])
  | cut isCut width less => exact Or.inr ⟨isCut, by omega⟩

/-- A placed frame of its full size is not cut short. -/
theorem not_isCut_of_fullSize (short : code.length < 2 ^ 32)
    (within : placed.position + placed.frame.width ≤ code.length)
    (found : Frame.read? (code.drop placed.position) = some placed.frame)
    (full : placed.frame.width =
      (placed.frame.decode backend policy placed.position).value.fullSize code) :
    placed.frame.operand.isCut = false := by
  obtain ⟨rest, reads, size⟩ := exists_reads_fullSize backend policy short within found
  rw [size, Frame.width] at full
  cases reads with
  | complete fits => exact Operand.isCut_of_fits fits
  | cut _ width less => omega

end Placed

/-- Instructions have as many bytes together as their frames cover. -/
theorem sum_sizes_decode (backend : Backend) (policy : UnknownPolicy) {code : List UInt8}
    (short : code.length < 2 ^ 32) :
    (((Framing.cut 0 code).frames.map fun placed =>
      (placed.frame.decode backend policy placed.position).value).map
        fun instruction => instruction.size.toNat).sum = Tiles.covered (Framing.cut 0 code).frames := by
  rw [List.map_map, Tiles.covered]
  refine congrArg List.sum (List.map_congr_left fun placed member => ?_)
  have ending := (Framing.tiles_cut 0 code).end_le member
  exact (offset_size_decode backend policy short (by omega)).2

/-- Whatever the bytes are, their instructions lie on them without gap or overlap. -/
theorem tiling_decodeStream {code : List UInt8} (short : code.length < 2 ^ 32) (backend : Backend)
    (policy : UnknownPolicy) : InstructionTiling code (decodeStream backend policy 0 code).value := by
  have tiles := Framing.tiles_cut 0 code
  have within {placed : PlacedFrame} (member : placed ∈ (Framing.cut 0 code).frames) :
      placed.position + placed.frame.width ≤ code.length := by
    have ending := tiles.end_le member
    omega
  have found {placed : PlacedFrame} (member : placed ∈ (Framing.cut 0 code).frames) :
      Frame.read? (code.drop placed.position) = some placed.frame := (tiles.read?_of_mem member).2
  have exact {placed : PlacedFrame} (member : placed ∈ (Framing.cut 0 code).frames) :=
    offset_size_decode backend policy short (within member)
  rw [decodeStream_value]
  constructor
  case first =>
    intro instruction head
    rw [List.head?_map, Option.map_eq_some_iff] at head
    obtain ⟨placed, placedHead, rfl⟩ := head
    rw [Frame.decode_value, tiles.head_position placedHead]
    rfl
  case consecutive =>
    rw [List.isChain_map]
    refine tiles.chain.imp_of_mem_imp ?_
    intro before after beforeMember afterMember next
    rw [(exact beforeMember).1, (exact beforeMember).2, (exact afterMember).1, next]
  case positive =>
    intro instruction member
    obtain ⟨placed, placedMember, rfl⟩ := List.mem_map.mp member
    rw [(exact placedMember).2]
    exact placed.frame.width_pos
  case increasing =>
    rw [List.pairwise_map]
    refine tiles.increasing.imp_of_mem ?_
    intro before after beforeMember afterMember less
    rw [UInt32.lt_iff_toNat_lt, (exact beforeMember).1, (exact afterMember).1]
    exact less
  case covering =>
    have sizes := sum_sizes_decode backend policy short
    have total := tiles.covered_add_rest
    have drop := tiles.drop_covered
    rw [sizes]
    rcases tiles.rest_eq with empty | escape
    · rw [empty] at total drop
      rw [List.length_nil] at total
      refine ⟨Or.inl (by omega), ⟨fun wrong => by omega, fun wrong => ?_⟩⟩
      rw [drop] at wrong
      cases wrong
    · rw [escape] at total drop
      rw [List.length_singleton] at total
      exact ⟨Or.inr total, ⟨fun _ => drop, fun _ => total⟩⟩
  case opcodeBytes =>
    intro instruction member
    obtain ⟨placed, placedMember, rfl⟩ := List.mem_map.mp member
    rw [(exact placedMember).1, Frame.decode_value]
    exact codeBytes_of_read? (found placedMember)
  case complete =>
    intro instruction member
    rw [← List.map_dropLast] at member
    obtain ⟨placed, early, rfl⟩ := List.mem_map.mp member
    have placedMember := List.dropLast_subset _ early
    rw [(exact placedMember).2]
    rcases fullSize_decode backend policy short (within placedMember) (found placedMember) with full | less
    · exact full
    · have complete := tiles.not_isCut_of_mem_dropLast early
      rw [less.1] at complete
      cases complete
  case truncated =>
    intro instruction member different
    obtain ⟨placed, placedMember, rfl⟩ := List.mem_map.mp member
    rw [(exact placedMember).2] at different
    rw [(exact placedMember).1, (exact placedMember).2]
    rcases fullSize_decode backend policy short (within placedMember) (found placedMember) with full | less
    · exact absurd full different
    · obtain ⟨last, _, ending⟩ := tiles.last_of_isCut placedMember less.1
      obtain ⟨text, token⟩ := Frame.decode_of_isCut backend policy placed.position
        (found placedMember) less.1
      rw [Nat.zero_add] at ending
      exact ⟨by rw [List.getLast?_map, last]; rfl, less.2, ending, text, token⟩

end CilListing
