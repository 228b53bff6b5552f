import CilListing.Metadata.Symbols
import CilListing.Proofs.CheckedStream
import CilListing.Proofs.OperandRendering

namespace CilListing

/-- An opcode of the table with an operand of its kind. -/
structure AbstractInstruction where
  code : UInt16
  opcode : Opcode
  listed : (code, opcode) ∈ Opcode.defined
  operand : Operand
  fits : operand.kind? = some opcode.kind

namespace AbstractInstruction

def frame (source : AbstractInstruction) : Frame := ⟨source.code, source.operand⟩

/-- The bytes of the opcode, with those of the operand behind them. -/
def bytes (source : AbstractInstruction) : List UInt8 := source.frame.bytes

/-- The bytes of instructions one behind the other. -/
def encode (program : List AbstractInstruction) : List UInt8 := program.flatMap bytes

theorem opcode_frame (source : AbstractInstruction) : source.frame.opcode = source.opcode :=
  Opcode.ofCode_of_mem_defined source.listed

theorem width_frame (source : AbstractInstruction) : source.frame.width = source.bytes.length :=
  (Frame.length_bytes source.fits).symm

theorem read?_bytes_append (source : AbstractInstruction) (short : source.bytes.length < 2 ^ 32)
    (rest : List UInt8) : Frame.read? (source.bytes ++ rest) = some source.frame := by
  have fits : source.frame.operand.kind? = some source.frame.opcode.kind := by
    rw [opcode_frame]
    exact source.fits
  have width : source.frame.operand.width < 2 ^ 32 := by
    have total := source.width_frame
    rw [Frame.width] at total
    omega
  exact Frame.read?_bytes_append (Opcode.isCode_of_mem_defined source.listed) fits width rest

/-- The frames of instructions, the first of them at `position`. -/
def placedFrom (position : Nat) : List AbstractInstruction → List PlacedFrame
  | [] => []
  | source :: rest => ⟨position, source.frame⟩ :: placedFrom (position + source.bytes.length) rest

/-- The bytes of instructions are cut into their frames, and nothing is left. -/
theorem tiles_encode (position : Nat) (program : List AbstractInstruction)
    (short : (encode program).length < 2 ^ 32) :
    Tiles position (encode program) (placedFrom position program) [] := by
  induction program generalizing position with
  | nil => exact .stop rfl
  | cons source rest ih =>
    have split : encode (source :: rest) = source.bytes ++ encode rest := List.flatMap_cons
    rw [split, List.length_append] at short
    rw [split]
    refine .step (source.read?_bytes_append (by omega) _) ?_
    rw [width_frame, List.drop_left]
    exact ih _ (by omega)

theorem getElem?_placedFrom (position index : Nat) (program : List AbstractInstruction) :
    (placedFrom position program)[index]? = program[index]?.map fun source =>
      ⟨position + (encode (program.take index)).length, source.frame⟩ := by
  induction program generalizing position index with
  | nil => rfl
  | cons source rest ih =>
    cases index with
    | zero => rfl
    | succ index =>
      have split : encode ((source :: rest).take (index + 1)) =
          source.bytes ++ encode (rest.take index) := List.flatMap_cons
      rw [placedFrom, List.getElem?_cons_succ, List.getElem?_cons_succ, ih, split, List.length_append]
      simp only [Nat.add_assoc]

theorem length_encode_take {program : List AbstractInstruction} {index : Nat}
    {source : AbstractInstruction} (found : program[index]? = some source) :
    (encode (program.take index)).length + source.bytes.length ≤ (encode program).length := by
  obtain ⟨within, rfl⟩ := List.getElem?_eq_some_iff.mp found
  have split : encode program = encode (program.take index) ++
      (program[index].bytes ++ encode (program.drop (index + 1))) := by
    have parts : program = program.take index ++ (program[index] :: program.drop (index + 1)) := by
      rw [← List.drop_eq_getElem_cons within, List.take_append_drop]
    conv_lhs => rw [parts]
    rw [encode, List.flatMap_append, List.flatMap_cons]
    rfl
  rw [split, List.length_append, List.length_append]
  omega

end AbstractInstruction

/-- What an instruction that stands at `offset` is decoded to. -/
structure DecodesTo (backend : Backend) (offset : Nat) (source : AbstractInstruction)
    (instruction : Instruction) : Prop where
  offset_eq : instruction.offset.toNat = offset
  size_eq : instruction.size.toNat = source.bytes.length
  code_eq : instruction.code = source.code
  opcode_eq : instruction.opcode = source.opcode
  token_iff : ∀ token, instruction.token = some token ↔
    source.opcode.kind.isToken = true ∧ source.operand = .token source.opcode.kind token
  text_eq : instruction.operandText = source.operand.rendering backend (offset + source.bytes.length)

namespace AbstractInstruction

theorem token?_operand (source : AbstractInstruction) (token : Token) :
    source.operand.token? = some token ↔
      source.opcode.kind.isToken = true ∧ source.operand = .token source.opcode.kind token := by
  have fits := source.fits
  constructor
  · intro held
    cases operand : source.operand with
    | token hint value =>
      rw [operand, Operand.kind?] at fits
      rw [operand] at held
      split at fits
      · next named =>
        cases fits
        cases held
        exact ⟨named, rfl⟩
      · cases fits
    | _ => rw [operand] at held; cases held
  · rintro ⟨_, operand⟩
    rw [operand]
    rfl

theorem decodesTo_decode (backend : Backend) (policy : UnknownPolicy) (source : AbstractInstruction)
    {offset : Nat} (short : offset + source.bytes.length < 2 ^ 32) :
    DecodesTo backend offset source (source.frame.decode backend policy offset).value := by
  have known : source.opcode.isDefined = true := Opcode.isDefined_of_mem_defined source.listed
  rw [Frame.decode_value]
  simp only [opcode_frame, known, if_true, width_frame]
  exact {
    offset_eq := Nat.mod_eq_of_lt (by omega)
    size_eq := Nat.mod_eq_of_lt (by omega)
    code_eq := rfl
    opcode_eq := rfl
    token_iff := source.token?_operand
    text_eq := Operand.text_value .. }

/-- The instructions that a program in bytes is decoded to. -/
def decoded (backend : Backend) (policy : UnknownPolicy) (program : List AbstractInstruction) :
    List Instruction :=
  (placedFrom 0 program).map fun placed =>
    (placed.frame.decode backend policy placed.position).value

theorem stream_encode (backend : Backend) (policy : UnknownPolicy) (program : List AbstractInstruction)
    (short : (encode program).length < 2 ^ 32) :
    ((Cursor.start (encode program)).stream backend policy).value =
      (decoded backend policy program, ⟨encode program, (encode program).length⟩) := by
  have frames : (Framing.cut 0 (encode program)).frames = placedFrom 0 program := by
    rw [(tiles_encode 0 program short).eq_cut]
  rw [Cursor.stream, Traced.map, decodeStream_value]
  show (List.map _ (Framing.cut 0 (encode program)).frames, _) = _
  rw [frames]
  rfl

theorem length_decoded (backend : Backend) (policy : UnknownPolicy)
    (program : List AbstractInstruction) : (decoded backend policy program).length = program.length := by
  have length (position : Nat) : (placedFrom position program).length = program.length := by
    induction program generalizing position with
    | nil => rfl
    | cons source rest ih => rw [placedFrom, List.length_cons, List.length_cons, ih]
  rw [decoded, List.length_map, length]

end AbstractInstruction

open AbstractInstruction in
/-- Decoding undoes encoding: the bytes of a program are read without failure and to their end, as
the instructions of the program in their order. -/
theorem stream_encode_decodes (program : List AbstractInstruction)
    (short : (encode program).length < 2 ^ 32) (backend : Backend) (policy : UnknownPolicy) :
    ∃ instructions : List Instruction,
      Checked.stream backend policy (Cursor.start (encode program)) =
        .ok (instructions, ⟨encode program, (encode program).length⟩) ∧
      ((Cursor.start (encode program)).stream backend policy).value =
        (instructions, ⟨encode program, (encode program).length⟩) ∧
      instructions.length = program.length ∧
      ∀ index source instruction, program[index]? = some source →
        instructions[index]? = some instruction →
        DecodesTo backend (encode (program.take index)).length source instruction := by
  have stream := stream_encode backend policy program short
  have within : (Cursor.start (encode program)).position ≤ (Cursor.start (encode program)).length :=
    Nat.zero_le _
  refine ⟨decoded backend policy program, ?_, stream, length_decoded backend policy program, ?_⟩
  · rw [Checked.stream_ok backend policy within, stream]
  · intro index source instruction found result
    rw [decoded, List.getElem?_map, getElem?_placedFrom, found, Nat.zero_add] at result
    cases result
    have fit := length_encode_take found
    exact source.decodesTo_decode backend policy (by omega)

/-- A jump table that leads back to its own start, and an escaped opcode behind it. -/
def loopThenIndex : List AbstractInstruction :=
  [⟨0x45, ⟨"switch", .switch⟩, by decide +kernel, .table [-13, 2], rfl⟩,
    ⟨0xFE0C, ⟨"ldloc", .varIndex⟩, by decide +kernel, .index (-2), rfl⟩]

theorem stream_encode_decodes_loopThenIndex :
    AbstractInstruction.encode loopThenIndex =
        [0x45, 2, 0, 0, 0, 0xF3, 0xFF, 0xFF, 0xFF, 2, 0, 0, 0, 0xFE, 0x0C, 0xFE, 0xFF] ∧
      ∃ instructions, Checked.stream Symbols.empty.backend .nop
          (Cursor.start (AbstractInstruction.encode loopThenIndex)) =
          .ok (instructions, ⟨AbstractInstruction.encode loopThenIndex, 17⟩) ∧
        instructions.length = 2 ∧
        ∀ instruction, instructions[1]? = some instruction →
          instruction.offset.toNat = 13 ∧ instruction.operandText = some "-2" := by
  refine ⟨by decide +kernel, ?_⟩
  obtain ⟨instructions, run, _, length, each⟩ :=
    stream_encode_decodes loopThenIndex (by decide +kernel) Symbols.empty.backend .nop
  refine ⟨instructions, run, length, ?_⟩
  intro instruction result
  have decodes := each 1 _ instruction rfl result
  exact ⟨decodes.offset_eq, decodes.text_eq⟩

end CilListing
