import CilListing.Metadata.Symbols
import CilListing.Proofs.InstructionTiling
import CilListing.Proofs.ListingWords
import CilListing.Proofs.OperandRendering

namespace CilListing

/-- The integer that the first `width` bytes hold in two's complement. -/
def signedLittleEndian (width : Nat) (bytes : List UInt8) : Int :=
  (littleEndian (bytes.take width) : Int).bmod (256 ^ width)

namespace Instruction

/-- The bytes behind the opcode, up to the end of the code. -/
def operandBytes (code : List UInt8) (instruction : Instruction) : List UInt8 :=
  code.drop (instruction.offset.toNat + instruction.opcodeLength)

/-- The displacements that stand behind the opcode of a branch or a switch. A switch has their
number in front of them. -/
def displacements (code : List UInt8) (instruction : Instruction) : List Int :=
  let bytes := instruction.operandBytes code
  match instruction.opcode.kind with
  | .shortBranchTarget => [signedLittleEndian 1 bytes]
  | .longBranchTarget => [signedLittleEndian 4 bytes]
  | .switch => (List.range (littleEndian (bytes.take 4))).map fun index =>
      signedLittleEndian 4 (bytes.drop (4 + 4 * index))
  | _ => []

end Instruction

/-- The text stands at the front of a line, where a colon ends it. -/
def Heads (text line : String) : Prop := (text ++ ": ").toList <+: line.toList

/-- An instruction among others names the places that it leads to as their lines do. -/
structure NamesTargets (code : List UInt8) (tokens : Bool) (instructions : List Instruction)
    (instruction : Instruction) : Prop where
  short : instruction.opcode.kind = .shortBranchTarget → instruction.operandText =
    some (labelFrom instruction.nextOffset (signedLittleEndian 1 (instruction.operandBytes code)))
  long : instruction.opcode.kind = .longBranchTarget → instruction.operandText =
    some (labelFrom instruction.nextOffset (signedLittleEndian 4 (instruction.operandBytes code)))
  table : instruction.opcode.kind = .switch → instruction.operandText =
    some ("(" ++ ", ".intercalate
      ((instruction.displacements code).map (labelFrom instruction.nextOffset)) ++ ")")
  label_iff : ∀ displacement ∈ instruction.displacements code, ∀ other ∈ instructions,
    (labelFrom instruction.nextOffset displacement = label other.offset.toNat ↔
      instruction.nextOffset + displacement ≡ other.offset.toNat [ZMOD 2 ^ 32])
  heading_iff : ∀ displacement ∈ instruction.displacements code, ∀ other ∈ instructions,
    (Heads (labelFrom instruction.nextOffset displacement) (Disassembly.instructionLine tokens other) ↔
      instruction.nextOffset + displacement ≡ other.offset.toNat [ZMOD 2 ^ 32])

section Heading

theorem label_inj {first second : Nat} : label first = label second ↔ first = second :=
  ⟨fun same => label_injective (congrArg String.toList same), congrArg label⟩

theorem heads_line (tokens : Bool) (instruction : Instruction) :
    Heads (label instruction.offset.toNat) (Disassembly.instructionLine tokens instruction) := by
  rw [Heads, Disassembly.instructionLine, Instruction.text]
  simp only [String.toList_append, List.append_assoc]
  exact ⟨_, List.append_assoc ..⟩

/-- A label heads the line of an instruction only if it is the label of its offset. -/
theorem heads_label_iff {position : Nat} (tokens : Bool) (instruction : Instruction) :
    Heads (label position) (Disassembly.instructionLine tokens instruction) ↔
      position = instruction.offset.toNat := by
  have free (offset : Nat) : ':' ∉ (label offset).toList := notMem_label (by decide) (by decide) offset
  constructor
  · rintro ⟨rest, same⟩
    obtain ⟨behind, line⟩ := heads_line tokens instruction
    rw [← line, String.toList_append, String.toList_append, List.append_assoc, List.append_assoc] at same
    exact label_injective (append_stop_inj (free _) (free _) same).1
  · rintro rfl
    exact heads_line tokens instruction

/-- Going round at 32 bits is counting up to a multiple of `2 ^ 32`. -/
theorem positionFrom_eq_iff (base : Nat) (displacement : Int) (offset : UInt32) :
    positionFrom base displacement = offset.toNat ↔
      (base + displacement : Int) ≡ offset.toNat [ZMOD 2 ^ 32] := by
  have bound : (offset.toNat : Int) < 2 ^ 32 := by exact_mod_cast offset.toNat_lt
  have low : (offset.toNat : Int) % 2 ^ 32 = offset.toNat := Int.emod_eq_of_lt (by omega) bound
  have positive : 0 ≤ ((base : Int) + displacement) % 2 ^ 32 := Int.emod_nonneg _ (by decide)
  rw [positionFrom, Int.ModEq, low]
  omega

end Heading

section Reading

theorem toInt_int8 (bytes : List UInt8) :
    (Int8.ofNat (littleEndian (bytes.take 1))).toInt = signedLittleEndian 1 bytes := Int8.toInt_ofNat'

theorem toInt_int32 (bytes : List UInt8) :
    (Int32.ofNat (littleEndian (bytes.take 4))).toInt = signedLittleEndian 4 bytes := Int32.toInt_ofNat'

/-- The entries of a jump table are the words at every fourth byte. -/
theorem displacements_eq_range {bytes : List UInt8} {count : Nat} (enough : 4 * count ≤ bytes.length) :
    (Operand.displacements (bytes.take (4 * count))).map Int32.toInt =
      (List.range count).map fun index => signedLittleEndian 4 (bytes.drop (4 * index)) := by
  induction count generalizing bytes with
  | zero => rfl
  | succ count ih =>
    match bytes, enough with
    | b0 :: b1 :: b2 :: b3 :: rest, enough =>
      have later : 4 * count ≤ rest.length := by
        simp only [List.length_cons] at enough
        omega
      have front : (b0 :: b1 :: b2 :: b3 :: rest).take (4 * (count + 1)) =
          b0 :: b1 :: b2 :: b3 :: rest.take (4 * count) := rfl
      have word : (Int32.ofNat (littleEndian [b0, b1, b2, b3])).toInt =
          signedLittleEndian 4 (b0 :: b1 :: b2 :: b3 :: rest) := toInt_int32 (b0 :: b1 :: b2 :: b3 :: rest)
      have shift (index : Nat) : (b0 :: b1 :: b2 :: b3 :: rest).drop (4 * (index + 1)) =
          rest.drop (4 * index) := rfl
      rw [front, Operand.displacements_cons, List.map_cons, word, ih later, List.range_succ_eq_map,
        List.map_cons, List.map_map]
      simp only [Function.comp_def, Nat.succ_eq_add_one, shift, Nat.mul_zero, List.drop_zero]

variable {bytes : List UInt8} (backend : Backend) (next : Nat)

theorem rendering_shortBranch (enough : OperandKind.need .shortBranchTarget bytes ≤ bytes.length) :
    (Operand.read .shortBranchTarget bytes).rendering backend next =
      some (labelFrom next (signedLittleEndian 1 bytes)) := by
  have known : OperandKind.width? .shortBranchTarget = some 1 := rfl
  rw [Operand.read_of_enough known enough, Operand.ofPattern, Operand.rendering, toInt_int8]

theorem rendering_longBranch (enough : OperandKind.need .longBranchTarget bytes ≤ bytes.length) :
    (Operand.read .longBranchTarget bytes).rendering backend next =
      some (labelFrom next (signedLittleEndian 4 bytes)) := by
  have known : OperandKind.width? .longBranchTarget = some 4 := rfl
  rw [Operand.read_of_enough known enough, Operand.ofPattern, Operand.rendering, toInt_int32]

theorem rendering_switch (enough : OperandKind.need .switch bytes ≤ bytes.length) :
    (Operand.read .switch bytes).rendering backend next =
      some ("(" ++ ", ".intercalate (((List.range (littleEndian (bytes.take 4))).map fun index =>
        signedLittleEndian 4 (bytes.drop (4 + 4 * index))).map (labelFrom next)) ++ ")") := by
  have counted : 4 ≤ bytes.length := by
    by_contra short
    rw [Operand.need_switch_of_short (by omega)] at enough
    omega
  have entries : 4 + 4 * littleEndian (bytes.take 4) ≤ bytes.length := by
    rwa [Operand.need_switch_of_counted counted] at enough
  have room : 4 * littleEndian (bytes.take 4) ≤ (bytes.drop 4).length := by
    rw [List.length_drop]
    omega
  have words := displacements_eq_range room
  simp only [List.drop_drop] at words
  rw [Operand.read_switch_of_enough counted entries, Operand.rendering, ← words, List.map_map]
  rfl

end Reading

section Placed

variable {code : List UInt8} {placed : PlacedFrame} (backend : Backend) (policy : UnknownPolicy)

/-- In code of less than 32 bits of length, the next offset is not held back. -/
theorem nextOffset_decode (short : code.length < 2 ^ 32)
    (within : placed.position + placed.frame.width ≤ code.length) :
    (placed.frame.decode backend policy placed.position).value.nextOffset =
      placed.position + placed.frame.width := by
  obtain ⟨offset, size⟩ := offset_size_decode backend policy short within
  rw [Instruction.nextOffset, offset, size]
  omega

/-- A frame of full size shows the operand that is read behind its opcode, and all bytes of the
operand are there. -/
theorem operandText_decode (short : code.length < 2 ^ 32)
    (within : placed.position + placed.frame.width ≤ code.length)
    (found : Frame.read? (code.drop placed.position) = some placed.frame) {instruction : Instruction}
    (decoded : (placed.frame.decode backend policy placed.position).value = instruction)
    (full : instruction.size.toNat = instruction.fullSize code)
    (asks : instruction.opcode.kind ≠ .none) :
    instruction.opcode.kind.need (instruction.operandBytes code) ≤ (instruction.operandBytes code).length ∧
      instruction.operandText = (Operand.read instruction.opcode.kind
        (instruction.operandBytes code)).rendering backend instruction.nextOffset := by
  obtain ⟨rest, _, split, operand⟩ := Frame.exists_of_read? found
  obtain ⟨offset, size⟩ := offset_size_decode backend policy short within
  have next := nextOffset_decode backend policy short within
  have kind := Frame.kind_decode backend policy placed.position placed.frame
  -- An opcode that is not defined asks for no operand and shows none.
  have known : placed.frame.opcode.isDefined = true := by
    by_contra undefined
    rw [decoded, Frame.opcode_eq_unknown undefined] at kind
    exact asks kind
  have opcodeLength := opcodeLength_decode backend policy placed.position placed.frame
  rw [decoded] at offset size next kind opcodeLength
  have behind : instruction.operandBytes code = rest := by
    rw [Instruction.operandBytes, offset, opcodeLength, Frame.drop_opcodeWidth split]
  have text : instruction.operandText = (placed.frame.operand.text backend instruction.nextOffset).value := by
    rw [next, ← decoded, Frame.decode_value]
    exact if_pos known
  constructor
  -- The frame fits into the code, and it is as wide as the opcode and all that its kind needs.
  · have room := Frame.width_le_of_read? found
    have total : placed.frame.width = placed.frame.opcodeWidth +
        instruction.opcode.kind.need (instruction.operandBytes code) := by
      rw [← size, full, ← opcodeLength]
      rfl
    rw [split, List.length_append, Frame.length_codeBytes, ← behind] at room
    omega
  · rw [text, Operand.text_value, operand, kind, behind]

/-- The line of an instruction of full size says where it leads to. -/
theorem namesTargets_decode (short : code.length < 2 ^ 32)
    (within : placed.position + placed.frame.width ≤ code.length)
    (found : Frame.read? (code.drop placed.position) = some placed.frame) {instruction : Instruction}
    (decoded : (placed.frame.decode backend policy placed.position).value = instruction)
    (full : instruction.size.toNat = instruction.fullSize code) (tokens : Bool)
    (instructions : List Instruction) : NamesTargets code tokens instructions instruction := by
  have read := operandText_decode backend policy short within found decoded full
  constructor
  case short =>
    intro kind
    rw [kind] at read
    obtain ⟨enough, text⟩ := read (by decide)
    rw [text, rendering_shortBranch backend _ enough]
  case long =>
    intro kind
    rw [kind] at read
    obtain ⟨enough, text⟩ := read (by decide)
    rw [text, rendering_longBranch backend _ enough]
  case table =>
    intro kind
    rw [kind] at read
    obtain ⟨enough, text⟩ := read (by decide)
    rw [text, rendering_switch backend _ enough, Instruction.displacements, kind]
  case label_iff =>
    intro displacement _ other _
    rw [labelFrom, label_inj, positionFrom_eq_iff]
  case heading_iff =>
    intro displacement _ other _
    rw [labelFrom, heads_label_iff, positionFrom_eq_iff]

end Placed

/-- Branches, jump tables and lines count positions alike: each target is shown as the label of the
position it leads to, and that label heads the line of an instruction exactly if the displacement
leads to its offset. -/
theorem targets_numbered_as_lines (code : List UInt8) (short : code.length < 2 ^ 32) (header : MethodHeader)
    (backend : Backend) (options : ListingOptions) :
    let instructions := (Disassembly.decode code header backend options.unknown).value.instructions
    (∀ first second : UInt32, label first.toNat = label second.toNat → first = second) ∧
    (∀ instruction ∈ instructions, Heads (label instruction.offset.toNat)
      (Disassembly.instructionLine options.tokens instruction)) ∧
    ∀ instruction ∈ instructions, instruction.size.toNat = instruction.fullSize code →
      NamesTargets code options.tokens instructions instruction := by
  refine ⟨?_, ?_, ?_⟩
  · intro first second same
    exact UInt32.toNat_inj.mp (label_inj.mp same)
  · intro instruction _
    exact heads_line options.tokens instruction
  · intro instruction member full
    have tiles := Framing.tiles_cut 0 code
    rw [Disassembly.decode, Traced.map, decodeStream_value] at member
    obtain ⟨placed, inside, decoded⟩ := List.mem_map.mp member
    have within := tiles.end_le inside
    rw [Nat.zero_add] at within
    exact namesTargets_decode backend options.unknown short within (tiles.read?_of_mem inside).2
      decoded full options.tokens _

/-- A jump table that leads back to its own start and round to the highest positions, and a short
branch back to the table. -/
def backAndRound : List UInt8 :=
  [0x45, 2, 0, 0, 0, 0xF3, 0xFF, 0xFF, 0xFF, 0x80, 0xFF, 0xFF, 0xFF, 0x2B, 0xF1]

theorem targets_numbered_as_lines_backAndRound :
    let instructions :=
      (Disassembly.decode backAndRound (.plain 8) Symbols.empty.backend .mark).value.instructions
    backAndRound.length < 2 ^ 32 ∧
      ∃ instruction ∈ instructions, instruction.size.toNat = instruction.fullSize backAndRound ∧
        instruction.operandText = some "(IL_0000, IL_FFFFFF8D)" ∧
        NamesTargets backAndRound false instructions instruction := by
  intro instructions
  have tiles : Tiles 0 backAndRound
      [⟨0, ⟨0x45, .table [-13, -128]⟩⟩, ⟨13, ⟨0x2B, .shortBranch (-15)⟩⟩] [] :=
    .step (by decide +kernel) (.step (by decide +kernel) (.stop (by decide +kernel)))
  let switch := (Frame.decode Symbols.empty.backend .mark 0 ⟨0x45, .table [-13, -128]⟩).value
  have member : switch ∈ instructions := by
    show switch ∈ (decodeStream Symbols.empty.backend .mark 0 backAndRound).value
    rw [decodeStream_value, tiles.eq_cut]
    exact List.mem_cons_self ..
  have full : switch.size.toNat = switch.fullSize backAndRound := by decide +kernel
  have text : switch.operandText = some "(IL_0000, IL_FFFFFF8D)" := by decide +kernel
  have names := (targets_numbered_as_lines backAndRound (by decide) (.plain 8) Symbols.empty.backend {}).2.2
  exact ⟨by decide, switch, member, full, text, names switch member full⟩

end CilListing
