import CilListing.Metadata.Symbols
import CilListing.Proofs.InstructionTiling
import CilListing.Proofs.ListingWords
import CilListing.Proofs.OperandRendering

namespace CilListing

/-- Whether operands of the kind are shown as the positions that they lead to. -/
def OperandKind.isTarget : OperandKind → Bool
  | shortBranchTarget | longBranchTarget | switch => true
  | _ => false

/-- The text with every label in it moved on by `distance`. Positions go round at 32 bits. -/
def moveLabels (distance : Nat) : List Char → List Char
  | 'I' :: 'L' :: '_' :: rest =>
    let digits := rest.takeWhile (· ∈ upperDigits)
    (label ((hexValue digits + distance) % 2 ^ 32)).toList ++
      moveLabels distance (rest.dropWhile (· ∈ upperDigits))
  | char :: rest => char :: moveLabels distance rest
  | [] => []
termination_by chars => chars.length
decreasing_by
  · have shorter := List.length_dropWhile_le (· ∈ upperDigits) rest
    simp only [List.length_cons]
    omega
  · simp

/-- The instruction as it reads where all of its code stands `distance` bytes further on. -/
def Instruction.relocate (distance : Nat) (instruction : Instruction) : Instruction :=
  { instruction with
    offset := (instruction.offset.toNat + distance).toUInt32
    operandText :=
      if instruction.opcode.kind.isTarget then
        instruction.operandText.map fun text => String.ofList (moveLabels distance text.toList)
      else instruction.operandText }

/-- Instructions that cover all of the code, the last one with its whole operand. -/
structure CoverWhole (code : List UInt8) (instructions : List Instruction) : Prop where
  covered : (instructions.map fun instruction => instruction.size.toNat).sum = code.length
  full : ∀ instruction ∈ instructions, instruction.size.toNat = instruction.fullSize code

section Labels

variable (distance : Nat)

theorem moveLabels_nil : moveLabels distance [] = [] := by rw [moveLabels]

/-- Where no label begins, a character stays. -/
theorem moveLabels_cons {char : Char} (other : char ≠ 'I') (rest : List Char) :
    moveLabels distance (char :: rest) = char :: moveLabels distance rest := by
  rw [moveLabels]
  rintro later rfl
  exact absurd rfl other

/-- A label is moved as a whole if what follows it does not go on with its digits. -/
theorem moveLabels_label_append (position : Nat) {rest : List Char}
    (ends : ∀ char ∈ rest.head?, char ∉ upperDigits) :
    moveLabels distance ((label position).toList ++ rest) =
      (label ((position + distance) % 2 ^ 32)).toList ++ moveLabels distance rest := by
  have digits : ∀ char ∈ (hexUpper 4 position).toList, decide (char ∈ upperDigits) = true :=
    fun char member => decide_eq_true (mem_upperDigits_of_mem_hexUpper member)
  have stop : rest.takeWhile (· ∈ upperDigits) = [] ∧ rest.dropWhile (· ∈ upperDigits) = rest := by
    cases rest with
    | nil => exact ⟨rfl, rfl⟩
    | cons char later =>
      have other : ¬ decide (char ∈ upperDigits) = true := by
        rw [decide_eq_true_eq]
        exact ends char rfl
      exact ⟨List.takeWhile_cons_of_neg other, List.dropWhile_cons_of_neg other⟩
  rw [label_toList, List.cons_append, List.cons_append, List.cons_append, moveLabels]
  simp only [List.takeWhile_append_of_pos digits, List.dropWhile_append_of_pos digits, stop.1, stop.2,
    List.append_nil, hexValue_hexUpper]

/-- The list of labels in a jump table is moved label by label. -/
theorem moveLabels_intercalate (positions : List Nat) :
    moveLabels distance (", ".toList.intercalate (positions.map fun each => (label each).toList) ++ [')']) =
      ", ".toList.intercalate (positions.map fun each => (label ((each + distance) % 2 ^ 32)).toList) ++
        [')'] := by
  have close : moveLabels distance [')'] = [')'] := by
    rw [moveLabels_cons distance (by decide), moveLabels_nil]
  have gap (rest : List Char) : moveLabels distance (", ".toList ++ rest) =
      ", ".toList ++ moveLabels distance rest := by
    show moveLabels distance (',' :: ' ' :: rest) = ',' :: ' ' :: moveLabels distance rest
    rw [moveLabels_cons distance (by decide), moveLabels_cons distance (by decide)]
  induction positions with
  | nil => exact close
  | cons position later ih =>
    cases later with
    | nil =>
      have ends : ∀ char ∈ [')'].head?, char ∉ upperDigits := by
        rintro _ ⟨⟩
        decide
      simp only [List.map_cons, List.map_nil, List.intercalate_singleton]
      rw [moveLabels_label_append distance position ends, close]
    | cons next others =>
      have ends (rest : List Char) : ∀ char ∈ (", ".toList ++ rest).head?, char ∉ upperDigits := by
        rintro _ ⟨⟩
        decide
      simp only [List.map_cons, List.intercalate_cons_cons, List.append_assoc] at ih ⊢
      rw [moveLabels_label_append distance position (ends _), gap, ih]

end Labels

section Targets

/-- Where the base moves on, so does the position that a displacement leads to. -/
theorem positionFrom_add (base distance : Nat) (displacement : Int) :
    positionFrom (base + distance) displacement = (positionFrom base displacement + distance) % 2 ^ 32 := by
  unfold positionFrom
  push_cast
  omega

variable (distance base : Nat)

theorem moveLabels_labelFrom (displacement : Int) :
    String.ofList (moveLabels distance (labelFrom base displacement).toList) =
      labelFrom (base + distance) displacement := by
  have ends : ∀ char ∈ ([] : List Char).head?, char ∉ upperDigits := nofun
  have moved := moveLabels_label_append distance (positionFrom base displacement) ends
  rw [List.append_nil, moveLabels_nil, List.append_nil] at moved
  rw [labelFrom, moved, String.ofList_toList, labelFrom, positionFrom_add]

theorem moveLabels_table (displacements : List Int) :
    String.ofList (moveLabels distance
        ("(" ++ ", ".intercalate (displacements.map (labelFrom base)) ++ ")").toList) =
      "(" ++ ", ".intercalate (displacements.map (labelFrom (base + distance))) ++ ")" := by
  have toList (start : Nat) :
      ("(" ++ ", ".intercalate (displacements.map (labelFrom start)) ++ ")").toList =
        '(' :: (", ".toList.intercalate
          ((displacements.map (positionFrom start)).map fun each => (label each).toList) ++ [')']) := by
    simp only [String.toList_append, String.toList_intercalate, List.map_map, List.append_assoc]
    rfl
  have moved : (displacements.map (positionFrom (base + distance))).map (fun each => (label each).toList) =
      (displacements.map (positionFrom base)).map
        fun each => (label ((each + distance) % 2 ^ 32)).toList := by
    simp only [List.map_map, Function.comp_def, positionFrom_add]
  rw [← String.toList_inj, String.toList_ofList, toList, toList, moveLabels_cons distance (by decide),
    moveLabels_intercalate, moved]

end Targets

section Decode

variable (backend : Backend) (distance : Nat)

/-- Of all operands only those that lead somewhere read differently further on. -/
theorem Operand.text_add {operand : Operand} {kind : OperandKind} (fits : operand.kind? = some kind)
    (next : Nat) :
    (operand.text backend (next + distance)).value =
      if kind.isTarget then
        (operand.text backend next).value.map fun text => String.ofList (moveLabels distance text.toList)
      else (operand.text backend next).value := by
  rw [text_value, text_value]
  cases operand with
  | shortBranch displacement | longBranch displacement =>
    cases fits
    exact congrArg some (moveLabels_labelFrom distance next _).symm
  | table displacements =>
    cases fits
    have moved := moveLabels_table distance next (displacements.map Int32.toInt)
    rw [List.map_map, List.map_map] at moved
    exact congrArg some moved.symm
  | token hint value =>
    rw [kind?] at fits
    split at fits
    · next named =>
      cases fits
      cases kind with
      | stringToken | methodToken | fieldToken | typeToken | genericToken => rfl
      | _ => cases named
    · cases fits
  | cut | cutCount | cutTable => cases fits
  | _ => cases fits; rfl

/-- A frame that stands further on decodes to the relocated instruction. -/
theorem Frame.decode_add (policy : UnknownPolicy) {bytes : List UInt8} {frame : Frame}
    (found : read? bytes = some frame) (position : Nat) :
    (frame.decode backend policy (position + distance)).value =
      (frame.decode backend policy position).value.relocate distance := by
  have offset : (position + distance).toUInt32 = (position.toUInt32.toNat + distance).toUInt32 := by
    rw [← UInt32.toNat_inj]
    show (position + distance) % 2 ^ 32 = (position % 2 ^ 32 + distance) % 2 ^ 32
    omega
  have kind := kind_decode backend policy position frame
  rw [Instruction.relocate, kind, decode_value, decode_value, ← offset]
  by_cases known : frame.opcode.isDefined = true
  · simp only [known, if_true]
    have behind : position + distance + frame.width = position + frame.width + distance := by omega
    rw [behind]
    cases complete : frame.operand.isCut with
    | false => rw [Operand.text_add backend distance (kind?_of_read? found complete)]
    | true =>
      rw [Operand.text_of_isCut complete, Operand.text_of_isCut complete]
      simp
  · rw [opcode_eq_unknown known]
    rfl

end Decode

section Cutting

/-- More bytes behind a frame that is not cut short do not change it. -/
theorem Frame.read?_append {bytes : List UInt8} {frame : Frame} (found : read? bytes = some frame)
    (complete : frame.operand.isCut = false) (more : List UInt8) : read? (bytes ++ more) = some frame := by
  obtain ⟨rest, isCode, rfl, operand⟩ := exists_of_read? found
  have enough : frame.opcode.kind.need rest ≤ rest.length := by
    cases Operand.reads_read frame.opcode.kind rest with
    | complete _ need _ enough => rwa [← need]
    | cut isCut =>
      rw [operand, isCut] at complete
      cases complete
  rw [List.append_assoc, read?_codeBytes_append isCode]
  refine congrArg some (Frame.ext rfl ?_)
  rw [operand]
  exact Operand.read_append enough more

namespace Tiles

variable {position : Nat} {bytes rest : List UInt8} {frames : List PlacedFrame}

/-- Frames that cover all bytes with whole operands go on with those of the bytes behind. -/
theorem append (tiles : Tiles position bytes frames rest) (ended : rest = [])
    (complete : ∀ placed ∈ frames, placed.frame.operand.isCut = false) {more left : List UInt8}
    {others : List PlacedFrame} (later : Tiles (position + bytes.length) more others left) :
    Tiles position (bytes ++ more) (frames ++ others) left := by
  induction tiles with
  | stop =>
    subst ended
    exact later
  | @step position bytes frame frames rest found _ ih =>
    obtain ⟨first, others⟩ := List.forall_mem_cons.mp complete
    have within := Frame.width_le_of_read? found
    have finish : position + frame.width + (bytes.drop frame.width).length = position + bytes.length := by
      rw [List.length_drop]
      omega
    refine .step (Frame.read?_append found first more) ?_
    rw [List.drop_append_of_le_length within]
    refine ih ended others ?_
    rw [finish]
    exact later

/-- The frames of bytes do not depend on where the bytes stand. -/
theorem add (tiles : Tiles position bytes frames rest) (distance : Nat) :
    Tiles (position + distance) bytes
      (frames.map fun placed => ⟨placed.position + distance, placed.frame⟩) rest := by
  induction tiles with
  | stop ended => exact .stop ended
  | @step position bytes frame frames rest found _ ih =>
    refine .step found ?_
    rwa [Nat.add_right_comm] at ih

end Tiles

end Cutting

/-- Code that the instructions cover as a whole is cut into frames with nothing left over, and none
of them is cut short. -/
theorem CoverWhole.frames {code : List UInt8} {backend : Backend} {policy : UnknownPolicy}
    (short : code.length < 2 ^ 32)
    (whole : CoverWhole code ((Framing.cut 0 code).frames.map fun placed =>
      (placed.frame.decode backend policy placed.position).value)) :
    (Framing.cut 0 code).rest = [] ∧
      ∀ placed ∈ (Framing.cut 0 code).frames, placed.frame.operand.isCut = false := by
  have tiles := Framing.tiles_cut 0 code
  have within {placed : PlacedFrame} (member : placed ∈ (Framing.cut 0 code).frames) :
      placed.position + placed.frame.width ≤ code.length := by
    have ending := tiles.end_le member
    omega
  have size {placed : PlacedFrame} (member : placed ∈ (Framing.cut 0 code).frames) :=
    (offset_size_decode backend policy short (within member)).2
  constructor
  · have covered := whole.covered
    rw [List.map_map] at covered
    have widths : ((Framing.cut 0 code).frames.map fun placed => placed.frame.width).sum = code.length := by
      rw [← covered]
      exact congrArg List.sum (List.map_congr_left fun placed member => (size member).symm)
    have total := tiles.covered_add_rest
    rw [Tiles.covered, widths] at total
    exact List.length_eq_zero_iff.mp (by omega)
  · intro placed member
    have full := whole.full _ (List.mem_map_of_mem member)
    rw [size member] at full
    exact not_isCut_of_fullSize backend policy short (within member) (tiles.read?_of_mem member).2 full

/-- Code behind code that ends with a whole instruction is decoded as it is on its own, but for its
place: offsets and targets move on by the length of what stands in front. -/
theorem decode_append_relocates (first second : List UInt8) (short : first.length + second.length < 2 ^ 32)
    (header : MethodHeader) (backend : Backend) (policy : UnknownPolicy)
    (whole : CoverWhole first (Disassembly.decode first header backend policy).value.instructions) :
    let later := (Disassembly.decode second header backend policy).value.instructions
    (Disassembly.decode (first ++ second) header backend policy).value.instructions =
        (Disassembly.decode first header backend policy).value.instructions ++
          later.map (Instruction.relocate first.length) ∧
      ∀ instruction ∈ later, (instruction.relocate first.length).offset.toNat =
        instruction.offset.toNat + first.length := by
  intro later
  have laterEq : later = (Framing.cut 0 second).frames.map fun placed =>
      (placed.frame.decode backend policy placed.position).value :=
    Disassembly.instructions_decode ..
  have tiles := Framing.tiles_cut 0 second
  rw [Disassembly.instructions_decode] at whole
  obtain ⟨ended, complete⟩ := whole.frames (by omega)
  have joined := (Framing.tiles_cut 0 first).append ended complete (tiles.add first.length)
  constructor
  · rw [Disassembly.instructions_decode, Disassembly.instructions_decode, joined.eq_cut, List.map_append,
      laterEq, List.map_map, List.map_map]
    congr 1
    apply List.map_congr_left
    intro placed member
    exact Frame.decode_add backend first.length policy (tiles.read?_of_mem member).2 placed.position
  · rw [laterEq]
    intro instruction member
    obtain ⟨placed, inside, rfl⟩ := List.mem_map.mp member
    have ending := tiles.end_le inside
    have offset := (offset_size_decode backend policy (show second.length < 2 ^ 32 by omega)
      (show placed.position + placed.frame.width ≤ second.length by omega)).1
    rw [Instruction.relocate, offset]
    exact Nat.mod_eq_of_lt (by omega)

/-- A branch that leads to below zero on its own finds a place once a constant stands in front. -/
theorem decode_append_relocates_belowZero :
    let first : List UInt8 := [0x20, 7, 0, 0, 0]
    let second : List UInt8 := [0x2B, 0xFB, 0x45, 1, 0, 0, 0, 0xF0, 0xFF, 0xFF, 0xFF]
    let decode (code : List UInt8) :=
      (Disassembly.decode code (.plain 8) Symbols.empty.backend .mark).value.instructions
    first.length + second.length < 2 ^ 32 ∧ CoverWhole first (decode first) ∧
      (decode second).map (·.operandText) = [some "IL_FFFFFFFD", some "(IL_FFFFFFFB)"] ∧
      decode (first ++ second) = decode first ++
        [⟨5, 2, 0x2B, Opcode.ofByte 0x2B, some "IL_0002", none⟩,
          ⟨7, 9, 0x45, Opcode.ofByte 0x45, some "(IL_0000)", none⟩] := by
  intro first second decode
  have short : first.length + second.length < 2 ^ 32 := by decide
  have whole : CoverWhole first (decode first) := ⟨by decide +kernel, by decide +kernel⟩
  have joined := (decode_append_relocates first second short (.plain 8) Symbols.empty.backend .mark whole).1
  have moved : (decode second).map (Instruction.relocate first.length) =
      [⟨5, 2, 0x2B, Opcode.ofByte 0x2B, some "IL_0002", none⟩,
        ⟨7, 9, 0x45, Opcode.ofByte 0x45, some "(IL_0000)", none⟩] := by decide +kernel
  exact ⟨short, whole, by decide +kernel, joined.trans (congrArg (decode first ++ ·) moved)⟩

end CilListing
