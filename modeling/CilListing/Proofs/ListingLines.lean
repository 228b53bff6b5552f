import CilListing.Proofs.LosslessListing

namespace CilListing

/-- The names of the types of locals hold no line feed. -/
def MethodHeader.TypesOnOneLine (header : MethodHeader) : Prop :=
  ∀ name, some name ∈ header.localTypes → OneLine name

/-- The three comments above a listing. -/
def commentLines (codeSize : Nat) (header : MethodHeader) : List String :=
  ["// Code size: " ++ toString codeSize ++ " (0x" ++ hexUpper 4 codeSize ++ ")",
    "// Max stack: " ++ toString header.maxStack.toNat,
    "// Locals: " ++ toString header.localTypes.length]

/-- The declaration of the locals, which are numbered from zero. There is none without locals. -/
def declarationLines (types : LocalTypes) : List String :=
  if types = [] then []
  else
    [".locals ("] ++
      types.mapIdx (fun index type => "    [" ++ toString index ++ "] " ++ type.getD "Unknown") ++ [")"]

/-- The lines above the instructions, the last of them empty. -/
def preamble (codeSize : Nat) (header : MethodHeader) : List String :=
  commentLines codeSize header ++ declarationLines header.localTypes ++ [""]

/-- The text of an instruction, with its token behind it if there is one and tokens are shown. -/
def annotatedText (tokens : Bool) (instruction : Instruction) : String :=
  match tokens, instruction.token with
  | true, some token => instruction.text ++ " /* " ++ token.text ++ " */"
  | _, _ => instruction.text

section Lines

theorem instructionLine_eq (tokens : Bool) (instruction : Instruction) :
    Disassembly.instructionLine tokens instruction = annotatedText tokens instruction := by
  obtain ⟨offset, size, code, opcode, operandText, token⟩ := instruction
  unfold Disassembly.instructionLine annotatedText
  cases token with
  | none => cases tokens <;> exact String.append_empty
  | some token =>
    cases tokens with
    | false => exact String.append_empty
    | true => simp only [if_true, String.append_assoc]

/-- Fewer locals than numbers of 32 bits keep the numbers of their places. -/
theorem localTexts_eq {types : LocalTypes} (few : types.length < 2 ^ 32) :
    (types.mapIdx fun index type => LocalVariable.ofType index.toUInt32 type).map
        (fun each => "    " ++ each.text) =
      types.mapIdx fun index type => "    [" ++ toString index ++ "] " ++ type.getD "Unknown" := by
  apply List.ext_getElem
  · simp only [List.length_map, List.length_mapIdx]
  · intro index _ bound
    rw [List.length_mapIdx] at bound
    have place : index.toUInt32.toNat = index := UInt32.toNat_ofNat_of_lt (bound.trans few)
    rw [List.getElem_map, List.getElem_mapIdx, List.getElem_mapIdx]
    simp only [LocalVariable.text, LocalVariable.ofType, place, ← String.append_assoc]
    rfl

variable (code : List UInt8) (header : MethodHeader) (backend : Backend) (policy : UnknownPolicy)

theorem localLines_decode (few : header.localTypes.length < 2 ^ 32) :
    (Disassembly.decode code header backend policy).value.localLines = declarationLines header.localTypes := by
  unfold Disassembly.localLines declarationLines
  simp only [Disassembly.decode, Traced.map, localTexts_eq few, List.isEmpty_iff, List.mapIdx_eq_nil_iff]

theorem headerLines_decode (few : header.localTypes.length < 2 ^ 32) :
    (Disassembly.decode code header backend policy).value.headerLines =
      preamble (code.length % 2 ^ 32) header := by
  have count : (Disassembly.decode code header backend policy).value.locals.length =
      header.localTypes.length := List.length_mapIdx
  unfold Disassembly.headerLines preamble commentLines
  rw [localLines_decode code header backend policy few, count]
  rfl

theorem oneLine_declarationLines {types : LocalTypes} (solid : ∀ name, some name ∈ types → OneLine name) :
    ∀ line ∈ declarationLines types, OneLine line := by
  intro line member
  unfold declarationLines at member
  split at member
  · cases member
  · rw [List.append_assoc, List.singleton_append, List.mem_cons, List.mem_append, List.mem_singleton] at member
    rcases member with rfl | declared | rfl
    · decide
    · obtain ⟨index, bound, rfl⟩ := List.mem_mapIdx.mp declared
      simp only [oneLine_append]
      refine ⟨⟨⟨by decide, oneLine_nat index⟩, by decide⟩, ?_⟩
      cases type : types[index] with
      | none => decide
      | some name => exact solid name (type ▸ List.getElem_mem bound)
    · decide

theorem oneLine_commentLines (codeSize : Nat) : ∀ line ∈ commentLines codeSize header, OneLine line := by
  intro line member
  simp only [commentLines, List.mem_cons, List.not_mem_nil, or_false] at member
  rcases member with rfl | rfl | rfl
  · simp only [oneLine_append]
    exact ⟨⟨⟨⟨by decide, oneLine_nat _⟩, by decide⟩, oneLine_hexUpper 4 _⟩, by decide⟩
  · exact oneLine_append.mpr ⟨by decide, oneLine_nat _⟩
  · exact oneLine_append.mpr ⟨by decide, oneLine_nat _⟩

theorem oneLine_preamble {header : MethodHeader} (types : header.TypesOnOneLine) (codeSize : Nat) :
    ∀ line ∈ preamble codeSize header, OneLine line := by
  intro line member
  unfold preamble at member
  rw [List.mem_append, List.mem_append, List.mem_singleton] at member
  rcases member with (comment | declaration) | rfl
  · exact oneLine_commentLines header codeSize line comment
  · exact oneLine_declarationLines types line declaration
  · decide

variable {backend}

/-- No instruction of any code breaks its line. -/
theorem oneLine_annotatedText (names : backend.NamesOnOneLine) (tokens : Bool) :
    ∀ instruction ∈ (Disassembly.decode code header backend policy).value.instructions,
      OneLine (annotatedText tokens instruction) := by
  intro instruction member
  rw [Disassembly.instructions_decode] at member
  obtain ⟨placed, inside, rfl⟩ := List.mem_map.mp member
  have found := ((Framing.tiles_cut 0 code).read?_of_mem inside).2
  rw [← instructionLine_eq]
  exact placed.frame.oneLine_instructionLine names policy tokens placed.position found

end Lines

/-- A listing whose lines hold no line feed falls apart into them at the line feeds. -/
theorem Disassembly.splitOn_render {disassembly : Disassembly} {options : ListingOptions}
    (solid : ∀ line ∈ disassembly.lines options, OneLine line) :
    (disassembly.render options).toList.splitOn '\n' =
      (disassembly.lines options ++ [""]).map String.toList := by
  have free : ∀ line ∈ (disassembly.lines options).map String.toList, '\n' ∉ line := by
    intro line member
    obtain ⟨each, inside, rfl⟩ := List.mem_map.mp member
    exact solid each inside
  rw [toList_render, splitOn_flatMap_stop free, List.map_append]
  rfl

/-- A listing has one line for each instruction, in order, below the lines that the header takes if it
is shown. Neither literals with line feeds nor anything else in the code can add a line. -/
theorem one_line_each (code : List UInt8) (header : MethodHeader) (backend : Backend)
    (options : ListingOptions) (few : header.localTypes.length < 2 ^ 32) (types : header.TypesOnOneLine)
    (names : backend.NamesOnOneLine) :
    let disassembly := (Disassembly.decode code header backend options.unknown).value
    (disassembly.render options).toList.splitOn '\n' =
      ((if options.header then preamble (code.length % 2 ^ 32) header else []) ++
        disassembly.instructions.map (annotatedText options.tokens) ++ [""]).map String.toList := by
  intro disassembly
  have lines : disassembly.lines options =
      (if options.header then preamble (code.length % 2 ^ 32) header else []) ++
        disassembly.instructions.map (annotatedText options.tokens) := by
    unfold Disassembly.lines
    rw [headerLines_decode code header backend options.unknown few, funext (instructionLine_eq options.tokens)]
  have solid : ∀ line ∈ disassembly.lines options, OneLine line := by
    intro line member
    rw [lines, List.mem_append] at member
    rcases member with above | shown
    · split at above
      · exact oneLine_preamble types _ line above
      · cases above
    · obtain ⟨instruction, inside, rfl⟩ := List.mem_map.mp shown
      exact oneLine_annotatedText code header options.unknown names options.tokens instruction inside
  rw [Disassembly.splitOn_render solid, lines]

/-- A string literal with a line feed in it, in a method with a local of a named type and one of
none. -/
theorem one_line_each_brokenLiteral :
    let symbols := Symbols.ofEntries [.string ⟨0x70000001⟩ "a\nb"]
    let header : MethodHeader := ⟨true, 8, [some "int", none]⟩
    header.localTypes.length < 2 ^ 32 ∧ header.TypesOnOneLine ∧ symbols.backend.NamesOnOneLine ∧
      ((Disassembly.decode [0x72, 1, 0, 0, 0x70, 0x2A] header symbols.backend .mark).value.render
          { tokens := true }).toList.splitOn '\n' =
        ["// Code size: 6 (0x0006)", "// Max stack: 8", "// Locals: 2", ".locals (", "    [0] int",
          "    [1] Unknown", ")", "", "IL_0000: ldstr \"a\\nb\" /* 0x70000001 */", "IL_0005: ret",
          ""].map String.toList := by
  intro symbols header
  have few : header.localTypes.length < 2 ^ 32 := by decide
  have types : header.TypesOnOneLine := by
    intro name member
    rcases List.mem_cons.mp member with same | none
    · cases same; decide
    · cases List.mem_singleton.mp none
  have names : symbols.backend.NamesOnOneLine := ⟨nofun, nofun, nofun⟩
  refine ⟨few, types, names, ?_⟩
  have split := one_line_each [0x72, 1, 0, 0, 0x70, 0x2A] header symbols.backend { tokens := true } few types
    names
  rw [split]
  decide +kernel

end CilListing
