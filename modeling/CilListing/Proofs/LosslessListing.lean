import CilListing.Listing
import CilListing.Proofs.BackendAgreement
import CilListing.Proofs.OperandText

namespace CilListing

/-- Code that ends with a whole instruction and holds no floating point constant that is no
number. -/
structure Intact (code : List UInt8) : Prop where
  rest : (Framing.cut 0 code).rest = []
  last : ∀ placed ∈ (Framing.cut 0 code).frames.getLast?, placed.frame.operand.isCut = false
  numbers : ∀ placed ∈ (Framing.cut 0 code).frames, placed.frame.operand.isNaN = false

section Line

theorem instructionLine_toList (instruction : Instruction) :
    (Disassembly.instructionLine true instruction).toList =
      (label instruction.offset.toNat).toList ++ ':' :: ' ' ::
        (instruction.opcode.mnemonic.toList ++ lineTail instruction.operandText instruction.token) := by
  obtain ⟨offset, size, code, opcode, operandText, token⟩ := instruction
  cases operandText <;> cases token <;>
    simp [Disassembly.instructionLine, Instruction.text, lineTail, tokenNote]

theorem lineTail_cases (text : Option String) (token : Option Token) :
    lineTail text token = [] ∨ ∃ rest, lineTail text token = ' ' :: rest := by
  cases text with
  | some shown => exact Or.inr ⟨_, rfl⟩
  | none =>
    cases token with
    | none => exact Or.inl rfl
    | some token =>
      rw [lineTail, Option.elim_none, Option.elim_some, List.nil_append, tokenNote_eq]
      exact Or.inr ⟨_, rfl⟩

/-- The first word of a line ends where a blank or the end of the line follows it. -/
theorem word_append_inj {first second tailFirst tailSecond : List Char} (wordFirst : ' ' ∉ first)
    (wordSecond : ' ' ∉ second) (blankFirst : tailFirst = [] ∨ ∃ rest, tailFirst = ' ' :: rest)
    (blankSecond : tailSecond = [] ∨ ∃ rest, tailSecond = ' ' :: rest)
    (same : first ++ tailFirst = second ++ tailSecond) : first = second ∧ tailFirst = tailSecond := by
  rcases blankFirst with rfl | ⟨restFirst, rfl⟩
  · rcases blankSecond with rfl | ⟨restSecond, rfl⟩
    · rw [List.append_nil, List.append_nil] at same
      exact ⟨same, rfl⟩
    · rw [List.append_nil] at same
      exact absurd (same ▸ List.mem_append_right _ (List.mem_cons_self ..)) wordFirst
  · rcases blankSecond with rfl | ⟨restSecond, rfl⟩
    · rw [List.append_nil] at same
      exact absurd (same ▸ List.mem_append_right _ (List.mem_cons_self ..)) wordSecond
    · obtain ⟨words, rests⟩ := append_stop_inj wordFirst wordSecond same
      exact ⟨words, congrArg (List.cons ' ') rests⟩

end Line

namespace Frame

/-- A frame that its line shows in full. -/
structure Legible (frame : Frame) : Prop where
  complete : frame.operand.isCut = false
  number : frame.operand.isNaN = false

/-- The line of a frame at `position`, with its token behind it. -/
def line (backend : Backend) (position : Nat) (frame : Frame) : List Char :=
  (Disassembly.instructionLine true (frame.decode backend .mark position).value).toList

theorem shown_mem {policy : UnknownPolicy} {bytes : List UInt8} {frame : Frame}
    (found : read? bytes = some frame) :
    (if frame.opcode.isDefined then frame.opcode else policy.opcode) ∈
      Opcode.unknown :: Opcode.defined.map Prod.snd := by
  obtain ⟨_, isCode, _, _⟩ := exists_of_read? found
  split
  · next known =>
    exact List.mem_cons_of_mem _ (List.mem_map_of_mem (Opcode.mem_defined_of_isDefined isCode known))
  · cases policy with
    | mark => exact List.mem_cons_self ..
    | nop => exact List.mem_cons_of_mem _ (List.mem_cons_self ..)

/-- Lines at one position that are the same have the same mnemonic, and the same behind it. -/
theorem parts_of_line {position : Nat} {bytesFirst bytesSecond : List UInt8} {first second : Frame}
    {firstBackend secondBackend : Backend} (foundFirst : read? bytesFirst = some first)
    (foundSecond : read? bytesSecond = some second)
    (same : first.line firstBackend position = second.line secondBackend position) :
    (first.decode firstBackend .mark position).value.opcode.mnemonic =
        (second.decode secondBackend .mark position).value.opcode.mnemonic ∧
      lineTail (first.decode firstBackend .mark position).value.operandText
          (first.decode firstBackend .mark position).value.token =
        lineTail (second.decode secondBackend .mark position).value.operandText
          (second.decode secondBackend .mark position).value.token := by
  rw [line, line, instructionLine_toList, instructionLine_toList] at same
  rw [decode_value, decode_value] at same ⊢
  have behind := (List.cons.inj (List.cons.inj (List.append_cancel_left same)).2).2
  obtain ⟨words, tails⟩ := word_append_inj (Opcode.mnemonic_solid (shown_mem foundFirst)).1
    (Opcode.mnemonic_solid (shown_mem foundSecond)).1 (lineTail_cases _ _) (lineTail_cases _ _) behind
  exact ⟨String.toList_inj.mp words, tails⟩

/-- A complete frame is read back from its line. -/
theorem eq_of_line {position : Nat} {bytesFirst bytesSecond : List UInt8} {first second : Frame}
    {firstBackend secondBackend : Backend} (foundFirst : read? bytesFirst = some first)
    (foundSecond : read? bytesSecond = some second) (legibleFirst : first.Legible)
    (legibleSecond : second.Legible)
    (same : first.line firstBackend position = second.line secondBackend position) : first = second := by
  obtain ⟨mnemonics, tails⟩ := parts_of_line foundFirst foundSecond same
  obtain ⟨_, isCodeFirst, _, _⟩ := exists_of_read? foundFirst
  obtain ⟨_, isCodeSecond, _, _⟩ := exists_of_read? foundSecond
  have fitsFirst := kind?_of_read? foundFirst legibleFirst.complete
  have fitsSecond := kind?_of_read? foundSecond legibleSecond.complete
  rw [decode_value, decode_value] at mnemonics tails
  by_cases knownFirst : first.opcode.isDefined = true
  · have listedFirst := Opcode.mem_defined_of_isDefined isCodeFirst knownFirst
    by_cases knownSecond : second.opcode.isDefined = true
    · have listedSecond := Opcode.mem_defined_of_isDefined isCodeSecond knownSecond
      simp only [knownFirst, knownSecond, if_true] at mnemonics tails
      have codes : first.code = second.code :=
        congrArg Prod.fst (Opcode.entry_eq_of_mnemonic_eq listedFirst listedSecond mnemonics)
      have kinds : second.opcode.kind = first.opcode.kind := by rw [opcode, opcode, codes]
      have leads : second.opcodeWidth = first.opcodeWidth := by rw [opcodeWidth, opcodeWidth, codes]
      rw [kinds] at fitsSecond
      rw [width, width, leads, ← Nat.add_assoc, ← Nat.add_assoc] at tails
      have operands := Operand.eq_of_lineTail fitsFirst fitsSecond legibleFirst.number legibleSecond.number
        tails
      exact Frame.ext codes operands
    · simp only [knownFirst, knownSecond, if_true] at mnemonics
      exact absurd mnemonics (Opcode.mnemonic_ne_unknown listedFirst)
  · by_cases knownSecond : second.opcode.isDefined = true
    · simp only [knownFirst, knownSecond, if_true] at mnemonics
      have listedSecond := Opcode.mem_defined_of_isDefined isCodeSecond knownSecond
      exact absurd mnemonics.symm (Opcode.mnemonic_ne_unknown listedSecond)
    · -- Both are marked as unknown, with the bytes of their codes behind the mark.
      simp only [knownFirst, knownSecond] at tails
      have codes := codeBytesText_injective (lineTail_inj tails)
      have operands : first.operand = second.operand := by
        rw [operand_eq_absent foundFirst knownFirst, operand_eq_absent foundSecond knownSecond]
      exact Frame.ext codes operands

end Frame

section Stream

variable {firstBackend secondBackend : Backend}

/-- The lines of a stream of complete instructions give back its bytes. -/
theorem Tiles.bytes_eq_of_lines {position : Nat} {bytesFirst bytesSecond restFirst restSecond : List UInt8}
    {first second : List PlacedFrame} (tilesFirst : Tiles position bytesFirst first restFirst)
    (tilesSecond : Tiles position bytesSecond second restSecond)
    (endFirst : restFirst = []) (endSecond : restSecond = [])
    (legibleFirst : ∀ placed ∈ first, placed.frame.Legible)
    (legibleSecond : ∀ placed ∈ second, placed.frame.Legible)
    (same : (first.map fun placed => placed.frame.line firstBackend placed.position) =
      second.map fun placed => placed.frame.line secondBackend placed.position) :
    bytesFirst = bytesSecond := by
  -- Both streams stand at one position, and equal frames there take them to the next one together.
  induction tilesFirst generalizing bytesSecond second with
  | stop =>
    cases tilesSecond with
    | stop => rw [endFirst, endSecond]
    | step => exact absurd same.symm (List.cons_ne_nil _ _)
  | @step position bytesFirst frameFirst first restFirst foundFirst _ ih =>
    cases tilesSecond with
    | stop => exact absurd same (List.cons_ne_nil _ _)
    | @step _ _ frameSecond second _ foundSecond later =>
      rw [List.map_cons, List.map_cons] at same
      obtain ⟨heads, tails⟩ := List.cons.inj same
      obtain ⟨headFirst, laterFirst⟩ := List.forall_mem_cons.mp legibleFirst
      obtain ⟨headSecond, laterSecond⟩ := List.forall_mem_cons.mp legibleSecond
      obtain rfl := Frame.eq_of_line foundFirst foundSecond headFirst headSecond heads
      have rests := ih later endFirst laterFirst laterSecond tails
      rw [← Frame.bytes_append_drop foundFirst headFirst.complete, rests,
        Frame.bytes_append_drop foundSecond headSecond.complete]

end Stream

theorem Disassembly.oneLine_instructionLine (tokens : Bool) {instruction : Instruction}
    (mnemonic : OneLine instruction.opcode.mnemonic)
    (operand : ∀ text ∈ instruction.operandText, OneLine text) :
    OneLine (instructionLine tokens instruction) := by
  unfold instructionLine Instruction.text
  simp only [oneLine_append]
  refine ⟨⟨⟨⟨oneLine_label _, by decide⟩, mnemonic⟩, ?_⟩, ?_⟩
  · split
    · next text held => exact oneLine_append.mpr ⟨by decide, operand text held⟩
    · decide
  · split
    · next token _ =>
      split
      · simp only [oneLine_append]
        exact ⟨⟨by decide, oneLine_token token⟩, by decide⟩
      · decide
    · decide

/-- Whatever a frame holds, its instruction takes a single line. -/
theorem Frame.oneLine_instructionLine {backend : Backend} (names : backend.NamesOnOneLine)
    (policy : UnknownPolicy) (tokens : Bool) (position : Nat) {bytes : List UInt8} {frame : Frame}
    (found : read? bytes = some frame) :
    OneLine (Disassembly.instructionLine tokens (frame.decode backend policy position).value) := by
  rw [decode_value]
  refine Disassembly.oneLine_instructionLine tokens (Opcode.mnemonic_solid (shown_mem found)).2 ?_
  intro each held
  dsimp only at held
  split at held
  · exact Operand.oneLine_text names held
  · cases policy with
    | mark => cases held; exact oneLine_codeBytesText frame.code
    | nop => cases held

theorem Frame.lineFeed_notMem_line {backend : Backend} (names : backend.NamesOnOneLine) (position : Nat)
    {bytes : List UInt8} {frame : Frame} (found : read? bytes = some frame) :
    '\n' ∉ frame.line backend position :=
  frame.oneLine_instructionLine names .mark true position found

theorem Disassembly.toList_render (disassembly : Disassembly) (options : ListingOptions) :
    (disassembly.render options).toList =
      ((disassembly.lines options).map String.toList).flatMap (· ++ ['\n']) := by
  unfold render
  simp only [String.toList_join, List.flatMap_map, String.toList_append]
  rfl

/-- The lines of the instructions alone, each with its token, and unknown opcodes marked. -/
def annotated : ListingOptions := { header := false, tokens := true, unknown := .mark }

theorem render_annotated (code : List UInt8) (header : MethodHeader) (backend : Backend) :
    ((Disassembly.decode code header backend .mark).value.render annotated).toList =
      ((Framing.cut 0 code).frames.map fun placed => placed.frame.line backend placed.position).flatMap
        (· ++ ['\n']) := by
  rw [Disassembly.toList_render, Disassembly.lines, Disassembly.instructions_decode]
  simp only [annotated, Bool.false_eq_true, if_false, List.nil_append, List.map_map]
  rfl

theorem Intact.legible {code : List UInt8} (intact : Intact code) :
    ∀ placed ∈ (Framing.cut 0 code).frames, placed.frame.Legible := by
  intro placed member
  refine ⟨?_, intact.numbers placed member⟩
  -- Only the last frame can be cut short.
  rw [← Bool.not_eq_true]
  intro isCut
  have last := ((Framing.tiles_cut 0 code).last_of_isCut member isCut).1
  rw [intact.last placed last] at isCut
  cases isCut

/-- An annotated listing is lossless: it belongs to one code only, whatever backends name its tokens. -/
theorem code_eq_of_listing_eq {firstCode secondCode : List UInt8} {firstHeader secondHeader : MethodHeader}
    {firstBackend secondBackend : Backend} (intactFirst : Intact firstCode) (intactSecond : Intact secondCode)
    (namesFirst : firstBackend.NamesOnOneLine) (namesSecond : secondBackend.NamesOnOneLine)
    (same : (Disassembly.decode firstCode firstHeader firstBackend .mark).value.render annotated =
      (Disassembly.decode secondCode secondHeader secondBackend .mark).value.render annotated) :
    firstCode = secondCode := by
  have feedless {code : List UInt8} {backend : Backend} (names : backend.NamesOnOneLine) :
      ∀ line ∈ (Framing.cut 0 code).frames.map fun placed => placed.frame.line backend placed.position,
        '\n' ∉ line := by
    intro line member
    obtain ⟨placed, inside, rfl⟩ := List.mem_map.mp member
    have found := ((Framing.tiles_cut 0 code).read?_of_mem inside).2
    exact placed.frame.lineFeed_notMem_line names placed.position found
  have texts := congrArg String.toList same
  rw [render_annotated, render_annotated] at texts
  have lines := flatMap_stop_inj (feedless namesFirst) (feedless namesSecond) texts
  exact (Framing.tiles_cut 0 firstCode).bytes_eq_of_lines (Framing.tiles_cut 0 secondCode)
    intactFirst.rest intactSecond.rest intactFirst.legible intactSecond.legible lines

/-- A jump table, a call, negative zero, an unknown opcode and one that is escaped. -/
def assorted : List UInt8 :=
  [0x45, 1, 0, 0, 0, 0xF7, 0xFF, 0xFF, 0xFF, 0x28, 1, 0, 0, 6, 0x22, 0, 0, 0, 0x80, 0xA6,
    0xFE, 0x0C, 0xFF, 0xFF]

theorem intact_assorted : Intact assorted := by
  have tiles : Tiles 0 assorted
      [⟨0, ⟨0x45, .table [-9]⟩⟩, ⟨9, ⟨0x28, .token .methodToken ⟨0x06000001⟩⟩⟩,
        ⟨14, ⟨0x22, .float32 0x80000000⟩⟩, ⟨19, ⟨0xA6, .absent⟩⟩, ⟨20, ⟨0xFE0C, .index (-1)⟩⟩] [] :=
    .step (by decide +kernel) (.step (by decide +kernel) (.step (by decide +kernel) (.step (by decide +kernel)
      (.step (by decide +kernel) (.stop (by decide +kernel))))))
  have framing := tiles.eq_cut
  refine ⟨?_, ?_, ?_⟩ <;> rw [framing]
  · decide
  · decide

/-- The listing of a code under a backend that fails and under one that crashes. -/
theorem code_eq_of_listing_eq_assorted :
    Intact assorted ∧ Backend.silent.NamesOnOneLine ∧ (Backend.crashing []).NamesOnOneLine ∧
      (Disassembly.decode assorted (.plain 8) Backend.silent .mark).value.render annotated =
        (Disassembly.decode assorted (.plain 8) (Backend.crashing []) .mark).value.render annotated ∧
      assorted = assorted := by
  have silent : Backend.silent.NamesOnOneLine := ⟨nofun, nofun, nofun⟩
  have crashing : (Backend.crashing []).NamesOnOneLine := ⟨nofun, nofun, nofun⟩
  have agree : Backend.silent.AgreeOutside ∅ (Backend.crashing []) :=
    Backend.silent_agreeOutside_crashing fun _ _ => rfl
  have decoded := (Disassembly.decode_sameOutside agree assorted (.plain 8) .mark).eq
  have same := congrArg (Disassembly.render · annotated) decoded
  exact ⟨intact_assorted, silent, crashing, same,
    code_eq_of_listing_eq intact_assorted intact_assorted silent crashing same⟩

end CilListing
