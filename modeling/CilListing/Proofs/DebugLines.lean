import CilListing.Proofs.Encoding
import CilListing.Proofs.InstructionTiling
import CilListing.Proofs.UnknownPolicies

namespace CilListing

/-- The notes of one level among some events, in order. -/
def notesAt (level : Level) (events : List Event) : List Note :=
  (events.filterMap Event.note?).filter fun note => note.level = level

/-- The lines of one level that are logged on the way to a result. -/
def Traced.linesAt {α : Type} (level : Level) (traced : Traced α) : List String :=
  (notesAt level traced.events).map Note.text

/-- The line about an operand of some kind at position `start`, of which only these bytes are there. A
switch may lack a part of its case count, or of the entries that the count announces. -/
def OperandKind.cutLine (kind : OperandKind) (start : Nat) (bytes : List UInt8) : String :=
  match kind.width? with
  | some width =>
    kind.name ++ " operand at " ++ ("0x" ++ hexUpper 4 start) ++ " truncated: " ++ toString bytes.length ++
      " of " ++ toString width ++ " bytes present"
  | Option.none =>
    if bytes.length < 4 then "switch at " ++ ("0x" ++ hexUpper 4 start) ++ " truncated before its case count"
    else
      "switch at " ++ ("0x" ++ hexUpper 4 start) ++ " declares " ++ toString (littleEndian (bytes.take 4)) ++
        " cases, table truncated"

namespace Instruction

/-- No opcode is listed under the code of the instruction. -/
def isUnlisted (instruction : Instruction) : Bool :=
  !(Opcode.defined.map Prod.fst).contains instruction.code

def unknownLine (instruction : Instruction) : String :=
  "unknown opcode " ++ Opcode.rawText instruction.code ++ " at " ++ label instruction.offset.toNat

/-- The line about an instruction that lacks a part of its operand, which begins behind the opcode. -/
def truncationLine (code : List UInt8) (instruction : Instruction) : String :=
  let start := instruction.offset.toNat + instruction.opcodeLength
  instruction.opcode.kind.cutLine start (code.drop start)

end Instruction

/-- The line about the end of code, if there is anything to say: what no instruction covers is an escape
byte, or else the last instruction lacks a part of its operand. -/
def endLine? (code : List UInt8) (instructions : List Instruction) : Option String :=
  let covered := (instructions.map fun instruction => instruction.size.toNat).sum
  if code.drop covered = [0xFE] then some ("lone 0xFE escape at " ++ label covered ++ " ends the stream")
  else instructions.getLast?.bind fun last =>
    if last.size.toNat < last.fullSize code then some (last.truncationLine code) else none

section Levels

variable {level : Level}

theorem notesAt_append (first second : List Event) :
    notesAt level (first ++ second) = notesAt level first ++ notesAt level second := by
  simp only [notesAt, List.filterMap_append, List.filter_append]

theorem notesAt_flatMap {α : Type} (items : List α) (events : α → List Event) :
    notesAt level (items.flatMap events) = items.flatMap fun item => notesAt level (events item) := by
  induction items with
  | nil => rfl
  | cons item rest ih => rw [List.flatMap_cons, notesAt_append, ih, List.flatMap_cons]

/-- Resolving a token notes details and crashes only. -/
theorem Backend.notesAt_attempt (backend : Backend) (category : Category) (token : Token) :
    notesAt .debug (backend.attempt category token).events = [] := by
  rw [attempt]
  cases backend.ask category token <;> rfl

theorem Backend.notesAt_attemptAll (backend : Backend) (token : Token) (order : List Category) :
    notesAt .debug (backend.attemptAll token order).events = [] := by
  induction order with
  | nil => rfl
  | cons category rest ih =>
    have first := backend.notesAt_attempt category token
    rw [attemptAll]
    cases (backend.attempt category token).value with
    | some text => exact first
    | none =>
      show notesAt .debug (_ ++ _) = []
      rw [notesAt_append, first, ih]
      rfl

theorem Backend.notesAt_resolve (backend : Backend) (token : Token) (hint : OperandKind) :
    notesAt .debug (backend.resolve token hint).events = [] := by
  rw [resolve]
  cases token.category? hint with
  | some category => exact backend.notesAt_attempt category token
  | none =>
    show notesAt .debug ([_] ++ _) = []
    rw [notesAt_append, backend.notesAt_attemptAll]
    rfl

theorem Operand.notesAt_text (backend : Backend) (next : Nat) (operand : Operand) :
    notesAt .debug (operand.text backend next).events = [] := by
  cases operand with
  | token hint value => exact backend.notesAt_resolve value hint
  | _ => rfl

theorem Operand.notesAt_notes (start : Nat) (operand : Operand) :
    notesAt .debug ((operand.notes start).map .noted) = operand.notes start := by
  cases operand <;> rfl

theorem Operand.notes_of_not_isCut {operand : Operand} (complete : operand.isCut = false) (start : Nat) :
    operand.notes start = [] := by
  cases operand with
  | cut | cutCount | cutTable => cases complete
  | _ => rfl

theorem Note.text_operandCut {kind : OperandKind} {width : Nat} (known : kind.width? = some width)
    (start present : Nat) :
    (operandCut kind start present).text =
      kind.name ++ " operand at " ++ ("0x" ++ hexUpper 4 start) ++ " truncated: " ++ toString present ++
        " of " ++ toString width ++ " bytes present" := by
  have wide : kind.width?.getD 0 = width := by
    rw [known]
    rfl
  subst wide
  rfl

theorem Operand.text_notes_read {kind : OperandKind} {bytes : List UInt8}
    (isCut : (read kind bytes).isCut = true) (start : Nat) :
    ((read kind bytes).notes start).map Note.text = [kind.cutLine start bytes] := by
  cases known : kind.width? with
  | some width =>
    have lacking : bytes.length < width := by
      by_contra! enough
      rw [read_of_enough known enough, isCut_of_fits (kind?_ofPattern known _)] at isCut
      cases isCut
    rw [read_of_short known lacking, OperandKind.cutLine, known]
    exact congrArg ([·]) (Note.text_operandCut known start bytes.length)
  | none =>
    cases OperandKind.width?_eq_none_iff.mp known
    rw [OperandKind.cutLine, known]
    by_cases counted : 4 ≤ bytes.length
    · have lacking : bytes.length < 4 + 4 * littleEndian (bytes.take 4) := by
        by_contra! enough
        rw [read_switch_of_enough counted enough] at isCut
        cases isCut
      rw [if_neg (Nat.not_lt.mpr counted), ← caseCount_toNat counted, read_switch_of_cut counted lacking]
      rfl
    · have few : bytes.length < 4 := by omega
      rw [read_switch_of_short few, if_pos few]
      rfl

end Levels

namespace PlacedFrame

def unknownNote (placed : PlacedFrame) : Note := .unknownOpcode placed.frame.code placed.position

def cutNotes (placed : PlacedFrame) : List Note :=
  placed.frame.operand.notes (placed.position + placed.frame.opcodeWidth)

theorem notesAt_decode (backend : Backend) (policy : UnknownPolicy) (placed : PlacedFrame) :
    notesAt .debug (placed.frame.decode backend policy placed.position).events =
      if placed.frame.opcode.isDefined then placed.cutNotes else [placed.unknownNote] := by
  unfold Frame.decode
  split
  · show notesAt .debug (_ ++ _) = _
    rw [notesAt_append, Operand.notesAt_notes]
    show _ ++ notesAt .debug (placed.frame.operand.text _ _).events = _
    rw [Operand.notesAt_text, List.append_nil, cutNotes]
  · rfl

end PlacedFrame

/-- Of frames that lie one behind the other, the unknown ones are noted in order. Only the last can be cut
short, so that its notes come last. -/
theorem Tiles.notesAt_frames {position : Nat} {bytes rest : List UInt8} {frames : List PlacedFrame}
    (tiles : Tiles position bytes frames rest) (backend : Backend) (policy : UnknownPolicy) :
    (frames.flatMap fun placed =>
        notesAt .debug (placed.frame.decode backend policy placed.position).events) =
      (frames.filter fun placed => !placed.frame.opcode.isDefined).map PlacedFrame.unknownNote ++
        frames.getLast?.toList.flatMap PlacedFrame.cutNotes := by
  induction tiles with
  | stop => rfl
  | @step position bytes frame frames rest found later ih =>
    have last (quiet : (⟨position, frame⟩ : PlacedFrame).cutNotes = []) :
        (⟨position, frame⟩ :: frames : List PlacedFrame).getLast?.toList.flatMap PlacedFrame.cutNotes =
          frames.getLast?.toList.flatMap PlacedFrame.cutNotes := by
      cases frames with
      | nil => simp [quiet]
      | cons => rw [List.getLast?_cons_cons]
    rw [List.flatMap_cons, ih, PlacedFrame.notesAt_decode]
    by_cases known : frame.opcode.isDefined = true
    · simp only [known, if_true, Bool.not_true, List.filter_cons_of_neg, Bool.false_eq_true, not_false_eq_true]
      by_cases isCut : frame.operand.isCut = true
      · -- What is cut short leaves no bytes for another frame.
        rw [Frame.width_eq_of_isCut found isCut, List.drop_length] at later
        cases later with
        | stop => simp
        | step more => cases more
      · have quiet := Operand.notes_of_not_isCut (Bool.eq_false_iff.mpr isCut) (position + frame.opcodeWidth)
        rw [last quiet]
        exact congrArg (· ++ _) quiet
    · have quiet : (⟨position, frame⟩ : PlacedFrame).cutNotes = [] := by
        rw [PlacedFrame.cutNotes, Frame.operand_eq_absent found known]
        rfl
      rw [last quiet]
      simp [known]

theorem notesAt_decodeStream (level : Level) (backend : Backend) (policy : UnknownPolicy) (position : Nat)
    (bytes : List UInt8) :
    notesAt level (decodeStream backend policy position bytes).events =
      ((Framing.cut position bytes).frames.flatMap fun placed =>
        notesAt level (placed.frame.decode backend policy placed.position).events) ++
        notesAt level (Framing.restEvents (position + bytes.length - (Framing.cut position bytes).rest.length)
          (Framing.cut position bytes).rest) := by
  have events : (decodeStream backend policy position bytes).events =
      ((Framing.cut position bytes).frames.flatMap fun placed =>
        (placed.frame.decode backend policy placed.position).events) ++ _ :=
    congrArg (· ++ _) (List.flatMap_map ..)
  rw [events, notesAt_append, notesAt_flatMap]

section Instructions

variable {code : List UInt8} {placed : PlacedFrame} (backend : Backend) (policy : UnknownPolicy)

theorem isUnlisted_decode {bytes : List UInt8} {frame : Frame} (found : Frame.read? bytes = some frame)
    (position : Nat) :
    (frame.decode backend policy position).value.isUnlisted = !frame.opcode.isDefined := by
  obtain ⟨_, isCode, _, _⟩ := Frame.exists_of_read? found
  have known := Opcode.isDefined_ofCode_iff isCode
  rw [Instruction.isUnlisted, Frame.decode_value, Bool.eq_iff_iff]
  simp only [Bool.not_eq_true', Bool.eq_false_iff, Frame.opcode, ne_eq, known, List.contains_iff_mem,
    List.mem_map, Prod.exists, exists_and_right, exists_eq_right]

theorem text_unknownNote (short : code.length < 2 ^ 32)
    (within : placed.position + placed.frame.width ≤ code.length)
    (found : Frame.read? (code.drop placed.position) = some placed.frame) :
    placed.unknownNote.text = (placed.frame.decode backend policy placed.position).value.unknownLine := by
  obtain ⟨_, isCode, _, _⟩ := Frame.exists_of_read? found
  have offset := (offset_size_decode backend policy short within).1
  have opcode : (placed.frame.decode backend policy placed.position).value.code = placed.frame.code := by
    rw [Frame.decode_value]
  show _ = "unknown opcode " ++ Opcode.rawText _ ++ " at " ++ label _
  rw [offset, opcode, ← Opcode.codeBytesText_eq_rawText isCode]
  rfl

/-- What is noted on an operand that is cut short says how much of it is there. -/
theorem text_cutNotes (short : code.length < 2 ^ 32)
    (within : placed.position + placed.frame.width ≤ code.length)
    (found : Frame.read? (code.drop placed.position) = some placed.frame)
    (isCut : placed.frame.operand.isCut = true) :
    placed.cutNotes.map Note.text =
      [(placed.frame.decode backend policy placed.position).value.truncationLine code] := by
  obtain ⟨rest, _, split, read⟩ := Frame.exists_of_read? found
  have offset := (offset_size_decode backend policy short within).1
  have kind := Frame.kind_decode backend policy placed.position placed.frame
  have opcode := opcodeLength_decode backend policy placed.position placed.frame
  rw [read] at isCut
  rw [Instruction.truncationLine, offset, kind, opcode, Frame.drop_opcodeWidth split, PlacedFrame.cutNotes, read]
  exact Operand.text_notes_read isCut _

/-- An instruction lacks a part of its operand exactly if its frame is cut short. -/
theorem size_lt_fullSize_iff (short : code.length < 2 ^ 32)
    (within : placed.position + placed.frame.width ≤ code.length)
    (found : Frame.read? (code.drop placed.position) = some placed.frame) :
    (placed.frame.decode backend policy placed.position).value.size.toNat <
        (placed.frame.decode backend policy placed.position).value.fullSize code ↔
      placed.frame.operand.isCut = true := by
  rw [(offset_size_decode backend policy short within).2]
  constructor
  · intro less
    rcases fullSize_decode backend policy short within found with full | ⟨isCut, _⟩
    · omega
    · exact isCut
  · intro isCut
    rcases fullSize_decode backend policy short within found with full | ⟨_, less⟩
    · rw [not_isCut_of_fullSize backend policy short within found full] at isCut
      cases isCut
    · exact less

end Instructions

section Run

variable {code : List UInt8} (short : code.length < 2 ^ 32) (backend : Backend) (policy : UnknownPolicy)
include short

theorem text_unknownNotes :
    ((Framing.cut 0 code).frames.filter fun placed => !placed.frame.opcode.isDefined).map
        (Note.text ∘ PlacedFrame.unknownNote) =
      ((decodeStream backend policy 0 code).value.filter Instruction.isUnlisted).map
        Instruction.unknownLine := by
  have tiles := Framing.tiles_cut 0 code
  have unlisted : (Framing.cut 0 code).frames.filter (Instruction.isUnlisted ∘ fun placed =>
        (placed.frame.decode backend policy placed.position).value) =
      (Framing.cut 0 code).frames.filter fun placed => !placed.frame.opcode.isDefined :=
    List.filter_congr fun placed member =>
      isUnlisted_decode backend policy (tiles.read?_of_mem member).2 placed.position
  rw [decodeStream_value, List.filter_map, List.map_map, unlisted]
  refine List.map_congr_left fun placed member => ?_
  have inside := (List.mem_filter.mp member).1
  have ending := tiles.end_le inside
  exact text_unknownNote backend policy short (by omega) (tiles.read?_of_mem inside).2

/-- What is noted at the end: an escape byte that is left over, or an operand that is cut short. There is
not both, since what is cut short leaves no byte over. -/
theorem text_endNotes :
    ((Framing.cut 0 code).frames.getLast?.toList.flatMap PlacedFrame.cutNotes).map Note.text ++
        (notesAt .debug (Framing.restEvents (code.length - (Framing.cut 0 code).rest.length)
          (Framing.cut 0 code).rest)).map Note.text =
      (endLine? code (decodeStream backend policy 0 code).value).toList := by
  have tiles := Framing.tiles_cut 0 code
  have total := tiles.covered_add_rest
  have sizes := sum_sizes_decode backend policy short
  rw [endLine?, decodeStream_value, sizes, tiles.drop_covered, List.getLast?_map]
  rcases tiles.rest_eq with empty | escape
  · rw [empty, if_neg (List.cons_ne_nil _ _).symm]
    cases last : (Framing.cut 0 code).frames.getLast? with
    | none => rfl
    | some placed =>
      have member := List.mem_of_getLast? last
      have ending := tiles.end_le member
      have found := (tiles.read?_of_mem member).2
      have lacking := size_lt_fullSize_iff backend policy short (by omega) found
      rw [Option.toList_some, List.flatMap_singleton, Option.map_some, Option.bind_some]
      by_cases isCut : placed.frame.operand.isCut = true
      · rw [if_pos (lacking.mpr isCut), text_cutNotes backend policy short (by omega) found isCut]
        rfl
      · rw [if_neg (mt lacking.mp isCut), PlacedFrame.cutNotes,
          Operand.notes_of_not_isCut (Bool.eq_false_iff.mpr isCut)]
        rfl
  · have quiet : (Framing.cut 0 code).frames.getLast?.toList.flatMap PlacedFrame.cutNotes = [] := by
      rw [List.flatMap_eq_nil_iff]
      intro placed last
      refine Operand.notes_of_not_isCut (Bool.eq_false_iff.mpr fun isCut => ?_) _
      have member := List.mem_of_getLast? (Option.mem_toList.mp last)
      rw [(tiles.last_of_isCut member isCut).2.1] at escape
      cases escape
    have place : code.length - [Opcode.escape].length = Tiles.covered (Framing.cut 0 code).frames := by
      rw [escape] at total
      omega
    have same : [Opcode.escape] = [0xFE] := rfl
    rw [quiet, escape, place, if_pos same]
    rfl

theorem linesAt_decodeStream :
    (decodeStream backend policy 0 code).linesAt .debug =
      ((decodeStream backend policy 0 code).value.filter Instruction.isUnlisted).map
          Instruction.unknownLine ++
        (endLine? code (decodeStream backend policy 0 code).value).toList := by
  rw [Traced.linesAt, notesAt_decodeStream, (Framing.tiles_cut 0 code).notesAt_frames backend policy,
    List.map_append, List.map_append, List.map_map, List.append_assoc, Nat.zero_add,
    text_unknownNotes short backend policy, text_endNotes short backend policy]

end Run

namespace AbstractInstruction

theorem exists_of_mem_placedFrom {position : Nat} {program : List AbstractInstruction} {placed : PlacedFrame}
    (member : placed ∈ placedFrom position program) : ∃ source : AbstractInstruction, placed.frame = source.frame := by
  induction program generalizing position with
  | nil => cases member
  | cons source rest ih =>
    rcases List.mem_cons.mp member with rfl | later
    · exact ⟨source, rfl⟩
    · exact ih later

/-- Where instructions follow one another to the end, there is nothing to note. -/
theorem linesAt_encode (program : List AbstractInstruction) (short : (encode program).length < 2 ^ 32)
    (backend : Backend) (policy : UnknownPolicy) :
    (decodeStream backend policy 0 (encode program)).linesAt .debug = [] := by
  have quiet : ((placedFrom 0 program).flatMap fun placed =>
      notesAt .debug (placed.frame.decode backend policy placed.position).events) = [] := by
    rw [List.flatMap_eq_nil_iff]
    intro placed member
    obtain ⟨source, same⟩ := exists_of_mem_placedFrom member
    have known : placed.frame.opcode.isDefined = true := by
      rw [same, opcode_frame]
      exact Opcode.isDefined_of_mem_defined source.listed
    have complete : placed.frame.operand.isCut = false := by
      rw [same]
      exact Operand.isCut_of_fits source.fits
    rw [PlacedFrame.notesAt_decode, if_pos known, PlacedFrame.cutNotes, Operand.notes_of_not_isCut complete]
  rw [Traced.linesAt, notesAt_decodeStream, (tiles_encode 0 program short).eq_cut, quiet]
  rfl

end AbstractInstruction

/-- The details that decoding logs are one line for each unlisted opcode, in order, and at the end a line
about what is missing there, if anything is. -/
theorem debug_lines_tell (code : List UInt8) (short : code.length < 2 ^ 32) (backend : Backend)
    (policy : UnknownPolicy) :
    let run := (Cursor.start code).stream backend policy
    run.linesAt .debug = (run.value.1.filter Instruction.isUnlisted).map Instruction.unknownLine ++
        (endLine? code run.value.1).toList ∧
      ∀ program : List AbstractInstruction, code = AbstractInstruction.encode program →
        run.linesAt .debug = [] := by
  refine ⟨linesAt_decodeStream short backend policy, ?_⟩
  rintro program rfl
  exact AbstractInstruction.linesAt_encode program short backend policy

/-- Two unknown opcodes and a switch whose table is cut, and then a program that is whole. -/
theorem debug_lines_tell_cutTable :
    let code : List UInt8 := [0xA6, 0xFE, 0x30, 0x45, 2, 0, 0, 0, 1]
    let program := loopThenIndex
    (code.length < 2 ^ 32 ∧
      ((Cursor.start code).stream Symbols.empty.backend .nop).linesAt .debug =
        ["unknown opcode 0xA6 at IL_0000", "unknown opcode 0xFE 0x30 at IL_0001",
          "switch at 0x0004 declares 2 cases, table truncated"]) ∧
    (AbstractInstruction.encode program).length < 2 ^ 32 ∧
      ((Cursor.start (AbstractInstruction.encode program)).stream Symbols.empty.backend .nop).linesAt
        .debug = [] := by
  intro code program
  have short : code.length < 2 ^ 32 := by decide
  have whole : (AbstractInstruction.encode program).length < 2 ^ 32 := by decide +kernel
  refine ⟨⟨short, ?_⟩, whole, ?_⟩
  · refine (debug_lines_tell code short Symbols.empty.backend .nop).1.trans ?_
    decide +kernel
  · exact (debug_lines_tell _ whole Symbols.empty.backend .nop).2 program rfl

end CilListing
