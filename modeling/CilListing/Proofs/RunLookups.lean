import CilListing.Proofs.TokenDispatch
import CilListing.Proofs.UnknownPolicies

namespace CilListing

/-- The lookups that the token of an instruction calls for. -/
def Instruction.calls (backend : Backend) (instruction : Instruction) : List Event :=
  match instruction.token with
  | some token => (backend.resolve token instruction.opcode.kind).lookups
  | none => []

/-- The operand of a placed frame asks for more bytes than the code has behind its opcode. -/
def PlacedFrame.Truncated (code : List UInt8) (placed : PlacedFrame) : Prop :=
  code.length < placed.position + placed.frame.opcodeWidth +
    placed.frame.opcode.kind.need (code.drop (placed.position + placed.frame.opcodeWidth))

/-- A run over code asks the backend for what its instructions call for, and for nothing else. -/
structure AsksAsDecoded (code : List UInt8) (backend : Backend) (run : Traced Disassembly) : Prop where
  calls : run.lookups = run.value.instructions.flatMap (Instruction.calls backend)
  unlisted : ∀ instruction ∈ run.value.instructions,
    (∀ opcode, (instruction.code, opcode) ∉ Opcode.defined) → instruction.token = none
  truncated : ∀ (index : Nat) (placed : PlacedFrame), (Framing.cut 0 code).frames[index]? = some placed →
    placed.Truncated code →
      ∃ instruction, run.value.instructions[index]? = some instruction ∧ instruction.token = none
  noLocals : ∀ token, Event.askedLocals token ∉ run.lookups

section Step

variable (backend : Backend)

theorem filter_isLookup_noted (notes : List Note) : (notes.map Event.noted).filter Event.isLookup = [] := by
  induction notes with
  | nil => rfl
  | cons note rest ih => exact ih

/-- Of all operands only tokens are looked up. -/
theorem Operand.lookups_text (next : Nat) {operand : Operand} (tokenless : operand.token? = none) :
    (operand.text backend next).lookups = [] := by
  cases operand with
  | token hint value => cases tokenless
  | _ => rfl

theorem Operand.hint_of_kind? {hint kind : OperandKind} {value : Token}
    (fits : (token hint value).kind? = some kind) : hint = kind := by
  rw [kind?] at fits
  split at fits
  · exact Option.some.inj fits
  · cases fits

/-- One instruction asks for what its token calls for. -/
theorem Frame.lookups_decode (policy : UnknownPolicy) (position : Nat) {bytes : List UInt8} {frame : Frame}
    (found : read? bytes = some frame) :
    (frame.decode backend policy position).lookups =
      (frame.decode backend policy position).value.calls backend := by
  by_cases known : frame.opcode.isDefined = true
  · have events : (frame.decode backend policy position).lookups =
        (frame.operand.text backend (position + frame.width)).lookups := by
      unfold decode
      rw [if_pos known, Traced.lookups_after, filter_isLookup_noted]
      rfl
    rw [events, decode_value, Instruction.calls]
    simp only [known, if_true]
    cases held : frame.operand.token? with
    | none => exact Operand.lookups_text backend _ held
    | some value =>
      obtain ⟨hint, operand⟩ : ∃ hint, frame.operand = .token hint value := by
        cases shape : frame.operand with
        | token hint other =>
          rw [shape] at held
          cases held
          exact ⟨hint, rfl⟩
        | _ => rw [shape] at held; cases held
      have complete : frame.operand.isCut = false := by rw [operand]; rfl
      have fits := kind?_of_read? found complete
      rw [operand] at fits
      rw [operand, ← Operand.hint_of_kind? fits]
      rfl
  · rw [decode_value, Instruction.calls]
    unfold decode
    simp only [known]
    rfl

end Step

section Run

variable (backend : Backend) (policy : UnknownPolicy)

theorem filter_isLookup_restEvents (position : Nat) (rest : List UInt8) :
    (Framing.restEvents position rest).filter Event.isLookup = [] := by
  cases rest <;> rfl

/-- From instruction to instruction the lookups follow one another, and the end of the bytes adds none. -/
theorem Tiles.lookups_decodeStream {position : Nat} {bytes rest : List UInt8} {frames : List PlacedFrame}
    (tiles : Tiles position bytes frames rest) :
    (decodeStream backend policy position bytes).lookups =
      (decodeStream backend policy position bytes).value.flatMap (Instruction.calls backend) := by
  induction tiles with
  | stop ended =>
    rw [decodeStream_of_none backend policy ended]
    exact filter_isLookup_restEvents ..
  | step found _ ih =>
    rw [decodeStream_of_some backend policy found, List.flatMap_cons, ← ih,
      ← Frame.lookups_decode backend policy _ found]
    exact List.filter_append ..

theorem Instruction.eq_asked_of_mem_calls {instruction : Instruction} {event : Event}
    (member : event ∈ instruction.calls backend) : ∃ category token, event = .asked category token := by
  unfold calls at member
  split at member
  · next token _ =>
    rw [Backend.lookups_resolve] at member
    obtain ⟨category, _, rfl⟩ := List.mem_map.mp member
    exact ⟨category, token, rfl⟩
  · cases member

/-- A frame that is truncated in its code has an operand that is cut short. -/
theorem PlacedFrame.Truncated.isCut {code : List UInt8} {placed : PlacedFrame} (truncated : placed.Truncated code)
    (found : Frame.read? (code.drop placed.position) = some placed.frame) :
    placed.frame.operand.isCut = true := by
  obtain ⟨rest, _, split, reads⟩ := Frame.reads_of_read? found
  cases reads with
  | complete _ width _ enough =>
    have positive : 0 < placed.frame.opcodeWidth := by
      unfold Frame.opcodeWidth
      split <;> omega
    have length := congrArg List.length split
    rw [List.length_drop, List.length_append, Frame.length_codeBytes] at length
    unfold Truncated at truncated
    rw [Frame.drop_opcodeWidth split, ← width] at truncated
    omega
  | cut isCut => exact isCut

end Run

theorem asksAsDecoded_decode (code : List UInt8) (header : MethodHeader) (backend : Backend)
    (policy : UnknownPolicy) : AsksAsDecoded code backend (Disassembly.decode code header backend policy) := by
  have tiles := Framing.tiles_cut 0 code
  have calls := tiles.lookups_decodeStream backend policy
  constructor
  case calls => exact calls
  case unlisted =>
    intro instruction member unlisted
    rw [Disassembly.instructions_decode] at member
    obtain ⟨placed, inside, rfl⟩ := List.mem_map.mp member
    obtain ⟨_, isCode, _, _⟩ := Frame.exists_of_read? (tiles.read?_of_mem inside).2
    have undefined : ¬ placed.frame.opcode.isDefined = true := by
      rw [Frame.opcode, Opcode.isDefined_ofCode_iff isCode, not_exists]
      rw [Frame.decode_value] at unlisted
      exact unlisted
    rw [Frame.decode_value]
    exact if_neg undefined
  case truncated =>
    intro index placed atIndex truncated
    have found := (tiles.read?_of_mem (List.mem_of_getElem? atIndex)).2
    refine ⟨(placed.frame.decode backend policy placed.position).value, ?_, ?_⟩
    · rw [Disassembly.instructions_decode, List.getElem?_map, atIndex]
      rfl
    · exact (Frame.decode_of_isCut backend policy placed.position found (truncated.isCut found)).2
  case noLocals =>
    intro token member
    have asked : Event.askedLocals token ∈ (decodeStream backend policy 0 code).lookups := member
    rw [calls] at asked
    obtain ⟨instruction, _, called⟩ := List.mem_flatMap.mp asked
    obtain ⟨category, other, same⟩ := Instruction.eq_asked_of_mem_calls backend called
    cases same

/-- Taking code apart asks the backend for the tokens of the instructions, one instruction after the
other, and listing a method asks for the same if it has a body with code. -/
theorem lookups_as_decoded (code : List UInt8) (header : MethodHeader) (backend : Backend)
    (options : ListingOptions) :
    AsksAsDecoded code backend (Disassembly.decode code header backend options.unknown) ∧
      (disassemble code header backend options).lookups =
        if header.hasBody = true ∧ code ≠ [] then
          (Disassembly.decode code header backend options.unknown).lookups
        else [] := by
  refine ⟨asksAsDecoded_decode code header backend options.unknown, ?_⟩
  rw [disassemble]
  cases header.hasBody with
  | false => rfl
  | true =>
    cases code with
    | nil => rfl
    | cons => rfl

end CilListing
