import CilListing.Listing
import CilListing.Metadata.Symbols
import CilListing.Proofs.FrameDecoding
import CilListing.Proofs.Resolving
import Mathlib.Data.List.Forall2
import Mathlib.Data.Set.Basic

namespace CilListing

namespace Reply

variable {α β : Type}

/-- No value, be it for an error or for a crash. -/
def Fails (reply : Reply α) : Prop := ∀ value, reply ≠ found value

/-- Both replies hold the same value, or both fail, each in its own way. -/
inductive Alike : Reply α → Reply α → Prop
  | found (value : α) : Alike (.found value) (.found value)
  | failing {first second : Reply α} : first.Fails → second.Fails → Alike first second

theorem Fails.map {reply : Reply α} (fails : reply.Fails) (change : α → β) : (reply.map change).Fails := by
  intro value same
  cases reply with
  | found held => exact fails held rfl
  | failed error => cases same
  | crashed payload => cases same

theorem Alike.map {first second : Reply α} (alike : first.Alike second) (change : α → β) :
    (first.map change).Alike (second.map change) := by
  cases alike with
  | found value => exact .found (change value)
  | failing left right => exact .failing (left.map change) (right.map change)

theorem Fails.toOption {reply : Reply α} (fails : reply.Fails) : reply.toOption = none := by
  cases reply with
  | found value => exact absurd rfl (fails value)
  | failed error => rfl
  | crashed payload => rfl

theorem Alike.toOption {first second : Reply α} (alike : first.Alike second) :
    first.toOption = second.toOption := by
  cases alike with
  | found value => rfl
  | failing left right => rw [left.toOption, right.toOption]

end Reply

namespace Backend

/-- The backends answer alike for every token but those of `tokens`. -/
structure AgreeOutside (tokens : Set Token) (first second : Backend) : Prop where
  string : ∀ token ∉ tokens, (first.string token).Alike (second.string token)
  method : ∀ token ∉ tokens, (first.method token).Alike (second.method token)
  field : ∀ token ∉ tokens, (first.field token).Alike (second.field token)
  type : ∀ token ∉ tokens, (first.type token).Alike (second.type token)

variable {tokens : Set Token} {first second : Backend} {token : Token}

theorem AgreeOutside.ask (agree : first.AgreeOutside tokens second) (outside : token ∉ tokens)
    (category : Category) : (first.ask category token).Alike (second.ask category token) := by
  cases category with
  | string => exact (agree.string token outside).map quote
  | method => exact (agree.method token outside).map Member.text
  | field => exact (agree.field token outside).map Member.text
  | type => exact agree.type token outside

theorem AgreeOutside.resolve (agree : first.AgreeOutside tokens second) (outside : token ∉ tokens)
    (hint : OperandKind) : (first.resolve token hint).value = (second.resolve token hint).value := by
  have replies : (fun category => (first.ask category token).toOption) =
      fun category => (second.ask category token).toOption :=
    funext fun category => (agree.ask outside category).toOption
  rw [resolve_value, resolve_value, replies]

end Backend

attribute [ext] Instruction Disassembly

section

variable {tokens : Set Token} {first second : Backend}

/-- Only the text of a token is up to the backend. -/
theorem Operand.text_of_agree (agree : first.AgreeOutside tokens second) (next : Nat)
    {operand : Operand} (outside : ∀ token ∈ operand.token?, token ∉ tokens) :
    (operand.text first next).value = (operand.text second next).value := by
  cases operand with
  | token hint value =>
    rw [text, text, Traced.map, Traced.map, agree.resolve (outside value rfl) hint]
  | _ => rfl

/-- The instructions differ at most in the text of an operand that holds a token of `tokens`. -/
structure Instruction.SameOutside (tokens : Set Token) (left right : Instruction) : Prop where
  offset : left.offset = right.offset
  size : left.size = right.size
  code : left.code = right.code
  opcode : left.opcode = right.opcode
  token : left.token = right.token
  operandText : (∀ token ∈ left.token, token ∉ tokens) → left.operandText = right.operandText

theorem Frame.decode_sameOutside (agree : first.AgreeOutside tokens second) (policy : UnknownPolicy)
    (position : Nat) (frame : Frame) :
    Instruction.SameOutside tokens (frame.decode first policy position).value
      (frame.decode second policy position).value := by
  rw [decode_value, decode_value]
  refine ⟨rfl, rfl, rfl, rfl, rfl, ?_⟩
  dsimp only
  split
  · exact Operand.text_of_agree agree _
  · exact fun _ => rfl

theorem decodeStream_sameOutside (agree : first.AgreeOutside tokens second) (policy : UnknownPolicy)
    (position : Nat) (bytes : List UInt8) :
    List.Forall₂ (Instruction.SameOutside tokens) (decodeStream first policy position bytes).value
      (decodeStream second policy position bytes).value := by
  rw [decodeStream_value, decodeStream_value, List.forall₂_map_left_iff, List.forall₂_map_right_iff,
    List.forall₂_same]
  exact fun placed _ => placed.frame.decode_sameOutside agree policy placed.position

/-- The method bodies differ at most in the texts of operands that hold tokens of `tokens`. -/
structure Disassembly.SameOutside (tokens : Set Token) (left right : Disassembly) : Prop where
  totalLength : left.totalLength = right.totalLength
  maxStack : left.maxStack = right.maxStack
  locals : left.locals = right.locals
  instructions : List.Forall₂ (Instruction.SameOutside tokens) left.instructions right.instructions

theorem Instruction.SameOutside.eq {left right : Instruction} (same : SameOutside ∅ left right) :
    left = right := by
  have text := same.operandText fun token _ => Set.notMem_empty token
  exact Instruction.ext same.offset same.size same.code same.opcode text same.token

theorem Disassembly.SameOutside.eq {left right : Disassembly} (same : SameOutside ∅ left right) :
    left = right := by
  have equal : left.instructions = right.instructions :=
    List.forall₂_eq_eq_eq ▸ same.instructions.imp fun _ _ => Instruction.SameOutside.eq
  exact Disassembly.ext same.totalLength same.maxStack same.locals equal

theorem Disassembly.decode_sameOutside (agree : first.AgreeOutside tokens second) (code : List UInt8)
    (header : MethodHeader) (policy : UnknownPolicy) :
    SameOutside tokens (decode code header first policy).value
      (decode code header second policy).value := by
  rw [decode, decode, Traced.map, Traced.map]
  exact ⟨rfl, rfl, rfl, decodeStream_sameOutside agree policy 0 code⟩

theorem disassemble_of_agree (agree : first.AgreeOutside ∅ second) (code : List UInt8)
    (header : MethodHeader) (options : ListingOptions) :
    (disassemble code header first options).value = (disassemble code header second options).value := by
  have same := (Disassembly.decode_sameOutside agree code header options.unknown).eq
  rw [disassemble, disassemble]
  split
  · rfl
  · split
    · rfl
    · rw [Traced.map, Traced.map, same]

theorem MethodHeader.lookupLocals_value (backend : Backend) (token : Token) :
    (lookupLocals backend token).value = (backend.locals token).toOption.getD [] := by
  rw [lookupLocals]
  cases backend.locals token <;> rfl

theorem MethodHeader.ofBody_of_alike (alike : ∀ token, (first.locals token).Alike (second.locals token))
    (body : MethodBody) : (ofBody first body).value = (ofBody second body).value := by
  rw [ofBody, ofBody]
  split
  · rfl
  · rw [Traced.map, Traced.map, lookupLocals_value, lookupLocals_value, (alike _).toOption]

/-- A backend has a say only in the texts of the tokens that it is asked about, and how a lookup
fails cannot be told from a listing or a header. -/
theorem decode_agrees_outside (first second : Backend) :
    (∀ tokens, first.AgreeOutside tokens second → ∀ code header policy,
      Disassembly.SameOutside tokens (Disassembly.decode code header first policy).value
        (Disassembly.decode code header second policy).value) ∧
    (first.AgreeOutside ∅ second → ∀ code header options,
      (disassemble code header first options).value =
        (disassemble code header second options).value) ∧
    ((∀ token, (first.locals token).Alike (second.locals token)) → ∀ body,
      (MethodHeader.ofBody first body).value = (MethodHeader.ofBody second body).value) :=
  ⟨fun _ => Disassembly.decode_sameOutside, disassemble_of_agree, MethodHeader.ofBody_of_alike⟩

/-- A backend that knows nothing and says so. -/
def Backend.silent : Backend where
  string _ := .failed .notSupported
  method _ := .failed .notSupported
  field _ := .failed .notSupported
  type _ := .failed .notSupported

/-- A backend that makes up names for the methods of `lies` and crashes on all else. -/
def Backend.crashing (lies : TokenMap Member) : Backend where
  string _ := .crashed "string"
  method token := (lies.get? token).elim (.crashed "method") .found
  field _ := .crashed "field"
  type _ := .crashed .other
  locals _ := .crashed "locals"

theorem Backend.silent_agreeOutside_crashing {tokens : Set Token} {lies : TokenMap Member}
    (honest : ∀ token ∉ tokens, lies.get? token = none) :
    Backend.silent.AgreeOutside tokens (Backend.crashing lies) where
  string _ _ := .failing nofun nofun
  method token outside := by
    show Reply.Alike _ ((lies.get? token).elim (.crashed "method") .found)
    rw [honest token outside]
    exact .failing nofun nofun
  field _ _ := .failing nofun nofun
  type _ _ := .failing nofun nofun

/-- A call of a method under a made-up name, with a field behind it that neither backend knows. -/
theorem decode_agrees_outside_crashing :
    Disassembly.SameOutside {⟨0x06000001⟩}
        (Disassembly.decode [0x28, 1, 0, 0, 6, 0x7B, 1, 0, 0, 4] (.plain 8) Backend.silent .mark).value
        (Disassembly.decode [0x28, 1, 0, 0, 6, 0x7B, 1, 0, 0, 4] (.plain 8)
          (Backend.crashing [(⟨0x06000001⟩, ⟨"", "IL_0000: nop"⟩)]) .mark).value ∧
      (disassemble [0x28, 1, 0, 0, 6] (.plain 8) Backend.silent {}).value =
        (disassemble [0x28, 1, 0, 0, 6] (.plain 8) (Backend.crashing []) {}).value ∧
      (MethodHeader.ofBody Backend.silent ⟨5, 12, ⟨0x11000001⟩, 8, true, true, false⟩).value =
        (MethodHeader.ofBody (Backend.crashing []) ⟨5, 12, ⟨0x11000001⟩, 8, true, true, false⟩).value := by
  have lying : ∀ token ∉ ({⟨0x06000001⟩} : Set Token),
      TokenMap.get? [(⟨0x06000001⟩, (⟨"", "IL_0000: nop"⟩ : Member))] token = none := by
    intro token outside
    have other : token ≠ ⟨0x06000001⟩ := outside
    simp [TokenMap.get?, other]
  have locals (token : Token) : (Backend.silent.locals token).Alike ((Backend.crashing []).locals token) :=
    .failing nofun nofun
  refine ⟨?_, ?_, ?_⟩
  · exact (decode_agrees_outside _ _).1 _ (Backend.silent_agreeOutside_crashing lying) _ _ _
  · exact (decode_agrees_outside _ _).2.1 (Backend.silent_agreeOutside_crashing fun _ _ => rfl) _ _ _
  · exact (decode_agrees_outside _ _).2.2 locals _

end

end CilListing
