import CilListing.Metadata.Symbols
import CilListing.Proofs.CheckedStream

namespace CilListing

/-- Reading in which a failure leaves the cursor where the failed read found it. -/
abbrev Stepwise (α : Type) := ExceptT Error (StateM Cursor) α

namespace Stepwise

variable {α β : Type}

def value (scalar : Scalar) : Stepwise Scalar.Value := fun cursor => cursor.read scalar

/-- Checked reading as one step. It does not tell where it failed, so that the cursor would stay. -/
def ofChecked (reading : Checked α) : Stepwise α := fun cursor =>
  match reading cursor with
  | .ok (result, next) => (.ok result, next)
  | .error error => (.error error, cursor)

/-- The code of an opcode of one or two bytes, byte after byte. -/
def opcode : Stepwise UInt16 := do
  let first ← value .u8
  if UInt8.ofNat first.pattern = Opcode.escape then
    let second ← value .u8
    return Opcode.escapedCode (UInt8.ofNat second.pattern)
  else return (UInt8.ofNat first.pattern).toUInt16

/-- One instruction. A failure leaves the cursor behind the bytes of the opcode that are there. -/
def instruction (backend : Backend) (policy : UnknownPolicy) : Stepwise Instruction := do
  let start ← get
  let code ← opcode
  if (Opcode.ofCode code).isDefined then
    let operand ← ofChecked (Checked.operand backend (Opcode.ofCode code).kind)
    let finish ← get
    return {
      offset := start.position.toUInt32
      size := (finish.position - start.position).toUInt32
      code := code
      opcode := Opcode.ofCode code
      operandText := operand.text
      token := operand.token }
  else
    let finish ← get
    return {
      offset := start.position.toUInt32
      size := (finish.position - start.position).toUInt32
      code := code
      opcode := policy.opcode
      operandText := policy.operandText code
      token := none }

/-- The same reading without the cursor of a failure. -/
def forget (reading : Stepwise α) : Checked α := fun cursor =>
  match reading cursor with
  | (.ok result, next) => .ok (result, next)
  | (.error error, _) => .error error

section Forget

theorem forget_bind (step : Stepwise α) (continuation : α → Stepwise β) :
    forget (step >>= continuation) = forget step >>= fun result => forget (continuation result) := by
  funext cursor
  have left : forget (step >>= continuation) cursor =
      match step cursor with
      | (.ok result, next) => forget (continuation result) next
      | (.error error, _) => .error error := by
    show (match (ExceptT.bindCont continuation (step cursor).1 : StateM Cursor _) (step cursor).2 with
      | (.ok result, next) => Except.ok (result, next)
      | (.error error, _) => .error error) = _
    rcases step cursor with ⟨result | result, next⟩ <;> rfl
  rw [left]
  show _ = forget step cursor >>= fun pair => forget (continuation pair.1) pair.2
  rw [forget]
  rcases step cursor with ⟨result | result, next⟩ <;> rfl

theorem forget_ite (condition : Prop) [Decidable condition] (first second : Stepwise α) :
    forget (if condition then first else second) =
      if condition then forget first else forget second := by
  split <;> rfl

theorem forget_ofChecked (reading : Checked α) : forget (ofChecked reading) = reading := by
  funext cursor
  rw [forget, ofChecked]
  rcases reading cursor with error | ⟨result, next⟩ <;> rfl

theorem forget_value (scalar : Scalar) : forget (value scalar) = Checked.value scalar := by
  funext cursor
  rw [forget, value, Checked.value]
  rcases cursor.read scalar with ⟨result | result, next⟩ <;> rfl

theorem forget_pure (result : α) : forget (pure result) = pure result := rfl

theorem forget_opcode : forget opcode = Checked.opcode := by
  simp only [opcode, forget_bind, forget_value, forget_ite, forget_pure]
  rfl

/-- But for the cursor of a failure, reading an instruction step by step is checked reading. -/
theorem forget_instruction (backend : Backend) (policy : UnknownPolicy) :
    forget (instruction backend policy) = Checked.instruction backend policy := by
  simp only [instruction, forget_bind, forget_opcode, forget_ite, forget_ofChecked, forget_pure]
  rfl

theorem eq_of_forget_ok {reading : Stepwise α} {cursor next : Cursor} {result : α}
    (run : forget reading cursor = .ok (result, next)) : reading cursor = (.ok result, next) := by
  rw [forget] at run
  split at run
  · next same =>
    cases run
    exact same
  · cases run

end Forget

theorem ofChecked_ok {reading : Checked α} {cursor next : Cursor} {result : α}
    (run : reading cursor = .ok (result, next)) : ofChecked reading cursor = (.ok result, next) := by
  rw [ofChecked, run]

theorem bind_ok {step : Stepwise α} {cursor next : Cursor} {result : α}
    (run : step cursor = (.ok result, next)) (continuation : α → Stepwise β) :
    (step >>= continuation) cursor = continuation result next :=
  bind_of_run (m := Id) run (ExceptT.bindCont continuation)

theorem bind_error {step : Stepwise α} {cursor next : Cursor} {error : Error}
    (run : step cursor = (.error error, next)) (continuation : α → Stepwise β) :
    (step >>= continuation) cursor = (.error error, next) :=
  bind_of_run (m := Id) run (ExceptT.bindCont continuation)

end Stepwise

section Reads

variable {cursor : Cursor}

theorem Cursor.peek_of_nil (empty : cursor.rest = []) : cursor.peek = .error overrun := by
  rw [peek, empty]

/-- Where no instruction begins, the bytes that are there are read all the same. -/
theorem Stepwise.instruction_of_none (backend : Backend) (policy : UnknownPolicy)
    (ended : Frame.read? cursor.rest = none) :
    instruction backend policy cursor = (.error Cursor.overrun, cursor.forward cursor.rest.length) := by
  have failed : opcode cursor = (.error Cursor.overrun, cursor.forward cursor.rest.length) := by
    rcases Cursor.lacks_of_none ended with ⟨empty, short⟩ | ⟨escape, short⟩
    · rw [empty]
      exact bind_error (Cursor.read_of_short short) _
    · have first : value .u8 cursor = (.ok (.u8 Opcode.escape), cursor.forward 1) :=
        eq_of_forget_ok (by rw [forget_value, Checked.byte_ok escape])
      rw [opcode, bind_ok first, Scalar.Value.pattern, UInt8.ofNat_toNat, if_pos rfl, escape]
      exact bind_error (Cursor.read_of_short short) _
  have start : (get : Stepwise Cursor) cursor = (.ok cursor, cursor) := rfl
  rw [instruction, bind_ok start]
  exact bind_error failed _

/-- Byte after byte, an instruction is read as it stands, and a failure is where it should be. -/
theorem Stepwise.instruction_eq (backend : Backend) (policy : UnknownPolicy)
    (within : cursor.position ≤ cursor.length) :
    instruction backend policy cursor = (cursor.instruction backend policy).value := by
  rw [Cursor.instruction]
  cases found : Frame.read? cursor.rest with
  | none => exact instruction_of_none backend policy found
  | some frame =>
    apply eq_of_forget_ok
    rw [forget_instruction, Checked.instruction_ok backend policy within found]

end Reads

namespace Cursor

/-- What can be asked of a cursor. Each decoding may have a backend of its own. -/
inductive Operation
  | read (scalar : Scalar)
  | peek
  | advance (count : UInt64)
  | skipRest
  | operand (backend : Backend) (kind : OperandKind)
  | instruction (backend : Backend) (policy : UnknownPolicy)
  | stream (backend : Backend) (policy : UnknownPolicy)

/-- What a cursor answers. -/
inductive Answer
  | value (value : Scalar.Value)
  | byte (byte : UInt8)
  | moved
  | skipped (count : Nat)
  | operand (operand : DecodedOperand)
  | instruction (instruction : Instruction)
  | stream (instructions : List Instruction)

/-- The answer to an operation, or its failure, with the cursor behind it. -/
def perform (cursor : Cursor) : Operation → Except Error Answer × Cursor
  | .read scalar => (cursor.read scalar).map (Except.map .value) id
  | .peek => (cursor.peek.map .byte, cursor)
  | .advance count => (cursor.advance count.toNat).map (Except.map fun _ => .moved) id
  | .skipRest => cursor.skipRest.map (fun count => .ok (.skipped count)) id
  | .operand backend kind =>
    (cursor.operand backend kind).value.map (fun operand => .ok (.operand operand)) id
  | .instruction backend policy =>
    (cursor.instruction backend policy).value.map (Except.map .instruction) id
  | .stream backend policy =>
    (cursor.stream backend policy).value.map (fun instructions => .ok (.stream instructions)) id

/-- The same by single reads, each of which could fail. -/
def performStepwise (cursor : Cursor) : Operation → Except Error Answer × Cursor
  | .operand backend kind =>
    (Stepwise.ofChecked (Checked.operand backend kind) cursor).map (Except.map .operand) id
  | .instruction backend policy =>
    (Stepwise.instruction backend policy cursor).map (Except.map .instruction) id
  | .stream backend policy =>
    (Stepwise.ofChecked (Checked.stream backend policy) cursor).map (Except.map .stream) id
  | simple => cursor.perform simple

/-- The ways in which an operation can fail, with the cursor that each leaves behind. Only an escape
byte that stands alone is passed over. -/
inductive Fails : Operation → Cursor → Cursor → Prop
  | read {scalar cursor} : cursor.remaining < scalar.width → Fails (.read scalar) cursor cursor
  | peek {cursor} : cursor.remaining = 0 → Fails .peek cursor cursor
  | advance {count cursor} : cursor.remaining < count.toNat → Fails (.advance count) cursor cursor
  | exhausted {backend policy cursor} : cursor.remaining = 0 →
      Fails (.instruction backend policy) cursor cursor
  | loneEscape {backend policy cursor} : cursor.rest = [0xFE] →
      Fails (.instruction backend policy) cursor ⟨cursor.data, cursor.length⟩

/-- What holds between a cursor, an operation on it, and the result with the cursor behind it. -/
structure Keeps (before : Cursor) (operation : Operation) (result : Except Error Answer)
    (after : Cursor) : Prop where
  data : after.data = before.data
  within : after.position ≤ after.length
  whole : after.position + after.remaining = after.length
  forward : before.position ≤ after.position
  fault : ∀ error, result = .error error → ∃ site, error = .outOfBounds site
  fails : ∀ next, Fails operation before next ↔ (∃ error, result = .error error) ∧ after = next

variable {cursor : Cursor}

/-- Reading by single steps comes to the same. -/
theorem performStepwise_eq (within : cursor.position ≤ cursor.length) (operation : Operation) :
    cursor.performStepwise operation = cursor.perform operation := by
  cases operation with
  | operand backend kind =>
    rw [performStepwise, perform, Stepwise.ofChecked_ok (Checked.operand_ok backend kind within)]
    rfl
  | instruction backend policy =>
    rw [performStepwise, perform, Stepwise.instruction_eq backend policy within]
  | stream backend policy =>
    rw [performStepwise, perform, Stepwise.ofChecked_ok (Checked.stream_ok backend policy within)]
    rfl
  | read | peek | advance | skipRest => rfl

/-- An operation that answers has moved over bytes that were there. -/
theorem keeps_of_answer {operation : Operation} {answer : Answer} {count : Nat}
    (within : cursor.position ≤ cursor.length) (moved : count ≤ cursor.remaining)
    (never : ∀ next, ¬ Fails operation cursor next) :
    Keeps cursor operation (.ok answer) (cursor.forward count) := by
  rw [remaining] at moved
  have inside : (cursor.forward count).position ≤ (cursor.forward count).length := by
    show cursor.position + count ≤ cursor.length
    omega
  refine ⟨rfl, inside, ?_, Nat.le_add_right .., ?_, ?_⟩
  · rw [remaining]
    omega
  · intro error same
    cases same
  · intro next
    constructor
    · intro failed
      exact absurd failed (never next)
    · rintro ⟨⟨error, same⟩, _⟩
      cases same

/-- An operation that fails leaves the one cursor behind that its way of failing says. -/
theorem keeps_of_failure {operation : Operation} {after : Cursor}
    (within : cursor.position ≤ cursor.length) (failed : Fails operation cursor after)
    (only : ∀ next, Fails operation cursor next → next = after) :
    Keeps cursor operation (.error overrun) after := by
  have place : after.data = cursor.data ∧ (after.position = cursor.position ∨ after.position = cursor.length) := by
    cases failed with
    | read | peek | advance | exhausted => exact ⟨rfl, Or.inl rfl⟩
    | loneEscape => exact ⟨rfl, Or.inr rfl⟩
  have length : after.length = cursor.length := congrArg List.length place.1
  have inside : after.position ≤ after.length := by omega
  refine ⟨place.1, inside, ?_, by omega, ?_, ?_⟩
  · rw [remaining]
    omega
  · intro error same
    cases same
    exact ⟨_, rfl⟩
  · intro next
    constructor
    · intro other
      exact ⟨⟨_, rfl⟩, (only next other).symm⟩
    · rintro ⟨_, rfl⟩
      exact failed

section Operations

variable (within : cursor.position ≤ cursor.length)
include within

theorem keeps_read (scalar : Scalar) :
    Keeps cursor (.read scalar) (cursor.perform (.read scalar)).1 (cursor.perform (.read scalar)).2 := by
  rw [perform]
  by_cases enough : scalar.width ≤ cursor.remaining
  · rw [read_of_enough enough]
    refine keeps_of_answer within enough ?_
    intro next failed
    cases failed with
    | read short => omega
  · rw [read_of_short (Nat.not_le.mp enough)]
    refine keeps_of_failure within (.read (Nat.not_le.mp enough)) ?_
    intro next failed
    cases failed
    rfl

theorem keeps_peek :
    Keeps cursor .peek (cursor.perform .peek).1 (cursor.perform .peek).2 := by
  have length := cursor.remaining_eq
  cases rest : cursor.rest with
  | nil =>
    rw [rest] at length
    rw [perform, peek_of_nil rest]
    refine keeps_of_failure within (.peek length) ?_
    intro next failed
    cases failed
    rfl
  | cons byte later =>
    rw [rest] at length
    rw [perform, peek, rest]
    refine keeps_of_answer within (Nat.zero_le _) ?_
    intro next failed
    cases failed with
    | peek nothing =>
      rw [nothing] at length
      cases length

theorem keeps_advance (count : UInt64) :
    Keeps cursor (.advance count) (cursor.perform (.advance count)).1 (cursor.perform (.advance count)).2 := by
  rw [perform, advance]
  split
  · next short =>
    refine keeps_of_failure within (.advance short) ?_
    intro next failed
    cases failed
    rfl
  · next enough =>
    refine keeps_of_answer within (Nat.not_lt.mp enough) ?_
    intro next failed
    cases failed with
    | advance short => exact enough short

theorem keeps_skipRest :
    Keeps cursor .skipRest (cursor.perform .skipRest).1 (cursor.perform .skipRest).2 := by
  rw [perform, skipRest_eq cursor within]
  refine keeps_of_answer within le_rfl ?_
  intro next failed
  cases failed

theorem keeps_operand (backend : Backend) (kind : OperandKind) :
    Keeps cursor (.operand backend kind) (cursor.perform (.operand backend kind)).1
      (cursor.perform (.operand backend kind)).2 := by
  have room : (Operand.read kind cursor.rest).width ≤ cursor.remaining := by
    rw [remaining_eq]
    cases Operand.reads_read kind cursor.rest with
    | complete _ _ _ enough => exact enough
    | cut _ all _ => exact all.le
  refine keeps_of_answer within room ?_
  intro next failed
  cases failed

theorem keeps_instruction (backend : Backend) (policy : UnknownPolicy) :
    Keeps cursor (.instruction backend policy) (cursor.perform (.instruction backend policy)).1
      (cursor.perform (.instruction backend policy)).2 := by
  have length := cursor.remaining_eq
  rw [perform, instruction]
  cases found : Frame.read? cursor.rest with
  | some frame =>
    have room := Frame.width_le_of_read? found
    rw [← length] at room
    refine keeps_of_answer within room ?_
    intro next failed
    cases failed with
    | exhausted nothing =>
      have positive := frame.width_pos
      omega
    | loneEscape escape =>
      rw [escape] at found
      cases found
  | none =>
    rcases Frame.read?_eq_none_iff.mp found with empty | escape
    · rw [empty] at length ⊢
      refine keeps_of_failure within (.exhausted length) ?_
      intro next failed
      cases failed with
      | exhausted => rfl
      | loneEscape escape =>
        rw [empty] at escape
        cases escape
    · have finish : cursor.forward cursor.rest.length = ⟨cursor.data, cursor.length⟩ := by
        rw [← length]
        exact congrArg Prod.snd (cursor.skipRest_eq within).symm
      rw [finish]
      refine keeps_of_failure within (.loneEscape escape) ?_
      intro next failed
      cases failed with
      | exhausted nothing =>
        rw [length, escape] at nothing
        cases nothing
      | loneEscape => rfl

theorem keeps_stream (backend : Backend) (policy : UnknownPolicy) :
    Keeps cursor (.stream backend policy) (cursor.perform (.stream backend policy)).1
      (cursor.perform (.stream backend policy)).2 := by
  rw [perform, stream, skipRest_eq cursor within]
  refine keeps_of_answer within le_rfl ?_
  intro next failed
  cases failed

theorem keeps_perform (operation : Operation) :
    Keeps cursor operation (cursor.perform operation).1 (cursor.perform operation).2 := by
  cases operation with
  | read scalar => exact keeps_read within scalar
  | peek => exact keeps_peek within
  | advance count => exact keeps_advance within count
  | skipRest => exact keeps_skipRest within
  | operand backend kind => exact keeps_operand within backend kind
  | instruction backend policy => exact keeps_instruction within backend policy
  | stream backend policy => exact keeps_stream within backend policy

end Operations

/-- The cursor behind a sequence of operations, whether they answer or fail. -/
def performAll (cursor : Cursor) (operations : List Operation) : Cursor :=
  operations.foldl (fun current operation => (current.performStepwise operation).2) cursor

/-- No sequence of operations leads out of the data. -/
theorem performAll_within (within : cursor.position ≤ cursor.length) (operations : List Operation) :
    (cursor.performAll operations).data = cursor.data ∧
      (cursor.performAll operations).position ≤ (cursor.performAll operations).length := by
  induction operations generalizing cursor with
  | nil => exact ⟨rfl, within⟩
  | cons operation later ih =>
    have keeps := keeps_perform within operation
    rw [← performStepwise_eq within] at keeps
    obtain ⟨data, inside⟩ := ih keeps.within
    exact ⟨data.trans keeps.data, inside⟩

end Cursor

open Cursor in
/-- Whatever has been asked of a cursor before, an operation keeps it inside its data, never moves it
back, and fails only where too few bytes remain. Single reads give the answers of the whole. -/
theorem run_keeps_cursor (data : List UInt8) (earlier : List Operation) (operation : Operation) :
    let before := (start data).performAll earlier
    before.data = data ∧ before.performStepwise operation = before.perform operation ∧
      Keeps before operation (before.performStepwise operation).1 (before.performStepwise operation).2 := by
  have inside : (start data).position ≤ (start data).length := Nat.zero_le _
  obtain ⟨same, within⟩ := performAll_within inside earlier
  have whole := performStepwise_eq within operation
  refine ⟨same, whole, ?_⟩
  rw [whole]
  exact keeps_perform within operation

end CilListing
