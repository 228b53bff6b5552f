import CilListing.Proofs.CheckedOperand
import CilListing.Proofs.FrameDecoding

namespace CilListing

/-- Where no frame begins, the first byte of an opcode is missing, or the one behind an escape. -/
theorem Cursor.lacks_of_none {cursor : Cursor} (ended : Frame.read? cursor.rest = none) :
    cursor.rest = [] ∧ cursor.remaining < Scalar.u8.width ∨
      cursor.rest = [Opcode.escape] ∧ (cursor.forward 1).remaining < Scalar.u8.width := by
  rcases Frame.read?_eq_none_iff.mp ended with empty | escape
  · have short : cursor.remaining < Scalar.u8.width := by
      rw [remaining_eq, empty]
      exact Nat.one_pos
    exact Or.inl ⟨empty, short⟩
  · have short : (cursor.forward 1).remaining < Scalar.u8.width := by
      rw [remaining_forward, remaining_eq, escape]
      exact Nat.one_pos
    exact Or.inr ⟨escape, short⟩

namespace Checked

/-- The code of an opcode of one or two bytes. -/
def opcode : Checked UInt16 := do
  let first ← value .u8
  if UInt8.ofNat first.pattern = Opcode.escape then
    let second ← value .u8
    return Opcode.escapedCode (UInt8.ofNat second.pattern)
  else return (UInt8.ofNat first.pattern).toUInt16

def instruction (backend : Backend) (policy : UnknownPolicy) : Checked Instruction := do
  let start ← get
  let code ← opcode
  if (Opcode.ofCode code).isDefined then
    let operand ← operand backend (Opcode.ofCode code).kind
    let finish ← get
    return {
      offset := start.position.toUInt32
      size := (finish.position - start.position).toUInt32
      code := code
      opcode := Opcode.ofCode code
      operandText := operand.text
      token := operand.token }
  else
    let finish ← get
    return {
      offset := start.position.toUInt32
      size := (finish.position - start.position).toUInt32
      code := code
      opcode := policy.opcode
      operandText := policy.operandText code
      token := none }

/-- Whether one byte is left and it is an escape. -/
def loneEscape : Checked Bool := fun cursor =>
  if cursor.remaining = 1 then cursor.peek.map fun byte => (byte == Opcode.escape, cursor)
  else .ok (false, cursor)

section

variable {cursor : Cursor}

theorem byte_ok {byte : UInt8} {rest : List UInt8} (split : cursor.rest = byte :: rest) :
    value .u8 cursor = .ok (.u8 byte, cursor.forward 1) := by
  have wide : Scalar.u8.width = 1 := rfl
  have enough : 1 ≤ cursor.remaining := by
    rw [Cursor.remaining_eq, split]
    exact Nat.le_add_left ..
  have pattern : littleEndian ((byte :: rest).take 1) = byte.toNat := rfl
  rw [value_ok wide enough, split, pattern, Scalar.ofPattern, UInt8.ofNat_toNat]

theorem opcode_ok {code : UInt16} {rest : List UInt8} (isCode : Opcode.IsCode code)
    (split : cursor.rest = Opcode.codeBytes code ++ rest) :
    opcode cursor = .ok (code, cursor.forward (Opcode.codeBytes code).length) := by
  rcases isCode with ⟨byte, single, rfl⟩ | ⟨byte, rfl⟩
  · rw [Opcode.codeBytes, if_neg (Opcode.not_toUInt16_gt byte), UInt8.toUInt8_toUInt16] at split ⊢
    rw [opcode, bind_of_run (byte_ok split), Scalar.Value.pattern, UInt8.ofNat_toNat, if_neg single]
    rfl
  · rw [Opcode.codeBytes, if_pos (Opcode.escapedCode_gt byte), Opcode.escapedCode_toUInt8] at split ⊢
    have second : (cursor.forward 1).rest = byte :: rest := by
      rw [Cursor.rest_forward, split]
      rfl
    rw [opcode, bind_of_run (byte_ok split), Scalar.Value.pattern, UInt8.ofNat_toNat, if_pos rfl,
      bind_of_run (byte_ok second), Scalar.Value.pattern, UInt8.ofNat_toNat]
    rfl

/-- A frame at the cursor is read as its instruction, without a failed read. -/
theorem instruction_ok (backend : Backend) (policy : UnknownPolicy) {frame : Frame}
    (within : cursor.position ≤ cursor.length) (found : Frame.read? cursor.rest = some frame) :
    instruction backend policy cursor =
      .ok ((frame.decode backend policy cursor.position).value, cursor.forward frame.width) := by
  obtain ⟨rest, isCode, split, read⟩ := Frame.exists_of_read? found
  have opcodeWidth := frame.length_codeBytes
  have behind : (cursor.forward frame.opcodeWidth).rest = rest := by
    rw [Cursor.rest_forward, split, ← opcodeWidth, List.drop_left]
  have same : Opcode.ofCode frame.code = frame.opcode := rfl
  rw [instruction, bind_of_run rfl, bind_of_run (opcode_ok isCode split), opcodeWidth, same, Frame.decode_value]
  by_cases known : frame.opcode.isDefined = true
  · have inside : (cursor.forward frame.opcodeWidth).position ≤ (cursor.forward frame.opcodeWidth).length := by
      have enough := Frame.width_le_of_read? found
      rw [← Cursor.remaining_eq, Cursor.remaining, Frame.width] at enough
      show cursor.position + frame.opcodeWidth ≤ cursor.length
      omega
    have next : (cursor.forward frame.opcodeWidth).forward frame.operand.width =
        cursor.forward frame.width := cursor.forward_forward ..
    have run : operand backend frame.opcode.kind (cursor.forward frame.opcodeWidth) =
        .ok (⟨(frame.operand.text backend (cursor.position + frame.width)).value, frame.operand.width,
          frame.operand.token?⟩, cursor.forward frame.width) := by
      rw [operand_ok backend _ inside, Cursor.operand, behind, ← read, next]
      rfl
    have size : (cursor.forward frame.width).position - cursor.position = frame.width :=
      Nat.add_sub_cancel_left ..
    rw [if_pos known, if_pos known, if_pos known, if_pos known, bind_of_run run, bind_of_run rfl, size]
    rfl
  · have width : frame.width = frame.opcodeWidth := by
      rw [Frame.width, Frame.operand_eq_absent found known]
      rfl
    have size : (cursor.forward frame.opcodeWidth).position - cursor.position = frame.opcodeWidth :=
      Nat.add_sub_cancel_left ..
    rw [if_neg known, if_neg known, if_neg known, if_neg known, bind_of_run rfl, width, size]
    rfl

/-- Where no frame begins, reading an instruction fails. -/
theorem instruction_error (backend : Backend) (policy : UnknownPolicy)
    (ended : Frame.read? cursor.rest = none) :
    instruction backend policy cursor = .error Cursor.overrun := by
  have failed : opcode cursor = .error Cursor.overrun := by
    rcases Cursor.lacks_of_none ended with ⟨_, short⟩ | ⟨escape, short⟩
    · exact bind_of_error (value_error short) _
    · rw [opcode, bind_of_run (byte_ok escape), Scalar.Value.pattern, UInt8.ofNat_toNat, if_pos rfl]
      exact bind_of_error (value_error short) _
  rw [instruction, bind_of_run rfl]
  exact bind_of_error failed _

theorem instruction_progress {backend : Backend} {policy : UnknownPolicy} {first : Instruction}
    {next : Cursor} (more : cursor.hasMore = true)
    (run : instruction backend policy cursor = .ok (first, next)) :
    next.remaining < cursor.remaining := by
  rw [Cursor.hasMore, decide_eq_true_eq] at more
  cases found : Frame.read? cursor.rest with
  | none => rw [instruction_error backend policy found] at run; cases run
  | some frame =>
    rw [instruction_ok backend policy more.le found] at run
    cases run
    have positive := frame.width_pos
    rw [Cursor.remaining_forward, Cursor.remaining]
    omega

/-- Reads instruction after instruction while bytes remain. An escape byte alone at the end is
passed over. -/
def stream (backend : Backend) (policy : UnknownPolicy) (cursor : Cursor) :
    Except Error (List Instruction × Cursor) :=
  if _more : cursor.hasMore = true then
    match loneEscape cursor with
    | .error error => .error error
    | .ok (true, _) => .ok ([], cursor.skipRest.2)
    | .ok (false, _) =>
      match _run : instruction backend policy cursor with
      | .error error => .error error
      | .ok (first, next) =>
        (stream backend policy next).map fun (later, finish) => (first :: later, finish)
  else .ok ([], cursor)
termination_by cursor.remaining
decreasing_by exact instruction_progress _more _run

theorem loneEscape_of_escape (escape : cursor.rest = [Opcode.escape]) :
    loneEscape cursor = .ok (true, cursor) := by
  have single : cursor.remaining = 1 := by
    rw [Cursor.remaining_eq, escape]
    rfl
  rw [loneEscape, if_pos single, Cursor.peek, escape]
  rfl

theorem loneEscape_of_some {frame : Frame} (found : Frame.read? cursor.rest = some frame) :
    loneEscape cursor = .ok (false, cursor) := by
  by_cases single : cursor.remaining = 1
  · rw [Cursor.remaining_eq, List.length_eq_one_iff] at single
    obtain ⟨byte, rest⟩ := single
    have other : byte ≠ Opcode.escape := by
      rintro rfl
      rw [rest] at found
      cases found
    have length : cursor.remaining = 1 := by
      rw [Cursor.remaining_eq, rest]
      rfl
    rw [loneEscape, if_pos length, Cursor.peek, rest]
    simp only [Except.map, beq_eq_false_iff_ne.mpr other]
  · rw [loneEscape, if_neg single]

theorem hasMore_iff : cursor.hasMore = true ↔ cursor.rest ≠ [] := by
  rw [Cursor.hasMore, decide_eq_true_eq, Cursor.rest, ne_eq, List.drop_eq_nil_iff, Nat.not_le]
  rfl

/-- Checked reading to the end of the bytes never fails, and it gives the instructions of the
frames that they are cut into. -/
theorem stream_ok (backend : Backend) (policy : UnknownPolicy) (within : cursor.position ≤ cursor.length) :
    stream backend policy cursor = .ok (cursor.stream backend policy).value := by
  have value (cursor : Cursor) : (cursor.stream backend policy).value =
      ((Framing.cut cursor.position cursor.rest).frames.map fun placed =>
        (placed.frame.decode backend policy placed.position).value, cursor.skipRest.2) := by
    rw [Cursor.stream, Traced.map, decodeStream_value]
  induction size : cursor.remaining using Nat.strongRecOn generalizing cursor with
  | _ size ih =>
    subst size
    rw [stream, value]
    cases found : Frame.read? cursor.rest with
    | none =>
      rw [Framing.cut_of_none found]
      rcases Frame.read?_eq_none_iff.mp found with empty | escape
      · have finish : cursor.position = cursor.length := by
          have none := cursor.remaining_eq
          rw [empty, Cursor.remaining, List.length_nil] at none
          omega
        have nothing : ¬ cursor.hasMore = true := by
          rw [hasMore_iff, not_not]
          exact empty
        rw [dif_neg nothing]
        simp only [Cursor.skipRest, ← finish, List.map_nil]
      · have more : cursor.hasMore = true := by
          rw [hasMore_iff, escape]
          exact List.cons_ne_nil _ _
        rw [dif_pos more, loneEscape_of_escape escape]
        rfl
    | some frame =>
      have more : cursor.hasMore = true := by
        rw [hasMore_iff]
        intro empty
        rw [empty] at found
        cases found
      have step := instruction_ok backend policy within found
      have enough := Frame.width_le_of_read? found
      have inside : (cursor.forward frame.width).position ≤ (cursor.forward frame.width).length := by
        rw [← Cursor.remaining_eq, Cursor.remaining] at enough
        show cursor.position + frame.width ≤ cursor.length
        omega
      have later := ih _ (instruction_progress more step) inside rfl
      rw [dif_pos more, loneEscape_of_some found, Framing.cut_of_some found]
      dsimp only
      split
      · next run =>
        rw [step] at run
        cases run
      · next run =>
        rw [step] at run
        cases run
        rw [later, value, Cursor.rest_forward]
        rfl

end

end Checked

end CilListing
