import CilListing.Listing
import CilListing.Proofs.FrameTiling

namespace CilListing

/-- The instructions of a stream are those of its frames. -/
theorem decodeStream_value (backend : Backend) (policy : UnknownPolicy) (position : Nat)
    (bytes : List UInt8) :
    (decodeStream backend policy position bytes).value =
      (Framing.cut position bytes).frames.map fun placed =>
        (placed.frame.decode backend policy placed.position).value := by
  rw [decodeStream]
  exact List.map_map

theorem Disassembly.instructions_decode (code : List UInt8) (header : MethodHeader) (backend : Backend)
    (policy : UnknownPolicy) :
    (Disassembly.decode code header backend policy).value.instructions =
      (Framing.cut 0 code).frames.map fun placed =>
        (placed.frame.decode backend policy placed.position).value := decodeStream_value backend policy 0 code

section Step

variable (backend : Backend) (policy : UnknownPolicy) {position : Nat} {bytes : List UInt8}

/-- Where no frame begins, the stream ends. -/
theorem decodeStream_of_none (ended : Frame.read? bytes = none) :
    decodeStream backend policy position bytes = ⟨[], Framing.restEvents position bytes⟩ := by
  unfold decodeStream
  simp only [Framing.cut_of_none ended, Nat.add_sub_cancel]
  rfl

/-- Where a frame begins, its instruction comes first, with all that happens on the way to it. -/
theorem decodeStream_of_some {frame : Frame} (found : Frame.read? bytes = some frame) :
    decodeStream backend policy position bytes =
      let first := frame.decode backend policy position
      let later := decodeStream backend policy (position + frame.width) (bytes.drop frame.width)
      ⟨first.value :: later.value, first.events ++ later.events⟩ := by
  have within := Frame.width_le_of_read? found
  have finish : position + frame.width + (bytes.length - frame.width) = position + bytes.length := by omega
  unfold decodeStream
  simp only [Framing.cut_of_some found, List.length_drop, finish, Traced.before, Traced.collect, List.map_cons,
    List.flatMap_cons, List.append_assoc]

end Step

namespace Operand

theorem text_of_isCut {operand : Operand} (isCut : operand.isCut = true) (backend : Backend) (next : Nat) :
    (operand.text backend next).value = none := by
  cases operand with
  | cut | cutCount | cutTable => rfl
  | _ => cases isCut

theorem token?_of_isCut {operand : Operand} (isCut : operand.isCut = true) : operand.token? = none := by
  cases operand with
  | cut | cutCount | cutTable => rfl
  | _ => cases isCut

end Operand

namespace Frame

/-- The instruction of a frame field by field. -/
theorem decode_value (backend : Backend) (policy : UnknownPolicy) (position : Nat) (frame : Frame) :
    (frame.decode backend policy position).value =
      { offset := position.toUInt32
        size := frame.width.toUInt32
        code := frame.code
        opcode := if frame.opcode.isDefined then frame.opcode else policy.opcode
        operandText :=
          if frame.opcode.isDefined then (frame.operand.text backend (position + frame.width)).value
          else policy.operandText frame.code
        token := if frame.opcode.isDefined then frame.operand.token? else none } := by
  rw [decode]
  split <;> rfl

theorem opcode_eq_unknown {frame : Frame} (undefined : ¬ frame.opcode.isDefined = true) :
    frame.opcode = Opcode.unknown := by
  rw [Opcode.isDefined, bne_iff_ne, not_not] at undefined
  exact undefined

/-- Behind an unknown opcode no operand is read. -/
theorem operand_eq_absent {bytes : List UInt8} {frame : Frame} (found : read? bytes = some frame)
    (undefined : ¬ frame.opcode.isDefined = true) : frame.operand = .absent := by
  obtain ⟨rest, _, _, operand⟩ := exists_of_read? found
  have fixed : OperandKind.width? .none = some 0 := rfl
  rw [operand, opcode_eq_unknown undefined, Opcode.unknown,
    Operand.read_of_enough fixed (Nat.zero_le _), Operand.ofPattern]

/-- Neither way of showing an unknown opcode asks for an operand. -/
theorem kind_decode (backend : Backend) (policy : UnknownPolicy) (position : Nat) (frame : Frame) :
    (frame.decode backend policy position).value.opcode.kind = frame.opcode.kind := by
  rw [decode_value]
  dsimp only
  split
  · rfl
  · next undefined =>
    rw [opcode_eq_unknown undefined]
    cases policy <;> rfl

/-- An operand that is cut short is neither shown nor looked up. -/
theorem decode_of_isCut (backend : Backend) (policy : UnknownPolicy) (position : Nat)
    {bytes : List UInt8} {frame : Frame} (found : read? bytes = some frame)
    (isCut : frame.operand.isCut = true) :
    (frame.decode backend policy position).value.operandText = none ∧
      (frame.decode backend policy position).value.token = none := by
  have known : frame.opcode.isDefined = true := by
    by_contra undefined
    rw [operand_eq_absent found undefined] at isCut
    cases isCut
  rw [decode_value]
  simp only [known, if_true]
  exact ⟨Operand.text_of_isCut isCut backend _, Operand.token?_of_isCut isCut⟩

end Frame

end CilListing
