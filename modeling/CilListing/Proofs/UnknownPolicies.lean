import CilListing.Metadata.Symbols
import CilListing.Proofs.BodyListing
import CilListing.Proofs.CheckedStream
import CilListing.Proofs.ListingWords

namespace CilListing

namespace Opcode

/-- The bytes of an opcode as they stand in the code, each in hexadecimal. -/
def rawText (code : UInt16) : String :=
  " ".intercalate ((codeBytes code).map fun byte => "0x" ++ hexUpper 2 byte.toNat)

/-- The code that such a text stands for. The blank tells two bytes from one. -/
def codeOfRawText (chars : List Char) : Nat :=
  let first := chars.takeWhile (· != ' ')
  let second := (chars.dropWhile (· != ' ')).drop 1
  if second.isEmpty then hexValue (first.drop 2)
  else 256 * hexValue (first.drop 2) + hexValue (second.drop 2)

/-- The text of an unknown opcode shows the bytes that it was read from. -/
theorem codeBytesText_eq_rawText {code : UInt16} (isCode : IsCode code) :
    codeBytesText code = rawText code := by
  rcases isCode with ⟨byte, _, rfl⟩ | ⟨byte, rfl⟩
  · have single := not_toUInt16_gt byte
    rw [codeBytesText, rawText, codeBytes, if_neg single, if_neg single, UInt8.toUInt8_toUInt16,
      UInt8.toNat_toUInt16]
    rfl
  · have double := escapedCode_gt byte
    have bound := byte.toNat_lt
    have high : (escapedCode byte).toNat / 256 = escape.toNat := by
      rw [escapedCode_toNat]
      show _ = 254
      omega
    have low : (escapedCode byte).toNat % 256 = byte.toNat := by
      rw [escapedCode_toNat]
      omega
    rw [codeBytesText, rawText, codeBytes, if_pos double, if_pos double, escapedCode_toUInt8, high, low]
    simp only [List.map_cons, List.map_nil, String.intercalate_cons_cons, String.intercalate_singleton]
    simp only [← String.append_assoc]
    rfl

theorem codeOfRawText_codeBytesText (code : UInt16) :
    codeOfRawText (codeBytesText code).toList = code.toNat := by
  have blankless (n : Nat) : ∀ char ∈ '0' :: 'x' :: (hexUpper 2 n).toList, (char != ' ') = true := by
    intro char member
    rw [bne_iff_ne]
    rintro rfl
    simp only [List.mem_cons, Char.reduceEq, false_or] at member
    exact notMem_hexUpper (by decide) 2 n member
  have front (n : Nat) (later : List Char) :
      ('0' :: 'x' :: (hexUpper 2 n).toList ++ ' ' :: later).takeWhile (· != ' ') =
        '0' :: 'x' :: (hexUpper 2 n).toList := by
    rw [List.takeWhile_append_of_pos (blankless n), List.takeWhile_cons_of_neg (by decide), List.append_nil]
  have back (n : Nat) (later : List Char) :
      ('0' :: 'x' :: (hexUpper 2 n).toList ++ ' ' :: later).dropWhile (· != ' ') = ' ' :: later := by
    rw [List.dropWhile_append_of_pos (blankless n), List.dropWhile_cons_of_neg (by decide)]
  simp only [List.cons_append] at front back
  rw [codeBytesText_toList]
  split
  · rw [codeOfRawText, front, back]
    simp only [List.drop_succ_cons, List.drop_zero, List.isEmpty_cons, Bool.false_eq_true, if_false,
      hexValue_hexUpper]
    omega
  · rw [codeOfRawText, List.takeWhile_eq_self_iff.mpr (blankless code.toNat),
      List.dropWhile_eq_nil_iff.mpr (blankless code.toNat)]
    simp only [List.drop_succ_cons, List.drop_zero, List.drop_nil, List.isEmpty_nil, if_true,
      hexValue_hexUpper]

/-- What stands for a code is known exactly when the code is listed. -/
theorem isDefined_ofCode_iff {code : UInt16} (isCode : IsCode code) :
    (ofCode code).isDefined = true ↔ ∃ opcode, (code, opcode) ∈ defined := by
  constructor
  · intro known
    exact ⟨_, mem_defined_of_isDefined isCode known⟩
  · rintro ⟨opcode, listed⟩
    rw [ofCode_of_mem_defined listed]
    exact isDefined_of_mem_defined listed

end Opcode

namespace Instruction

/-- One unlisted opcode, shown once by its bytes and once as an instruction that does nothing. -/
structure ShownBothWays (marked plain : Instruction) : Prop where
  markedOpcode : marked.opcode = Opcode.unknown
  markedText : ∃ text, marked.operandText = some text ∧ text = Opcode.rawText marked.code ∧
    Opcode.codeOfRawText text.toList = marked.code.toNat
  markedUnknown : marked.isUnknown = true
  plainOpcode : plain.opcode = ⟨"nop", .none⟩
  plainText : plain.operandText = none
  plainUnknown : plain.isUnknown = false
  sizes : (∃ byte : UInt8, marked.code = byte.toUInt16 ∧ marked.size = 1 ∧ plain.size = 1) ∨
    ∃ byte : UInt8, marked.code = Opcode.escapedCode byte ∧ marked.size = 2 ∧ plain.size = 2

/-- Two instructions at one place that are the same unless their opcode is unlisted. -/
structure SameIfListed (marked plain : Instruction) : Prop where
  offset : marked.offset = plain.offset
  size : marked.size = plain.size
  code : marked.code = plain.code
  token : marked.token = plain.token
  listed : (∃ opcode, (marked.code, opcode) ∈ Opcode.defined) → marked = plain
  unlisted : (¬ ∃ opcode, (marked.code, opcode) ∈ Opcode.defined) → ShownBothWays marked plain

end Instruction

namespace Frame

variable {bytes : List UInt8} {frame : Frame} (backend : Backend)

/-- An unlisted opcode takes its own bytes and no more. -/
theorem width_of_undefined (found : read? bytes = some frame)
    (undefined : ¬ frame.opcode.isDefined = true) :
    (∃ byte : UInt8, frame.code = byte.toUInt16 ∧ frame.width = 1) ∨
      ∃ byte : UInt8, frame.code = Opcode.escapedCode byte ∧ frame.width = 2 := by
  obtain ⟨_, isCode, _, _⟩ := exists_of_read? found
  have width : frame.width = frame.opcodeWidth := by
    rw [Frame.width, operand_eq_absent found undefined]
    rfl
  rw [width, opcodeWidth]
  rcases isCode with ⟨byte, _, code⟩ | ⟨byte, code⟩
  · exact Or.inl ⟨byte, code, by rw [code, if_neg (Opcode.not_toUInt16_gt byte)]⟩
  · exact Or.inr ⟨byte, code, by rw [code, if_pos (Opcode.escapedCode_gt byte)]⟩

theorem shownBothWays_of_undefined (found : read? bytes = some frame)
    (undefined : ¬ frame.opcode.isDefined = true) (position : Nat) :
    Instruction.ShownBothWays (frame.decode backend .mark position).value
      (frame.decode backend .nop position).value := by
  obtain ⟨_, isCode, _, _⟩ := exists_of_read? found
  have marked : (!UnknownPolicy.mark.opcode.isDefined) = true := by decide
  have plain : (!UnknownPolicy.nop.opcode.isDefined) = false := by decide
  rw [decode_value, decode_value]
  simp only [if_neg undefined]
  refine ⟨rfl, ⟨_, rfl, Opcode.codeBytesText_eq_rawText isCode,
    Opcode.codeOfRawText_codeBytesText frame.code⟩, marked, rfl, rfl, plain, ?_⟩
  rcases width_of_undefined found undefined with ⟨byte, code, width⟩ | ⟨byte, code, width⟩
  · exact Or.inl ⟨byte, code, by rw [width]; rfl, by rw [width]; rfl⟩
  · exact Or.inr ⟨byte, code, by rw [width]; rfl, by rw [width]; rfl⟩

theorem decode_sameIfListed (found : read? bytes = some frame) (position : Nat) :
    Instruction.SameIfListed (frame.decode backend .mark position).value
      (frame.decode backend .nop position).value := by
  obtain ⟨_, isCode, _, _⟩ := exists_of_read? found
  have code : (frame.decode backend .mark position).value.code = frame.code := by rw [decode_value]
  have known := Opcode.isDefined_ofCode_iff isCode
  refine ⟨?_, ?_, ?_, ?_, ?_, ?_⟩
  · rw [decode_value, decode_value]
  · rw [decode_value, decode_value]
  · rw [decode_value, decode_value]
  · rw [decode_value, decode_value]
  · intro listed
    rw [code, ← known] at listed
    rw [decode_value, decode_value]
    simp only [show frame.opcode.isDefined = true from listed, if_true]
  · intro unlisted
    rw [code, ← known] at unlisted
    exact shownBothWays_of_undefined backend found unlisted position

/-- Nothing that happens on the way depends on how unknown opcodes are shown. -/
theorem decode_events (first second : UnknownPolicy) (position : Nat) (frame : Frame) :
    (frame.decode backend first position).events = (frame.decode backend second position).events := by
  rw [decode, decode]
  split <;> rfl

end Frame

section Stream

variable (backend : Backend) (position : Nat) (bytes : List UInt8)

theorem decodeStream_sameIfListed :
    List.Forall₂ Instruction.SameIfListed (decodeStream backend .mark position bytes).value
      (decodeStream backend .nop position bytes).value := by
  rw [decodeStream_value, decodeStream_value, List.forall₂_map_left_iff, List.forall₂_map_right_iff,
    List.forall₂_same]
  intro placed member
  have found := ((Framing.tiles_cut position bytes).read?_of_mem member).2
  exact Frame.decode_sameIfListed backend found placed.position

theorem decodeStream_events (first second : UnknownPolicy) :
    (decodeStream backend first position bytes).events =
      (decodeStream backend second position bytes).events := by
  have frames (placed : PlacedFrame) : (placed.frame.decode backend first placed.position).events =
      (placed.frame.decode backend second placed.position).events :=
    placed.frame.decode_events backend first second placed.position
  rw [decodeStream, decodeStream]
  simp only [Traced.before, Traced.collect, List.flatMap_map, frames]

end Stream

/-- The two ways of showing unknown opcodes part only where an opcode is unlisted. They take the same
bytes and ask the backend for the same things in the same order, from any place in the bytes. -/
theorem policies_part_at_unlisted (backend : Backend) :
    (∀ cursor : Cursor,
      List.Forall₂ Instruction.SameIfListed (cursor.stream backend .mark).value.1
          (cursor.stream backend .nop).value.1 ∧
        (cursor.stream backend .mark).value.2 = (cursor.stream backend .nop).value.2 ∧
        (cursor.stream backend .mark).lookups = (cursor.stream backend .nop).lookups ∧
        (cursor.stream backend .mark).events = (cursor.stream backend .nop).events) ∧
    ∀ (code : List UInt8) (header : MethodHeader),
      List.Forall₂ Instruction.SameIfListed
          (Disassembly.decode code header backend .mark).value.instructions
          (Disassembly.decode code header backend .nop).value.instructions ∧
        (Disassembly.decode code header backend .mark).lookups =
          (Disassembly.decode code header backend .nop).lookups := by
  constructor
  · intro cursor
    have same := decodeStream_events backend cursor.position cursor.rest .mark .nop
    exact ⟨decodeStream_sameIfListed .., rfl, congrArg (List.filter _) same, same⟩
  · intro code header
    have same := decodeStream_events backend 0 code .mark .nop
    exact ⟨decodeStream_sameIfListed .., congrArg (List.filter _) same⟩

/-- Unlisted opcodes of one byte and of two, with a listed one between them that is the same both ways. -/
theorem policies_part_at_unlisted_bothWidths :
    let cursor : Cursor := .start [0xA6, 0x2A, 0xFE, 0x30]
    let marked := (cursor.stream Symbols.empty.backend .mark).value.1
    let plain := (cursor.stream Symbols.empty.backend .nop).value.1
    marked = [⟨0, 1, 0xA6, Opcode.unknown, some "0xA6", none⟩, ⟨1, 1, 0x2A, ⟨"ret", .none⟩, none, none⟩,
        ⟨2, 2, 0xFE30, Opcode.unknown, some "0xFE 0x30", none⟩] ∧
      plain = [⟨0, 1, 0xA6, ⟨"nop", .none⟩, none, none⟩, ⟨1, 1, 0x2A, ⟨"ret", .none⟩, none, none⟩,
        ⟨2, 2, 0xFE30, ⟨"nop", .none⟩, none, none⟩] ∧
      List.Forall₂ Instruction.SameIfListed marked plain := by
  intro cursor marked plain
  exact ⟨by decide +kernel, by decide +kernel,
    ((policies_part_at_unlisted Symbols.empty.backend).1 cursor).1⟩

end CilListing
