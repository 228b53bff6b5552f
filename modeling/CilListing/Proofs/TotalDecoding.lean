import CilListing.Metadata.Symbols
import CilListing.Proofs.CheckedStream
import CilListing.Proofs.InstructionTiling

namespace CilListing

/-- Takes code apart by checked reading, which a failed read would break off. -/
def Disassembly.decodeChecked (code : List UInt8) (header : MethodHeader) (backend : Backend)
    (policy : UnknownPolicy) : Except Error Disassembly :=
  (Checked.stream backend policy (Cursor.start code)).map fun (instructions, _) =>
    { totalLength := code.length.toUInt32
      maxStack := header.maxStack
      locals := header.localTypes.mapIdx fun index type => LocalVariable.ofType index.toUInt32 type
      instructions := instructions }

/-- The listing of a method by checked reading. A failure would take the place of the listing. -/
def disassembleChecked (code : List UInt8) (header : MethodHeader) (backend : Backend)
    (options : ListingOptions) : String :=
  if !header.hasBody then noBodyText
  else if code.isEmpty then emptyCodeText
  else match Disassembly.decodeChecked code header backend options.unknown with
    | .ok disassembly => disassembly.render options
    | .error error =>
      "Error disassembling method body: " ++ error.category ++ ": " ++ error.message

theorem Disassembly.decodeChecked_ok (code : List UInt8) (header : MethodHeader) (backend : Backend)
    (policy : UnknownPolicy) :
    decodeChecked code header backend policy = .ok (decode code header backend policy).value := by
  have within : (Cursor.start code).position ≤ (Cursor.start code).length := Nat.zero_le _
  rw [decodeChecked, Checked.stream_ok backend policy within]
  rfl

theorem disassembleChecked_eq (code : List UInt8) (header : MethodHeader) (backend : Backend)
    (options : ListingOptions) :
    disassembleChecked code header backend options = (disassemble code header backend options).value := by
  rw [disassembleChecked, disassemble, Disassembly.decodeChecked_ok]
  split
  · rfl
  · split <;> rfl

/-- Every code decodes without a failed read, so a listing never reports a failure in its place,
and the instructions lie on the code without gap or overlap. -/
theorem decode_ok_and_tiles (code : List UInt8) (short : code.length < 2 ^ 32) (header : MethodHeader)
    (backend : Backend) (options : ListingOptions) :
    Disassembly.decodeChecked code header backend options.unknown =
        .ok (Disassembly.decode code header backend options.unknown).value ∧
      disassembleChecked code header backend options =
        (disassemble code header backend options).value ∧
      InstructionTiling code
        (Disassembly.decode code header backend options.unknown).value.instructions :=
  ⟨Disassembly.decodeChecked_ok .., disassembleChecked_eq ..,
    tiling_decodeStream short backend options.unknown⟩

/-- An unknown opcode, a switch that announces more cases than any code can hold, and nothing
behind its count. -/
theorem decode_ok_and_tiles_hostile :
    [0xA6, 0x45, 0xFF, 0xFF, 0xFF, 0xFF].length < 2 ^ 32 ∧
      InstructionTiling [0xA6, 0x45, 0xFF, 0xFF, 0xFF, 0xFF]
        (Disassembly.decode [0xA6, 0x45, 0xFF, 0xFF, 0xFF, 0xFF] (.plain 8) Symbols.empty.backend
          .mark).value.instructions :=
  ⟨by decide, (decode_ok_and_tiles _ (by decide) (.plain 8) Symbols.empty.backend {}).2.2⟩

end CilListing
