import CilListing.Report
import CilListing.Text.Columns

namespace CilListing

namespace Opcode

/-- The cells of one opcode. The width of a switch varies. -/
def cells (code : UInt16) (opcode : Opcode) : List String :=
  [codeText code, opcode.mnemonic, opcode.kind.name,
    match opcode.kind.width? with
    | some width => toString width
    | none => "var"]

/-- All opcodes under their headings, one on each line. -/
def overviewLines : List String :=
  columnLines [.left, .left, .left, .right]
    (["Code", "Mnemonic", "Operand", "Size"] ::
      defined.map fun (code, opcode) => opcode.cells code)

def json (code : UInt16) (opcode : Opcode) : Json :=
  .object
    [("code", .string (codeText code)),
      ("mnemonic", .string opcode.mnemonic),
      ("operand_kind", .string opcode.kind.name),
      ("operand_size",
        match opcode.kind.width? with
        | some width => .integer width
        | none => .null)]

/-- All opcodes as data. -/
def overviewJson : Json :=
  .object [("opcodes", .array (defined.map fun (code, opcode) => opcode.json code))]

end Opcode

end CilListing
