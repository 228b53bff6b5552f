import CilListing.Json.Printer
import CilListing.Listing

namespace CilListing

/-- The code of an opcode as a number. -/
def codeText (code : UInt16) : String := "0x" ++ hexUpper (if code > 0xFF then 4 else 2) code.toNat

/-- One instruction of a report. -/
structure ReportedInstruction where
  offset : UInt32
  label : String
  size : UInt32
  code : String
  mnemonic : String
  operand : Option String
  token : Option String
deriving DecidableEq, Repr

def ReportedInstruction.ofInstruction (instruction : Instruction) : ReportedInstruction where
  offset := instruction.offset
  label := CilListing.label instruction.offset.toNat
  size := instruction.size
  code := codeText instruction.code
  mnemonic := instruction.opcode.mnemonic
  operand := instruction.operandText
  token := instruction.token.map Token.text

/-- The disassembly of one method as data, and its listing. -/
structure Report where
  hasBody : Bool
  codeSize : Nat
  maxStack : UInt32
  locals : List LocalVariable
  instructions : List ReportedInstruction
  listing : String
deriving DecidableEq, Repr

namespace Report

/-- Reports on a method. Without a body there is nothing to report but the size of the code. -/
def build (code : List UInt8) (header : MethodHeader) (backend : Backend)
    (options : ListingOptions) : Traced Report :=
  if header.hasBody then
    (Disassembly.decode code header backend options.unknown).map fun disassembly =>
      { hasBody := true
        codeSize := code.length
        maxStack := disassembly.maxStack
        locals := disassembly.locals
        instructions := disassembly.instructions.map .ofInstruction
        listing := if code.isEmpty then emptyCodeText else disassembly.render options }
  else
    { value :=
        { hasBody := false
          codeSize := code.length
          maxStack := 0
          locals := []
          instructions := []
          listing := noBodyText }
      events := [] }

/-- A member that is left out where there is no value. -/
def optionalMember (key : String) : Option String → List (String × Json)
  | some text => [(key, .string text)]
  | none => []

def localJson (each : LocalVariable) : Json :=
  .object [("index", .integer each.index.toNat), ("type_name", .string each.typeName)]

def instructionJson (instruction : ReportedInstruction) : Json :=
  .object
    ([("offset", .integer instruction.offset.toNat),
      ("label", .string instruction.label),
      ("size", .integer instruction.size.toNat),
      ("code", .string instruction.code),
      ("mnemonic", .string instruction.mnemonic)] ++
      optionalMember "operand" instruction.operand ++
      optionalMember "token" instruction.token)

/-- The data of a report. The listing is not part of it. -/
def json (report : Report) : Json :=
  .object
    [("has_body", .bool report.hasBody),
      ("code_size", .integer report.codeSize),
      ("max_stack", .integer report.maxStack.toNat),
      ("locals", .array (report.locals.map localJson)),
      ("instructions", .array (report.instructions.map instructionJson))]

end Report

end CilListing
