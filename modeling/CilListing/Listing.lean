import CilListing.Instruction
import CilListing.Method.Header

namespace CilListing

/-- A local variable by its place in the declaration. -/
structure LocalVariable where
  index : UInt32
  typeName : String
deriving DecidableEq, Repr

namespace LocalVariable

/-- A local whose type cannot be named is of type `Unknown`. -/
def ofType (index : UInt32) (type : Option String) : LocalVariable := ⟨index, type.getD "Unknown"⟩

def text (each : LocalVariable) : String :=
  "[" ++ toString each.index.toNat ++ "] " ++ each.typeName

end LocalVariable

/-- What a listing shows besides the instructions themselves. -/
structure ListingOptions where
  header : Bool := true
  tokens : Bool := false
  unknown : UnknownPolicy := .mark
deriving DecidableEq, Repr

/-- A method body taken apart. -/
structure Disassembly where
  totalLength : UInt32
  maxStack : UInt32
  locals : List LocalVariable
  instructions : List Instruction
deriving DecidableEq, Repr

namespace Disassembly

/-- Takes the code of a method apart. It does not matter whether the header has a body. -/
def decode (code : List UInt8) (header : MethodHeader) (backend : Backend)
    (policy : UnknownPolicy) : Traced Disassembly :=
  (decodeStream backend policy 0 code).map fun instructions =>
    { totalLength := code.length.toUInt32
      maxStack := header.maxStack
      locals := header.localTypes.mapIdx fun index type => LocalVariable.ofType index.toUInt32 type
      instructions := instructions }

/-- The lines that list the locals. There are none without locals. -/
def localLines (disassembly : Disassembly) : List String :=
  if disassembly.locals.isEmpty then []
  else [".locals ("] ++ disassembly.locals.map (fun each => "    " ++ each.text) ++ [")"]

/-- The lines above the instructions, the last of them empty. -/
def headerLines (disassembly : Disassembly) : List String :=
  let length := disassembly.totalLength.toNat
  ["// Code size: " ++ toString length ++ " (0x" ++ hexUpper 4 length ++ ")",
    "// Max stack: " ++ toString disassembly.maxStack.toNat,
    "// Locals: " ++ toString disassembly.locals.length] ++
    disassembly.localLines ++ [""]

/-- The line of one instruction, with its token behind it if tokens are shown. -/
def instructionLine (tokens : Bool) (instruction : Instruction) : String :=
  instruction.text ++
    match instruction.token with
    | some token => if tokens then " /* " ++ token.text ++ " */" else ""
    | none => ""

def lines (disassembly : Disassembly) (options : ListingOptions) : List String :=
  (if options.header then disassembly.headerLines else []) ++
    disassembly.instructions.map (instructionLine options.tokens)

/-- All lines, each with a line feed behind it. -/
def render (disassembly : Disassembly) (options : ListingOptions) : String :=
  String.join ((disassembly.lines options).map fun line => line ++ "\n")

end Disassembly

/-- Stands for the listing of a method without a body. -/
def noBodyText : String := "Method has no IL body (abstract, extern, runtime or interface method)."

/-- Stands for the listing of a body without code. -/
def emptyCodeText : String := "No IL code available."

/-- The listing of a method. -/
def disassemble (code : List UInt8) (header : MethodHeader) (backend : Backend)
    (options : ListingOptions) : Traced String :=
  if !header.hasBody then ⟨noBodyText, []⟩
  else if code.isEmpty then ⟨emptyCodeText, []⟩
  else (Disassembly.decode code header backend options.unknown).map fun disassembly =>
    disassembly.render options

end CilListing
