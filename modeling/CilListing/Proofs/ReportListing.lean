import CilListing.Proofs.TotalDecoding
import CilListing.Report

namespace CilListing

namespace Json

def member? (key : String) : Json → Option Json
  | object members => members.lookup key
  | _ => none

def textAt? (key : String) (json : Json) : Option String :=
  match json.member? key with
  | some (string text) => some text
  | _ => none

def naturalAt? (key : String) (json : Json) : Option Nat :=
  match json.member? key with
  | some (integer (.ofNat number)) => some number
  | _ => none

def itemsAt? (key : String) (json : Json) : Option (List Json) :=
  match json.member? key with
  | some (array items) => some items
  | _ => none

/-- The text under a key as it is shown. A key that is missing shows nothing. -/
def shownAt? (key : String) (shown : String → String) (json : Json) : Option String :=
  match json.member? key with
  | none => some ""
  | some (string text) => some (shown text)
  | some _ => none

end Json

section Data

/-- The line of an instruction that its data tell, with the line feed behind it. -/
def lineOfData? (tokens : Bool) (instruction : Json) : Option String := do
  let label ← instruction.textAt? "label"
  let mnemonic ← instruction.textAt? "mnemonic"
  let operand ← instruction.shownAt? "operand" fun text => " " ++ text
  let token ← if tokens then instruction.shownAt? "token" fun text => " /* " ++ text ++ " */" else some ""
  return label ++ ": " ++ mnemonic ++ operand ++ token ++ "\n"

def localLineOfData? (each : Json) : Option String := do
  let index ← each.naturalAt? "index"
  let typeName ← each.textAt? "type_name"
  return "    " ++ ("[" ++ toString index ++ "] " ++ typeName) ++ "\n"

/-- The declaration of the locals. There is none without locals. -/
def localsBlock (localLines : List String) : String :=
  if localLines.isEmpty then "" else ".locals (\n" ++ String.join localLines ++ ")\n"

/-- The block above the instructions, from nothing but the size of the code, the stack depth and the
lines of the locals. -/
def headerBlock (codeSize maxStack : Nat) (localLines : List String) : String :=
  String.join
    ["// Code size: " ++ toString codeSize ++ " (0x" ++ hexUpper 4 codeSize ++ ")" ++ "\n",
      "// Max stack: " ++ toString maxStack ++ "\n",
      "// Locals: " ++ toString localLines.length ++ "\n",
      localsBlock localLines,
      "\n"]

def headerOfData? (report : Json) : Option String := do
  let codeSize ← report.naturalAt? "code_size"
  let maxStack ← report.naturalAt? "max_stack"
  let locals ← report.itemsAt? "locals"
  let localLines ← locals.mapM localLineOfData?
  return headerBlock codeSize maxStack localLines

/-- The listing that the data of a report tell: the lines of the instructions in order, below the
header block if headers are shown. -/
def listingOfData? (options : ListingOptions) (report : Json) : Option String := do
  let block ← if options.header then headerOfData? report else some ""
  let instructions ← report.itemsAt? "instructions"
  let lines ← instructions.mapM (lineOfData? options.tokens)
  return block ++ String.join lines

/-- Reports by checked reading, which a failed read would break off. -/
def Report.buildChecked (code : List UInt8) (header : MethodHeader) (backend : Backend)
    (options : ListingOptions) : Except Error Report :=
  if header.hasBody then
    (Disassembly.decodeChecked code header backend options.unknown).map fun disassembly =>
      { hasBody := true
        codeSize := code.length
        maxStack := disassembly.maxStack
        locals := disassembly.locals
        instructions := disassembly.instructions.map .ofInstruction
        listing := if code.isEmpty then emptyCodeText else disassembly.render options }
  else
    .ok
      { hasBody := false
        codeSize := code.length
        maxStack := 0
        locals := []
        instructions := []
        listing := noBodyText }

end Data

section Reading

/-- Where each item is understood, so are all of them together. -/
theorem mapM_map_some {α β γ : Type} {write : α → β} {read : β → Option γ} {shown : α → γ}
    (each : ∀ item, read (write item) = some (shown item)) (items : List α) :
    (items.map write).mapM read = some (items.map shown) := by
  have composed : read ∘ write = fun item => pure (shown item) := funext each
  rw [List.mapM_map, composed, List.mapM_pure]
  rfl

theorem lineOfData?_ofInstruction (tokens : Bool) (instruction : Instruction) :
    lineOfData? tokens (Report.instructionJson (.ofInstruction instruction)) =
      some (Disassembly.instructionLine tokens instruction ++ "\n") := by
  obtain ⟨offset, size, code, opcode, operandText, token⟩ := instruction
  cases operandText <;> cases token <;> cases tokens <;> rfl

theorem localLineOfData?_localJson (each : LocalVariable) :
    localLineOfData? (Report.localJson each) = some ("    " ++ each.text ++ "\n") := rfl

/-- The lines of the locals, each with its line feed. -/
theorem join_localLines (disassembly : Disassembly) :
    String.join (disassembly.localLines.map fun line => line ++ "\n") =
      localsBlock (disassembly.locals.map fun each => "    " ++ each.text ++ "\n") := by
  rw [Disassembly.localLines, localsBlock, List.isEmpty_map]
  split
  · rfl
  · rw [List.map_append, List.map_append, List.map_map, String.join_append, String.join_append]
    rfl

/-- The header block of a listing, each line with its line feed. -/
theorem join_headerLines (disassembly : Disassembly) :
    String.join (disassembly.headerLines.map fun line => line ++ "\n") =
      headerBlock disassembly.totalLength.toNat disassembly.maxStack.toNat
        (disassembly.locals.map fun each => "    " ++ each.text ++ "\n") := by
  rw [Disassembly.headerLines, headerBlock, List.map_append, List.map_append, String.join_append,
    String.join_append, join_localLines, List.length_map]
  simp only [List.map_cons, List.map_nil, String.join_cons, String.join_nil, String.append_empty,
    String.empty_append, String.append_assoc]

/-- A listing is the lines of its instructions, below the header block if headers are shown. -/
theorem render_eq (disassembly : Disassembly) (options : ListingOptions) :
    disassembly.render options =
      (if options.header then
          headerBlock disassembly.totalLength.toNat disassembly.maxStack.toNat
            (disassembly.locals.map fun each => "    " ++ each.text ++ "\n")
        else "") ++
      String.join (disassembly.instructions.map fun instruction =>
        Disassembly.instructionLine options.tokens instruction ++ "\n") := by
  rw [Disassembly.render, Disassembly.lines, List.map_append, String.join_append, List.map_map,
    ← join_headerLines]
  split <;> rfl

theorem headerOfData?_json (report : Report) :
    headerOfData? report.json =
      some (headerBlock report.codeSize report.maxStack.toNat
        (report.locals.map fun each => "    " ++ each.text ++ "\n")) := by
  have size : report.json.naturalAt? "code_size" = some report.codeSize := rfl
  have stack : report.json.naturalAt? "max_stack" = some report.maxStack.toNat := rfl
  have locals : report.json.itemsAt? "locals" = some (report.locals.map Report.localJson) := rfl
  have lines := mapM_map_some localLineOfData?_localJson report.locals
  simp only [headerOfData?, size, stack, locals, lines, Option.bind_eq_bind, Option.bind_some]
  rfl

/-- A report whose data are those of a disassembly tells its listing. -/
theorem listingOfData?_json (options : ListingOptions) {report : Report} {disassembly : Disassembly}
    (size : report.codeSize = disassembly.totalLength.toNat) (stack : report.maxStack = disassembly.maxStack)
    (locals : report.locals = disassembly.locals)
    (instructions : report.instructions = disassembly.instructions.map .ofInstruction) :
    listingOfData? options report.json = some (disassembly.render options) := by
  have block := headerOfData?_json report
  have items : report.json.itemsAt? "instructions" =
      some (report.instructions.map Report.instructionJson) := rfl
  have lines : (report.instructions.map Report.instructionJson).mapM (lineOfData? options.tokens) =
      some (disassembly.instructions.map fun instruction =>
        Disassembly.instructionLine options.tokens instruction ++ "\n") := by
    rw [instructions, List.map_map]
    exact mapM_map_some (lineOfData?_ofInstruction options.tokens) disassembly.instructions
  rw [size, stack, locals] at block
  simp only [listingOfData?, block, items, lines, Option.bind_eq_bind, Option.bind_some, render_eq]
  split <;> rfl

end Reading

namespace Report

variable (code : List UInt8) (header : MethodHeader) (backend : Backend) (options : ListingOptions)

theorem buildChecked_ok :
    buildChecked code header backend options = .ok (build code header backend options).value := by
  rw [buildChecked, build, Disassembly.decodeChecked_ok]
  split <;> rfl

/-- The two ways to a listing tell a method without a body and a body without code apart in the
same way. -/
theorem listing_build :
    (build code header backend options).value.listing =
      (disassemble code header backend options).value := by
  rw [build, disassemble]
  cases header.hasBody with
  | false => rfl
  | true =>
    cases code with
    | nil => rfl
    | cons => rfl

theorem json_build_with (shown tokens : Bool) :
    (build code header backend { options with header := shown, tokens := tokens }).value.json =
      (build code header backend options).value.json := by
  rw [build, build]
  split <;> rfl

variable {code header}

theorem listingOfData?_build (short : code.length < 2 ^ 32) (body : header.hasBody = true)
    (nonempty : code ≠ []) :
    listingOfData? options (build code header backend options).value.json =
      some (build code header backend options).value.listing := by
  have listing : (build code header backend options).value.listing =
      (Disassembly.decode code header backend options.unknown).value.render options := by
    rw [build, if_pos body]
    exact if_neg (mt List.isEmpty_iff.mp nonempty)
  -- The data hold the length of the code itself, the disassembly its lowest 32 bits.
  have size : code.length = code.length.toUInt32.toNat := (UInt32.toNat_ofNat_of_lt short).symm
  rw [listing, build, if_pos body]
  exact listingOfData?_json options size rfl rfl rfl

end Report

/-- A report can be built for every method, and its listing is the one that `disassemble` gives. What
is shown besides the instructions has no part in the data, and yet the data tell the whole listing of
a body with code. -/
theorem report_tells_listing (code : List UInt8) (short : code.length < 2 ^ 32) (header : MethodHeader)
    (backend : Backend) (options : ListingOptions) :
    Report.buildChecked code header backend options =
        .ok (Report.build code header backend options).value ∧
      (Report.build code header backend options).value.listing =
        disassembleChecked code header backend options ∧
      (Report.build code header backend options).value.listing =
        (disassemble code header backend options).value ∧
      (∀ shown tokens,
        (Report.build code header backend
          { options with header := shown, tokens := tokens }).value.json =
          (Report.build code header backend options).value.json) ∧
      (header.hasBody = true → code ≠ [] →
        listingOfData? options (Report.build code header backend options).value.json =
          some (Report.build code header backend options).value.listing) := by
  have listing := Report.listing_build code header backend options
  refine ⟨Report.buildChecked_ok .., ?_, listing, Report.json_build_with code header backend options,
    Report.listingOfData?_build backend options short⟩
  rw [disassembleChecked_eq, listing]

/-- A call of a method that has a name, in a body with one local whose type has none. -/
theorem report_tells_listing_namedCall :
    let symbols := Symbols.ofEntries [.method ⟨0x06000001⟩ ⟨"Log", "Write"⟩]
    let report :=
      (Report.build [0x28, 1, 0, 0, 6, 0x2A] ⟨true, 8, [none]⟩ symbols.backend { tokens := true }).value
    [0x28, 1, 0, 0, 6, 0x2A].length < 2 ^ 32 ∧
      report.listing =
        "// Code size: 6 (0x0006)\n// Max stack: 8\n// Locals: 1\n.locals (\n    [0] Unknown\n)\n\n" ++
          "IL_0000: call Log.Write /* 0x06000001 */\nIL_0005: ret\n" ∧
      listingOfData? { tokens := true } report.json = some report.listing := by
  intro symbols report
  obtain ⟨-, -, -, -, told⟩ := report_tells_listing [0x28, 1, 0, 0, 6, 0x2A] (by decide)
    ⟨true, 8, [none]⟩ symbols.backend { tokens := true }
  exact ⟨by decide, by decide +kernel, told rfl (List.cons_ne_nil _ _)⟩

end CilListing
