import CilListing.CommandLine.Arguments
import CilListing.Opcode.Overview
import CilListing.SymbolFile
import CilListing.Text.Controls
import CilListing.Text.Lines
import CilListing.Text.Utf8

namespace CilListing

/-- What a run of the program leaves behind. -/
structure Outcome where
  exitCode : Nat
  output : String
  errorOutput : String
deriving DecidableEq, Repr

/-- The contents of a file by its path, or why it cannot be read. -/
abbrev Files := String → Except String (List UInt8)

/-- A failure as a chain of messages, from the outermost to its first cause. -/
abbrev Failure := List String

/-- The text of a log, and what the logged work came to. -/
structure Logged (α : Type) where
  log : String
  value : Except Failure α

namespace Logged

variable {α β : Type}

/-- Goes on from a success. The log of a failure ends with it. -/
def andThen (first : Logged α) (next : α → Logged β) : Logged β :=
  match first.value with
  | .error failure => ⟨first.log, .error failure⟩
  | .ok value =>
    let second := next value
    ⟨first.log ++ second.log, second.value⟩

end Logged

/-- An entry of the log. The level fills five places, further lines hang below, and nothing in it
can steer a terminal. A control sequence without an end takes the line feed with it. -/
def logEntry (level : Level) (text : String) : String :=
  stripControls ("[" ++ String.ofList (level.text.toList.rightpad 5 ' ') ++ "] " ++
    hangLines "    " text ++ "\n")

/-- Whether notes of a level are shown. Details only show on demand, the least of them never. -/
def Level.isShown (verbose : Bool) : Level → Bool
  | trace => false
  | debug => verbose
  | warn => true

/-- The log of the events that are shown. -/
def eventLog (verbose : Bool) (events : List Event) : String :=
  String.join ((events.filterMap Event.note?).map fun note =>
    if note.level.isShown verbose then logEntry note.level note.text else "")

/-- An entry of the program's own that only shows on demand. -/
def detailLog (verbose : Bool) (text : String) : String :=
  if verbose then logEntry .debug text else ""

namespace DisasmRequest

variable (request : DisasmRequest) (files : Files) (verbose : Bool)

def listingOptions : ListingOptions where
  header := !request.noHeader
  tokens := request.tokens
  unknown := if request.legacyUnknown then .nop else .mark

/-- The header of bare code. A question mark is a type that cannot be named. -/
def codeHeader : MethodHeader where
  hasBody := true
  maxStack := request.maxStack
  localTypes := request.locals.map fun type => if type = "?" then none else some type

def readFile (path : String) : Except Failure (List UInt8) :=
  match files path with
  | .ok bytes => .ok bytes
  | .error cause => .error ["failed to read file: " ++ path, cause]

/-- The symbols of a file, which has to be a JSON text in UTF-8. -/
def readSymbols (path : String) : Except Failure Symbols :=
  match readFile files path with
  | .error failure => .error failure
  | .ok bytes =>
    match decodeUtf8 bytes with
    | .error fault => .error ["symbol file is not UTF-8: " ++ path, fault.message]
    | .ok text =>
      match SymbolFile.parse text with
      | .error fault => .error (("failed to load symbols: " ++ path) :: fault.messages)
      | .ok symbols => .ok symbols

/-- The symbols asked for. There are none without a symbol file. -/
def loadSymbols : Logged Symbols :=
  match request.symbols with
  | none => ⟨"", .ok .empty⟩
  | some path =>
    match readSymbols files path with
    | .error failure => ⟨"", .error failure⟩
    | .ok symbols =>
      ⟨detailLog verbose ("loaded " ++ toString symbols.size ++ " symbols from " ++ path),
        .ok symbols⟩

/-- What is known of a body that has just been read. -/
def bodySummary (body : MethodBody) : String :=
  (if body.isFat then "fat" else "tiny") ++ " header of " ++ toString body.headerSize ++
    " bytes, " ++ toString body.codeSize ++ " bytes of code"

/-- The code in a file and the header of its method. -/
def codeAndHeader (data : List UInt8) (backend : Backend) :
    Logged (List UInt8 × MethodHeader) :=
  if request.noBody then ⟨"", .ok (data, .noBody)⟩
  else if request.codeOnly then ⟨"", .ok (data, request.codeHeader)⟩
  else
    match MethodBody.parse data with
    | .error fault =>
      ⟨"", .error ["failed to parse method body: " ++ request.path, fault.error.message]⟩
    | .ok body =>
      let header := MethodHeader.ofBody backend body
      ⟨detailLog verbose (bodySummary body) ++ eventLog verbose header.events,
        .ok (body.code data, header.value)⟩

/-- Reports on the method in a file. The file is read before the symbols. -/
def report : Logged Report :=
  let data : Logged (List UInt8) := ⟨"", readFile files request.path⟩
  data.andThen fun data =>
    (request.loadSymbols files verbose).andThen fun symbols =>
      (request.codeAndHeader verbose data symbols.backend).andThen fun (code, header) =>
        let built := Report.build code header symbols.backend request.listingOptions
        ⟨eventLog verbose built.events, .ok built.value⟩

end DisasmRequest

/-- The listing of a report ends with a line feed in any case. -/
def Report.output (report : Report) : String :=
  if report.listing.toList.getLast? = some '\n' then report.listing else report.listing ++ "\n"

/-- The causes behind a failure. A single one has no number. -/
def causesText : List String → String
  | [] => ""
  | [cause] => "\n\nCaused by:\n    " ++ hangLines "    " cause
  | causes =>
    "\n\nCaused by:" ++ String.join (causes.mapIdx fun index cause =>
      "\n    " ++ toString index ++ ": " ++ hangLines "       " cause)

def failureText : Failure → String
  | [] => ""
  | message :: causes => "Error: " ++ message ++ causesText causes ++ "\n"

namespace Invocation

/-- Does what is asked for. Nothing is logged beside JSON. -/
def run (invocation : Invocation) (files : Files) : Outcome :=
  match invocation.request with
  | .opcodes =>
    { exitCode := 0
      output :=
        if invocation.json then Opcode.overviewJson.text ++ "\n"
        else String.join (Opcode.overviewLines.map fun line => line ++ "\n")
      errorOutput := "" }
  | .disasm request =>
    let logged := request.report files invocation.verbose
    let log := if invocation.json then "" else logged.log
    match logged.value with
    | .error failure => ⟨1, "", log ++ failureText failure⟩
    | .ok report =>
      { exitCode := 0
        output := if invocation.json then report.json.text ++ "\n" else report.output
        errorOutput := log }

/-- The paths of the files that a run may read. -/
def paths (invocation : Invocation) : List String :=
  match invocation.request with
  | .opcodes => []
  | .disasm request => request.path :: request.symbols.toList

end Invocation

def versionText : String := "cildasm 0.1.0"

def usageText : String :=
  String.join (List.map (fun line => line ++ "\n")
    ["Usage: cildasm [--json] [-v|--verbose] <COMMAND>",
      "",
      "Commands:",
      "  disasm FILE  Disassemble a method body read from a file",
      "  opcodes      List every CIL opcode with its encoding and operand",
      "",
      "Options of disasm:",
      "  -s, --symbols JSON  Symbol file used to resolve metadata tokens",
      "  --code-only         Treat FILE as bare code without a method header",
      "  --max-stack N       Max stack to report with --code-only",
      "  --local TYPE        Local variable type with --code-only, ? if unknown",
      "  --no-body           Treat the method as having no body",
      "  --tokens            Show metadata tokens inline with instructions",
      "  --no-header         Omit the code size, max stack and locals header",
      "  --legacy-unknown    Show unknown opcodes as nop instead of marking them"])

/-- The outcome of arguments that lead to no request. -/
def Stop.outcome : Stop → Outcome
  | usage => ⟨2, "", usageText⟩
  | help => ⟨0, usageText, ""⟩
  | version => ⟨0, versionText ++ "\n", ""⟩

/-- Runs the program on its arguments. -/
def runProgram (arguments : List String) (files : Files) : Outcome :=
  match Invocation.parse arguments with
  | .error stop => stop.outcome
  | .ok invocation => invocation.run files

end CilListing
