import CilListing.Number.Numeral

namespace CilListing

/-- The options of the command line. -/
inductive Setting
  | json
  | verbose
  | symbols
  | codeOnly
  | maxStack
  | localType
  | noBody
  | tokens
  | noHeader
  | legacyUnknown
  | help
  | version
deriving DecidableEq, Repr

namespace Setting

def long : Setting → String
  | json => "json"
  | verbose => "verbose"
  | symbols => "symbols"
  | codeOnly => "code-only"
  | maxStack => "max-stack"
  | localType => "local"
  | noBody => "no-body"
  | tokens => "tokens"
  | noHeader => "no-header"
  | legacyUnknown => "legacy-unknown"
  | help => "help"
  | version => "version"

def short? : Setting → Option Char
  | verbose => some 'v'
  | symbols => some 's'
  | help => some 'h'
  | version => some 'V'
  | _ => none

def takesValue : Setting → Bool
  | symbols | maxStack | localType => true
  | _ => false

/-- Only local types may be given more than once. -/
def isRepeatable (setting : Setting) : Bool := setting == localType

end Setting

/-- What the program can be asked for. -/
inductive Verb
  | disasm
  | opcodes
  | help
deriving DecidableEq, Repr

def Verb.ofName? : String → Option Verb
  | "disasm" => some disasm
  | "opcodes" => some opcodes
  | "help" => some help
  | _ => none

/-- The settings that may stand behind a verb, or in front of it. -/
def Verb.settings : Option Verb → List Setting
  | none => [.json, .verbose, .help, .version]
  | some help => []
  | some opcodes => [.json, .verbose, .help]
  | some disasm =>
    [.json, .verbose, .symbols, .codeOnly, .maxStack, .localType, .noBody, .tokens, .noHeader,
      .legacyUnknown, .help]

/-- Why arguments lead to no request: they are wrong, or they ask for a text of the
program about itself. -/
inductive Stop
  | usage
  | help
  | version
deriving DecidableEq, Repr

/-- A setting with its value, which is empty where none is taken. -/
abbrev Given := List (Setting × String)

/-- What has been read of the arguments. Settings in front of the verb are kept apart from
those behind it. A setting whose value is the next argument is pending. -/
structure Arguments where
  verb : Option Verb
  outer : Given
  inner : Given
  words : List String
  pending : Option Setting
  wordsOnly : Bool
deriving DecidableEq, Repr

namespace Arguments

def start : Arguments := ⟨none, [], [], [], none, false⟩

/-- The settings given at the level that is being read. -/
def level (arguments : Arguments) : Given :=
  if arguments.verb.isNone then arguments.outer else arguments.inner

/-- A stack depth is a decimal number of 32 bits. Zero may have a minus sign. -/
def readMaxStack? : List Char → Option UInt32
  | '-' :: zeros => if !zeros.isEmpty && zeros.all (· == '0') then some 0 else none
  | chars =>
    match readNumeral 10 0x100000000 chars with
    | .ok number => some (UInt32.ofNat number)
    | .error _ => none

/-- A symbol file needs a name, and a stack depth has to be a number. -/
def isValid (setting : Setting) (value : String) : Bool :=
  match setting with
  | .symbols => !value.isEmpty
  | .maxStack => (readMaxStack? value.toList).isSome
  | _ => true

/-- Records a setting. Asking for help or for the version stops the reading at once. -/
def record (arguments : Arguments) (setting : Setting) (value : String) : Except Stop Arguments :=
  if setting = .help then .error .help
  else if setting = .version then .error .version
  else if !setting.isRepeatable && (arguments.level.lookup setting).isSome then .error .usage
  else if !isValid setting value then .error .usage
  else if arguments.verb.isNone then
    .ok { arguments with outer := arguments.outer ++ [(setting, value)] }
  else .ok { arguments with inner := arguments.inner ++ [(setting, value)] }

/-- Finds a setting that may stand at this place. -/
def find? (arguments : Arguments) (matching : Setting → Bool) : Option Setting :=
  (Verb.settings arguments.verb).find? matching

/-- Takes an option by its long name, which may have its value behind an equals sign. -/
def takeLong (arguments : Arguments) (body : List Char) : Except Stop Arguments :=
  let name := String.ofList (body.takeWhile (· != '='))
  match arguments.find? (·.long == name), body.dropWhile (· != '=') with
  | none, _ => .error .usage
  | some setting, _ :: value =>
    if setting.takesValue then arguments.record setting (String.ofList value) else .error .usage
  | some setting, [] =>
    if setting.takesValue then .ok { arguments with pending := some setting }
    else arguments.record setting ""

/-- Takes options by their letters. The first that has a value takes what
follows it, without an equals sign, or else the next argument. -/
def takeShort (arguments : Arguments) : List Char → Except Stop Arguments
  | [] => .ok arguments
  | letter :: rest =>
    match arguments.find? (·.short? == some letter) with
    | none => .error .usage
    | some setting =>
      if setting.takesValue then
        match rest with
        | [] => .ok { arguments with pending := some setting }
        | '=' :: value => arguments.record setting (String.ofList value)
        | value => arguments.record setting (String.ofList value)
      else
        match arguments.record setting "" with
        | .error stop => .error stop
        | .ok arguments => takeShort arguments rest

/-- Takes the verb. Behind a call for help there are no options. -/
def takeVerb (arguments : Arguments) (word : String) : Except Stop Arguments :=
  match Verb.ofName? word with
  | some verb =>
    if arguments.wordsOnly then .error .usage
    else .ok { arguments with verb := some verb, wordsOnly := verb == .help }
  | none => .error .usage

/-- Whether a word can stand behind a verb: the path of a file, or the verb to be explained. -/
def accepts (word : String) : Verb → Bool
  | .disasm => !word.isEmpty
  | .opcodes => false
  | .help => (Verb.ofName? word).isSome

/-- Takes an argument that is no option. At most one follows the verb. -/
def takeWord (arguments : Arguments) (word : String) : Except Stop Arguments :=
  match arguments.verb with
  | none => arguments.takeVerb word
  | some verb =>
    if arguments.words.isEmpty && accepts word verb then .ok { arguments with words := [word] }
    else .error .usage

/-- A dash alone is a word like any other. -/
def isOption : List Char → Bool
  | '-' :: _ :: _ => true
  | _ => false

/-- Takes one argument. Behind two dashes all are words. -/
def step (arguments : Arguments) (argument : String) : Except Stop Arguments :=
  let chars := argument.toList
  if arguments.wordsOnly then arguments.takeWord argument
  else
    match arguments.pending with
    | some setting =>
      if isOption chars then .error .usage
      else ({ arguments with pending := none } : Arguments).record setting argument
    | none =>
      match chars with
      | ['-', '-'] => .ok { arguments with wordsOnly := true }
      | '-' :: '-' :: body => arguments.takeLong body
      | '-' :: letter :: rest => arguments.takeShort (letter :: rest)
      | _ => arguments.takeWord argument

def readAll : Arguments → List String → Except Stop Arguments
  | arguments, [] => .ok arguments
  | arguments, argument :: rest =>
    match arguments.step argument with
    | .error stop => .error stop
    | .ok next => readAll next rest

end Arguments

/-- A request to disassemble a file. -/
structure DisasmRequest where
  path : String
  symbols : Option String
  codeOnly : Bool
  maxStack : UInt32
  locals : List String
  noBody : Bool
  tokens : Bool
  noHeader : Bool
  legacyUnknown : Bool
deriving DecidableEq, Repr

/-- What the program is asked to do. -/
inductive Request
  | disasm (request : DisasmRequest)
  | opcodes
deriving DecidableEq, Repr

/-- A request, and how its answer is to be given. -/
structure Invocation where
  json : Bool
  verbose : Bool
  request : Request
deriving DecidableEq, Repr

namespace Arguments

def has (given : Given) (setting : Setting) : Bool := (given.lookup setting).isSome

/-- The request for a file. Stack depth and locals only go with bare code. -/
def disasmRequest (arguments : Arguments) : Except Stop DisasmRequest :=
  let given := arguments.inner
  match arguments.words with
  | [] => .error .usage
  | path :: _ =>
    if (has given .maxStack || has given .localType) && !has given .codeOnly then .error .usage
    else
      .ok
        { path := path
          symbols := given.lookup .symbols
          codeOnly := has given .codeOnly
          maxStack := ((given.lookup .maxStack).bind fun text => readMaxStack? text.toList).getD 8
          locals := given.filterMap fun (setting, value) =>
            if setting = .localType then some value else none
          noBody := has given .noBody
          tokens := has given .tokens
          noHeader := has given .noHeader
          legacyUnknown := has given .legacyUnknown }

/-- The invocation that the arguments add up to. Nothing may be pending, and there has to
be a verb. -/
def invocation (arguments : Arguments) : Except Stop Invocation :=
  let make (request : Request) : Invocation :=
    { json := has arguments.outer .json || has arguments.inner .json
      verbose := has arguments.outer .verbose || has arguments.inner .verbose
      request := request }
  if arguments.pending.isSome then .error .usage
  else
    match arguments.verb with
    | none => .error .usage
    | some .help => .error .help
    | some .opcodes => .ok (make .opcodes)
    | some .disasm => arguments.disasmRequest.map fun request => make (.disasm request)

end Arguments

/-- Reads the arguments of the program. -/
def Invocation.parse (arguments : List String) : Except Stop Invocation :=
  match Arguments.start.readAll arguments with
  | .error stop => .error stop
  | .ok read => read.invocation

end CilListing
