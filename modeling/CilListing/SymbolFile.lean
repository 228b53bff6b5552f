import CilListing.Json.Printer
import CilListing.Json.Reader
import CilListing.Metadata.Symbols
import CilListing.Text.Escaped
import CilListing.Token.Spelling

namespace CilListing

/-- What a value is, for diagnostics. -/
def Json.describe : Json → String
  | null => "null"
  | bool value => "boolean `" ++ toString value ++ "`"
  | integer value => "integer `" ++ toString value ++ "`"
  | float bits => "floating point `" ++ floatText bits ++ "`"
  | string text => "string " ++ diagnosticQuote text
  | array _ => "sequence"
  | object _ => "map"

/-- What a place in a symbol file calls for. -/
inductive Shape
  | map
  | string
  | sequence
  | member
deriving DecidableEq, Repr

def Shape.text : Shape → String
  | map => "a map"
  | string => "a string"
  | sequence => "a sequence"
  | member => "struct MemberEntry"

/-- Why a JSON object is no symbol file. -/
inductive DecodeFault
  | unknownSection (name : String)
  | missingName
  | wrongType (found : Json) (expected : Shape)
  | shortMember
  | longMember (length : Nat)

def DecodeFault.message : DecodeFault → String
  | unknownSection name =>
    "unknown field `" ++ name ++
      "`, expected one of `strings`, `methods`, `fields`, `types`, `locals`"
  | missingName => "missing field `name`"
  | wrongType found expected =>
    "invalid type: " ++ found.describe ++ ", expected " ++ expected.text
  | shortMember => "invalid length 1, expected struct MemberEntry with 2 elements"
  | longMember length =>
    "invalid length " ++ toString length ++ ", expected fewer elements in array"

/-- The sections of a symbol file. Their keys are still to be read as tokens. -/
structure SymbolFile where
  strings : List (String × String) := []
  methods : List (String × Member) := []
  fields : List (String × Member) := []
  types : List (String × String) := []
  locals : List (String × LocalTypes) := []
deriving Repr

namespace SymbolFile

def decodeString : Json → Except DecodeFault String
  | .string text => .ok text
  | other => .error (.wrongType other .string)

/-- Fields of a member other than its type and its name do not matter. The type may be missing. -/
def decodeFields (type : String) (name : Option String) :
    List (String × Json) → Except DecodeFault Member
  | [] =>
    match name with
    | some name => .ok ⟨type, name⟩
    | none => .error .missingName
  | (key, value) :: rest =>
    if key = "declaring_type" then do
      let type ← decodeString value
      decodeFields type name rest
    else if key = "name" then do
      let name ← decodeString value
      decodeFields type (some name) rest
    else decodeFields type name rest

/-- A member is an object, or an array of its type and its name. -/
def decodeMember : Json → Except DecodeFault Member
  | .object fields => decodeFields "" none fields
  | .array [] => .error .shortMember
  | .array [type] => do
    let _ ← decodeString type
    .error .shortMember
  | .array (type :: name :: rest) => do
    let type ← decodeString type
    let name ← decodeString name
    if rest.isEmpty then .ok ⟨type, name⟩ else .error (.longMember (rest.length + 2))
  | other => .error (.wrongType other .member)

def decodeLocalItems : List Json → Except DecodeFault LocalTypes
  | [] => .ok []
  | .null :: rest => do
    let types ← decodeLocalItems rest
    .ok (none :: types)
  | item :: rest => do
    let type ← decodeString item
    let types ← decodeLocalItems rest
    .ok (some type :: types)

/-- Local types are an array of names. A null stands for a type that cannot be named. -/
def decodeLocals : Json → Except DecodeFault LocalTypes
  | .array items => decodeLocalItems items
  | other => .error (.wrongType other .sequence)

def decodeEntries {α : Type} (decode : Json → Except DecodeFault α) :
    List (String × Json) → Except DecodeFault (List (String × α))
  | [] => .ok []
  | (key, value) :: rest => do
    let entry ← decode value
    let entries ← decodeEntries decode rest
    .ok ((key, entry) :: entries)

/-- A section is an object of entries under tokens. -/
def decodeSection {α : Type} (decode : Json → Except DecodeFault α) :
    Json → Except DecodeFault (List (String × α))
  | .object entries => decodeEntries decode entries
  | other => .error (.wrongType other .map)

/-- Adds one section. -/
def addSection (file : SymbolFile) (name : String) (value : Json) :
    Except DecodeFault SymbolFile :=
  if name = "strings" then do
    let entries ← decodeSection decodeString value
    .ok { file with strings := entries }
  else if name = "methods" then do
    let entries ← decodeSection decodeMember value
    .ok { file with methods := entries }
  else if name = "fields" then do
    let entries ← decodeSection decodeMember value
    .ok { file with fields := entries }
  else if name = "types" then do
    let entries ← decodeSection decodeString value
    .ok { file with types := entries }
  else if name = "locals" then do
    let entries ← decodeSection decodeLocals value
    .ok { file with locals := entries }
  else .error (.unknownSection name)

/-- Adds sections in the order they stand in. The first that is wrong decides the fault. -/
def addSections : SymbolFile → List (String × Json) → Except DecodeFault SymbolFile
  | file, [] => .ok file
  | file, (name, value) :: rest => do
    let file ← addSection file name value
    addSections file rest

/-- Reads the keys of a section as tokens, in the order they stand in. -/
def spellEntries {α : Type} (make : Token → α → Symbols.Entry) :
    List (String × α) → Except SpellingFault (List Symbols.Entry)
  | [] => .ok []
  | (key, value) :: rest => do
    let token ← Token.ofText key
    let entries ← spellEntries make rest
    .ok (make token value :: entries)

/-- The entries of all sections. -/
def entries (file : SymbolFile) : Except SpellingFault (List Symbols.Entry) := do
  let strings ← spellEntries .string file.strings
  let methods ← spellEntries .method file.methods
  let fields ← spellEntries .field file.fields
  let types ← spellEntries .type file.types
  let locals ← spellEntries .locals file.locals
  .ok (strings ++ methods ++ fields ++ types ++ locals)

/-- Why a text is no symbol file. -/
inductive Fault
  | notJson
  | notObject
  | decoding (fault : DecodeFault)
  | spelling (fault : SpellingFault)

/-- The message and, behind it, its causes. -/
def Fault.messages : Fault → List String
  | notJson => ["<json syntax>"]
  | notObject => ["symbol file must be a JSON object"]
  | decoding fault => [fault.message]
  | spelling fault => fault.messages

/-- The table that a JSON value describes. -/
def symbolsOfJson : Json → Except Fault Symbols
  | .object members =>
    match addSections {} members with
    | .error fault => .error (.decoding fault)
    | .ok file =>
      match file.entries with
      | .error fault => .error (.spelling fault)
      | .ok entries => .ok (Symbols.ofEntries entries)
  | _ => .error .notObject

/-- The table that a text describes. -/
def parse (text : List Char) : Except Fault Symbols :=
  match Json.parse? text with
  | none => .error .notJson
  | some value => symbolsOfJson value

end SymbolFile

end CilListing
