import CilListing.Text.Hex

namespace CilListing

/-- A metadata token: the high byte names a table, the low 24 bits a row of it. -/
structure Token where
  value : UInt32
deriving DecidableEq, Repr, Inhabited

namespace Token

def table (token : Token) : UInt8 := (token.value >>> 24).toUInt8

def row (token : Token) : UInt32 := token.value &&& 0x00FFFFFF

def isNull (token : Token) : Bool := token.value == 0

/-- Eight upper-case hexadecimal digits behind `0x`, as tokens appear in listings. -/
def text (token : Token) : String := "0x" ++ hexUpper 8 token.value.toNat

/-- The long form for diagnostics, which takes table and row apart. -/
def describe (token : Token) : String :=
  "Token(0x" ++ hexLower 8 token.value.toNat ++ ", table: 0x" ++ hexLower 2 token.table.toNat ++
    ", row: " ++ toString token.row.toNat ++ ")"

/-- Tokens are ordered by their value. -/
def sort (tokens : List Token) : List Token :=
  tokens.mergeSort fun left right => left.value ≤ right.value

end Token

/-- The metadata tables whose tokens can be named. Every other table byte leaves
open what a token stands for. -/
inductive MetadataTable
  | typeRef
  | typeDef
  | field
  | methodDef
  | memberRef
  | typeSpec
  | userString
deriving DecidableEq, Repr

namespace MetadataTable

/-- All tables, by ascending table byte. -/
def all : List MetadataTable :=
  [typeRef, typeDef, field, methodDef, memberRef, typeSpec, userString]

def name : MetadataTable → String
  | typeRef => "TypeRef"
  | typeDef => "TypeDef"
  | field => "Field"
  | methodDef => "MethodDef"
  | memberRef => "MemberRef"
  | typeSpec => "TypeSpec"
  | userString => "UserString"

/-- The table byte that tokens into this table carry. -/
def byte : MetadataTable → UInt8
  | typeRef => 0x01
  | typeDef => 0x02
  | field => 0x04
  | methodDef => 0x06
  | memberRef => 0x0A
  | typeSpec => 0x1B
  | userString => 0x70

def ofByte? (byte : UInt8) : Option MetadataTable :=
  all.find? fun table => table.byte == byte

theorem ofByte?_byte (table : MetadataTable) : ofByte? table.byte = some table := by
  cases table <;> decide

theorem byte_of_ofByte? {byte : UInt8} {table : MetadataTable}
    (found : ofByte? byte = some table) : table.byte = byte := by
  simpa using List.find?_some found

end MetadataTable

/-- The table a token points into, if tokens of that table can be named. -/
def Token.metadataTable? (token : Token) : Option MetadataTable :=
  MetadataTable.ofByte? token.table

end CilListing
