namespace CilListing

/-- How the bytes behind an opcode are read and shown. -/
inductive OperandKind
  | none
  | constInt32
  | constInt64
  | constByte
  | constFloat64
  | constFloat32
  | stringToken
  | methodToken
  | fieldToken
  | typeToken
  | genericToken
  | shortBranchTarget
  | longBranchTarget
  | shortVarIndex
  | varIndex
  | switch
deriving DecidableEq, Repr, Inhabited

namespace OperandKind

def all : List OperandKind :=
  [none, constInt32, constInt64, constByte, constFloat64, constFloat32, stringToken, methodToken,
    fieldToken, typeToken, genericToken, shortBranchTarget, longBranchTarget, shortVarIndex,
    varIndex, switch]

def name : OperandKind → String
  | none => "None"
  | constInt32 => "ConstInt32"
  | constInt64 => "ConstInt64"
  | constByte => "ConstByte"
  | constFloat64 => "ConstFloat64"
  | constFloat32 => "ConstFloat32"
  | stringToken => "StringToken"
  | methodToken => "MethodToken"
  | fieldToken => "FieldToken"
  | typeToken => "TypeToken"
  | genericToken => "GenericToken"
  | shortBranchTarget => "ShortBranchTarget"
  | longBranchTarget => "LongBranchTarget"
  | shortVarIndex => "ShortVarIndex"
  | varIndex => "VarIndex"
  | switch => "Switch"

def ofName? (name : String) : Option OperandKind :=
  all.find? fun kind => kind.name == name

/-- The width in bytes. A switch has none of its own: its case count decides. -/
def width? : OperandKind → Option Nat
  | none => some 0
  | constByte | shortBranchTarget | shortVarIndex => some 1
  | varIndex => some 2
  | constInt32 | constFloat32 | stringToken | methodToken | fieldToken | typeToken
  | genericToken | longBranchTarget => some 4
  | constInt64 | constFloat64 => some 8
  | switch => Option.none

def isToken : OperandKind → Bool
  | stringToken | methodToken | fieldToken | typeToken | genericToken => true
  | _ => false

theorem width?_eq_none_iff {kind : OperandKind} : kind.width? = Option.none ↔ kind = switch := by
  cases kind <;> decide

end OperandKind

end CilListing
