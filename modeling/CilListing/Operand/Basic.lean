import CilListing.Bytes.LittleEndian
import CilListing.Opcode.Kind
import CilListing.Token

namespace CilListing

/-- An operand as it stands in the code, before anything is looked up. The last three
are operands that the end of the code cuts short, with the bytes that are present. -/
inductive Operand
  | absent
  | byte (value : Int8)
  | shortIndex (value : UInt8)
  | index (value : Int16)
  | int32 (value : Int32)
  | int64 (value : Int64)
  | float32 (bits : UInt32)
  | float64 (bits : UInt64)
  | token (hint : OperandKind) (value : Token)
  | shortBranch (displacement : Int8)
  | longBranch (displacement : Int32)
  | table (displacements : List Int32)
  | cut (kind : OperandKind) (present : Nat)
  | cutCount (present : Nat)
  | cutTable (count : UInt32) (present : Nat)
deriving DecidableEq, Repr

namespace Operand

/-- The number of bytes the operand covers. A table has its case count in front. -/
def width : Operand → Nat
  | absent => 0
  | byte _ | shortIndex _ | shortBranch _ => 1
  | index _ => 2
  | int32 _ | float32 _ | token .. | longBranch _ => 4
  | int64 _ | float64 _ => 8
  | table displacements => 4 + 4 * displacements.length
  | cut _ present => present
  | cutCount present => present
  | cutTable _ present => 4 + present

def isCut : Operand → Bool
  | cut .. | cutCount _ | cutTable .. => true
  | _ => false

def token? : Operand → Option Token
  | token _ value => some value
  | _ => none

/-- The operand of a fixed width kind whose bytes hold `number`. -/
def ofPattern (kind : OperandKind) (number : Nat) : Operand :=
  match kind with
  | .none | .switch => absent
  | .constByte => byte (Int8.ofNat number)
  | .shortVarIndex => shortIndex (UInt8.ofNat number)
  | .varIndex => index (Int16.ofNat number)
  | .constInt32 => int32 (Int32.ofNat number)
  | .constInt64 => int64 (Int64.ofNat number)
  | .constFloat32 => float32 (UInt32.ofNat number)
  | .constFloat64 => float64 (UInt64.ofNat number)
  | .stringToken | .methodToken | .fieldToken | .typeToken | .genericToken =>
    token kind ⟨UInt32.ofNat number⟩
  | .shortBranchTarget => shortBranch (Int8.ofNat number)
  | .longBranchTarget => longBranch (Int32.ofNat number)

/-- Reads displacements of four bytes each behind those already read, which stand in
reverse order. Fewer than four bytes at the end are left alone. -/
def displacementsFrom : List Int32 → List UInt8 → List Int32
  | done, b0 :: b1 :: b2 :: b3 :: rest =>
    displacementsFrom (Int32.ofNat (littleEndian [b0, b1, b2, b3]) :: done) rest
  | done, _ => done.reverse

def displacements (bytes : List UInt8) : List Int32 := displacementsFrom [] bytes

/-- Reads a jump table: a case count of four bytes and as many displacements. -/
def readTable (bytes : List UInt8) : Operand :=
  let head := bytes.take 4
  if head.length < 4 then cutCount head.length
  else
    let count := UInt32.ofNat (littleEndian head)
    let entries := (bytes.drop 4).take (4 * count.toNat)
    if entries.length < 4 * count.toNat then cutTable count entries.length
    else table (displacements entries)

/-- Reads the operand at the front of the bytes. Every sequence of bytes holds
one, though the end of the bytes may cut it short. -/
def read (kind : OperandKind) (bytes : List UInt8) : Operand :=
  match kind.width? with
  | none => readTable bytes
  | some width =>
    let head := bytes.take width
    if head.length < width then cut kind head.length else ofPattern kind (littleEndian head)

/-- The bytes of a complete operand. What is cut short has no bytes of its own. -/
def bytes : Operand → List UInt8
  | absent | cut .. | cutCount _ | cutTable .. => []
  | byte value => toLittleEndian 1 value.toUInt8.toNat
  | shortIndex value => toLittleEndian 1 value.toNat
  | index value => toLittleEndian 2 value.toUInt16.toNat
  | int32 value => toLittleEndian 4 value.toUInt32.toNat
  | int64 value => toLittleEndian 8 value.toUInt64.toNat
  | float32 bits => toLittleEndian 4 bits.toNat
  | float64 bits => toLittleEndian 8 bits.toNat
  | token _ value => toLittleEndian 4 value.value.toNat
  | shortBranch displacement => toLittleEndian 1 displacement.toUInt8.toNat
  | longBranch displacement => toLittleEndian 4 displacement.toUInt32.toNat
  | table displacements =>
    toLittleEndian 4 displacements.length ++
      displacements.flatMap fun displacement => toLittleEndian 4 displacement.toUInt32.toNat

theorem displacementsFrom_eq (done : List Int32) (bytes : List UInt8) :
    displacementsFrom done bytes = done.reverse ++ displacements bytes := by
  match bytes with
  | b0 :: b1 :: b2 :: b3 :: rest =>
    have front : displacements (b0 :: b1 :: b2 :: b3 :: rest) =
        displacementsFrom [Int32.ofNat (littleEndian [b0, b1, b2, b3])] rest := rfl
    rw [displacementsFrom, front, displacementsFrom_eq, displacementsFrom_eq [_]]
    simp
  | [] | [_] | [_, _] | [_, _, _] => simp [displacements, displacementsFrom]

/-- Four bytes at the front are one displacement. -/
theorem displacements_cons (b0 b1 b2 b3 : UInt8) (rest : List UInt8) :
    displacements (b0 :: b1 :: b2 :: b3 :: rest) =
      Int32.ofNat (littleEndian [b0, b1, b2, b3]) :: displacements rest := by
  rw [displacements, displacementsFrom, displacementsFrom_eq]
  rfl

end Operand

end CilListing
