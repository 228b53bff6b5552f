import CilListing.Bytes.Scalar
import CilListing.Metadata.Resolution
import CilListing.Operand.Basic

namespace CilListing

/-- The code position that a displacement leads to from `base`. Positions wrap at 32 bits. -/
def branchTarget (base : Nat) (displacement : Int32) : UInt32 :=
  base.toUInt32 + displacement.toUInt32

def targetLabel (base : Nat) (displacement : Int32) : String :=
  label (branchTarget base displacement).toNat

namespace Operand

/-- The text of an operand that ends right before position `next`. Targets are counted from there,
also those of a table, and only tokens are looked up. -/
def text (backend : Backend) (next : Nat) : Operand → Traced (Option String)
  | absent | cut .. | cutCount _ | cutTable .. => ⟨none, []⟩
  | byte value => ⟨some (toString value.toInt), []⟩
  | shortIndex value => ⟨some (toString value.toNat), []⟩
  | index value => ⟨some (toString value.toInt), []⟩
  | int32 value => ⟨some (toString value.toInt), []⟩
  | int64 value => ⟨some (toString value.toInt), []⟩
  | float32 bits => ⟨some (BinaryFormat.single.text bits.toNat), []⟩
  | float64 bits => ⟨some (BinaryFormat.double.text bits.toNat), []⟩
  | token hint value => (backend.resolve value hint).map fun resolution => some resolution.text
  | shortBranch displacement => ⟨some (targetLabel next displacement.toInt32), []⟩
  | longBranch displacement => ⟨some (targetLabel next displacement), []⟩
  | table displacements =>
    ⟨some ("(" ++ ", ".intercalate (displacements.map (targetLabel next)) ++ ")"), []⟩

/-- What is to be noted about an operand that begins at position `start`. -/
def notes (start : Nat) : Operand → List Note
  | cut kind present => [.operandCut kind start present]
  | cutCount _ => [.switchCountCut start]
  | cutTable count _ => [.switchTableCut start count]
  | _ => []

end Operand

end CilListing
