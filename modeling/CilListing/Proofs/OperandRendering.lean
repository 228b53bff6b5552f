import CilListing.Operand.Text
import CilListing.Proofs.OperandBytes

namespace CilListing

/-- The position that lies `displacement` bytes from `base` where positions go round at 32 bits. -/
def positionFrom (base : Nat) (displacement : Int) : Nat := ((base + displacement) % 2 ^ 32).toNat

theorem branchTarget_toNat (base : Nat) (displacement : Int32) :
    (branchTarget base displacement).toNat = positionFrom base displacement.toInt := by
  have signed : displacement.toInt = (displacement.toUInt32.toNat : Int).bmod (2 ^ 32) :=
    BitVec.toInt_eq_toNat_bmod ..
  have wrapped : ((base : Int) + displacement.toInt) % 2 ^ 32 =
      ((base + displacement.toUInt32.toNat : Nat) : Int) % 2 ^ 32 := by
    rw [signed, Nat.cast_add]
    exact Int.add_emod_eq_add_emod_left _ Int.bmod_emod
  have sum : (branchTarget base displacement).toNat =
      (base + displacement.toUInt32.toNat) % 2 ^ 32 := by
    rw [branchTarget, UInt32.toNat_add]
    show (base % 2 ^ 32 + _) % 2 ^ 32 = _
    rw [Nat.mod_add_mod]
  rw [sum, positionFrom, wrapped]
  rfl

/-- The label of the position that lies `displacement` bytes from `base`. -/
def labelFrom (base : Nat) (displacement : Int) : String := label (positionFrom base displacement)

theorem targetLabel_eq (base : Nat) (displacement : Int32) :
    targetLabel base displacement = labelFrom base displacement.toInt := by
  rw [targetLabel, labelFrom, branchTarget_toNat]

/-- The one number that a plain operand is. -/
def Operand.number? : Operand → Option Scalar.Value
  | byte value => some (.i8 value)
  | shortIndex value => some (.u8 value)
  | index value => some (.i16 value)
  | int32 value => some (.i32 value)
  | int64 value => some (.i64 value)
  | float32 bits => some (.f32 bits)
  | float64 bits => some (.f64 bits)
  | _ => none

/-- How a complete operand reads where the next instruction stands at `next`: tokens as the backend
resolves them, displacements as labels, and all else as the number that it is. -/
def Operand.rendering (backend : Backend) (next : Nat) : Operand → Option String
  | token hint value => some (backend.resolve value hint).value.text
  | shortBranch displacement => some (labelFrom next displacement.toInt)
  | longBranch displacement => some (labelFrom next displacement.toInt)
  | table displacements =>
    some ("(" ++ ", ".intercalate (displacements.map fun each => labelFrom next each.toInt) ++ ")")
  | operand => operand.number?.map Scalar.Value.text

theorem Operand.text_value (backend : Backend) (next : Nat) (operand : Operand) :
    (operand.text backend next).value = operand.rendering backend next := by
  cases operand with
  | shortBranch displacement =>
    rw [text, rendering, targetLabel_eq, Int8.toInt_toInt32]
  | longBranch displacement => rw [text, rendering, targetLabel_eq]
  | table displacements =>
    have labels := List.map_congr_left fun each (_ : each ∈ displacements) => targetLabel_eq next each
    rw [text, labels, rendering]
  | _ => rfl

end CilListing
