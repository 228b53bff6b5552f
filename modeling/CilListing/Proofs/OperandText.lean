import CilListing.Proofs.ListingWords
import CilListing.Proofs.OperandBytes
import CilListing.Proofs.Resolving

namespace CilListing

/-- The names of methods, fields and types hold no line feed. String literals may hold any. -/
structure Backend.NamesOnOneLine (backend : Backend) : Prop where
  method : ∀ token member, backend.method token = .found member → OneLine member.text
  field : ∀ token member, backend.field token = .found member → OneLine member.text
  type : ∀ token name, backend.type token = .found name → OneLine name

section OneLine

variable {backend : Backend}

theorem Backend.oneLine_of_ask (names : backend.NamesOnOneLine) {category : Category} {token : Token}
    {text : String} (found : (backend.ask category token).toOption = some text) : OneLine text := by
  cases category with
  | string =>
    obtain ⟨literal, _, rfl⟩ := Reply.exists_of_map found
    exact oneLine_quote literal
  | method =>
    obtain ⟨member, reply, rfl⟩ := Reply.exists_of_map found
    exact names.method token member reply
  | field =>
    obtain ⟨member, reply, rfl⟩ := Reply.exists_of_map found
    exact names.field token member reply
  | type => exact names.type token text (Reply.eq_found found)

theorem Backend.oneLine_resolve (names : backend.NamesOnOneLine) (token : Token) (hint : OperandKind) :
    OneLine (backend.resolve token hint).value.text := by
  rw [resolve_value]
  cases search : (token.categories hint).findSome? fun category => (backend.ask category token).toOption with
  | some text =>
    obtain ⟨category, _, found⟩ := List.exists_of_findSome?_eq_some search
    exact oneLine_of_ask names found
  | none =>
    rw [Option.elim_none, Resolution.text, oneLine_append, oneLine_append]
    exact ⟨⟨by decide, oneLine_token token⟩, by decide⟩

theorem Operand.oneLine_text (names : backend.NamesOnOneLine) {next : Nat} {operand : Operand}
    {text : String} (shown : (operand.text backend next).value = some text) : OneLine text := by
  cases operand with
  | absent | cut | cutCount | cutTable => cases shown
  | byte | index | int32 | int64 => cases shown; exact oneLine_int _
  | shortIndex => cases shown; exact oneLine_nat _
  | float32 | float64 => cases shown; exact oneLine_float _ _
  | token hint value => cases shown; exact Backend.oneLine_resolve names value hint
  | shortBranch | longBranch => cases shown; exact oneLine_label _
  | table displacements =>
    cases shown
    rw [oneLine_append, oneLine_append]
    refine ⟨⟨by decide, oneLine_intercalate (by decide) ?_⟩, by decide⟩
    intro entry member
    obtain ⟨displacement, _, rfl⟩ := List.mem_map.mp member
    exact oneLine_label _

end OneLine

/-- Bits that stand for no number. -/
def BinaryFormat.isNaN (format : BinaryFormat) (bits : Nat) : Bool := format.infinity < bits % format.signBit

theorem BinaryFormat.le_infinity {format : BinaryFormat} {bits : Nat} (number : format.isNaN bits = false) :
    bits % format.signBit ≤ format.infinity := Nat.not_lt.mp (of_decide_eq_false number)

/-- An operand that holds a floating point constant which is no number. -/
def Operand.isNaN : Operand → Bool
  | float32 bits => BinaryFormat.single.isNaN bits.toNat
  | float64 bits => BinaryFormat.double.isNaN bits.toNat
  | _ => false

/-- What stands behind the mnemonic on a line. -/
def lineTail (text : Option String) (token : Option Token) : List Char :=
  text.elim [] (fun shown => ' ' :: shown.toList) ++ token.elim [] tokenNote

theorem lineTail_inj {first second : String}
    (same : lineTail (some first) none = lineTail (some second) none) : first.toList = second.toList := by
  have behind := (List.cons.inj same).2
  exact List.append_cancel_right behind

theorem targetLabel_injective {base : Nat} {first second : Int32}
    (same : (targetLabel base first).toList = (targetLabel base second).toList) : first = second := by
  have targets : branchTarget base first = branchTarget base second :=
    UInt32.toNat_inj.mp (label_injective same)
  have words := (UInt32.add_right_inj _).mp targets
  exact Int32.toBitVec_inj.mp (congrArg UInt32.toBitVec words)

/-- The labels of a table are read back from their list, wherever they are counted from. -/
theorem targetLabels_eq {firstBase secondBase : Nat} {first second : List Int32}
    (same : (", ".intercalate (first.map (targetLabel firstBase))).toList =
      (", ".intercalate (second.map (targetLabel secondBase))).toList) :
    (first.map fun each => (targetLabel firstBase each).toList) =
      second.map fun each => (targetLabel secondBase each).toList := by
  have free (base : Nat) (entries : List Int32) :
      ∀ entry ∈ entries.map fun each => (targetLabel base each).toList, ',' ∉ entry ∧ entry ≠ [] := by
    intro entry member
    obtain ⟨each, _, rfl⟩ := List.mem_map.mp member
    refine ⟨notMem_label (by decide) (by decide) _, ?_⟩
    rw [targetLabel, label_toList]
    exact List.cons_ne_nil _ _
  rw [String.toList_intercalate, String.toList_intercalate, List.map_map, List.map_map] at same
  exact intercalate_inj (free firstBase first) (free secondBase second) same

namespace Operand

theorem eq_of_lineTail_fixed {kind : OperandKind} {width first second next : Nat}
    {firstBackend secondBackend : Backend} (known : kind.width? = some width)
    (numberFirst : (ofPattern kind first).isNaN = false) (numberSecond : (ofPattern kind second).isNaN = false)
    (same : lineTail ((ofPattern kind first).text firstBackend next).value (ofPattern kind first).token? =
      lineTail ((ofPattern kind second).text secondBackend next).value (ofPattern kind second).token?) :
    ofPattern kind first = ofPattern kind second := by
  cases kind with
  | none => rfl
  | switch => cases known
  | constByte => exact congrArg byte (Int8.toInt_inj.mp (int_text_injective (lineTail_inj same)))
  | shortVarIndex =>
    have texts := Nat.repr_injective (String.toList_inj.mp (lineTail_inj same))
    exact congrArg shortIndex (UInt8.toNat_inj.mp texts)
  | varIndex => exact congrArg index (Int16.toInt_inj.mp (int_text_injective (lineTail_inj same)))
  | constInt32 => exact congrArg int32 (Int32.toInt_inj.mp (int_text_injective (lineTail_inj same)))
  | constInt64 => exact congrArg int64 (Int64.toInt_inj.mp (int_text_injective (lineTail_inj same)))
  | constFloat32 =>
    have bits := BinaryFormat.single.text_injective (UInt32.toNat_lt _) (UInt32.toNat_lt _)
      (BinaryFormat.le_infinity numberFirst) (BinaryFormat.le_infinity numberSecond)
      (String.toList_inj.mp (lineTail_inj same))
    exact congrArg float32 (UInt32.toNat_inj.mp bits)
  | constFloat64 =>
    have bits := BinaryFormat.double.text_injective (UInt64.toNat_lt _) (UInt64.toNat_lt _)
      (BinaryFormat.le_infinity numberFirst) (BinaryFormat.le_infinity numberSecond)
      (String.toList_inj.mp (lineTail_inj same))
    exact congrArg float64 (UInt64.toNat_inj.mp bits)
  | stringToken | methodToken | fieldToken | typeToken | genericToken =>
    exact congrArg (token _) (append_tokenNote_inj same)
  | shortBranchTarget =>
    have displacements := congrArg Int32.toInt (targetLabel_injective (lineTail_inj same))
    rw [Int8.toInt_toInt32, Int8.toInt_toInt32] at displacements
    exact congrArg shortBranch (Int8.toInt_inj.mp displacements)
  | longBranchTarget => exact congrArg longBranch (targetLabel_injective (lineTail_inj same))

/-- The number of labels gives the position that they are counted from. -/
theorem eq_of_lineTail_table {lead : Nat} {first second : List Int32} {firstBackend secondBackend : Backend}
    (same : lineTail ((table first).text firstBackend (lead + (table first).width)).value none =
      lineTail ((table second).text secondBackend (lead + (table second).width)).value none) :
    first = second := by
  have texts := lineTail_inj same
  rw [String.toList_append, String.toList_append, String.toList_append, String.toList_append] at texts
  have labels := targetLabels_eq (List.append_cancel_left (List.append_cancel_right texts))
  have length := congrArg List.length labels
  rw [List.length_map, List.length_map] at length
  have width : (table first).width = (table second).width := by rw [width, width, length]
  rw [width] at labels
  exact List.map_injective_iff.mpr (fun _ _ => targetLabel_injective) labels

/-- A complete operand of a known kind is read back from its line, unless it is no number. -/
theorem eq_of_lineTail {kind : OperandKind} {first second : Operand} {lead : Nat}
    {firstBackend secondBackend : Backend} (fitsFirst : first.kind? = some kind)
    (fitsSecond : second.kind? = some kind) (numberFirst : first.isNaN = false)
    (numberSecond : second.isNaN = false)
    (same : lineTail (first.text firstBackend (lead + first.width)).value first.token? =
      lineTail (second.text secondBackend (lead + second.width)).value second.token?) : first = second := by
  cases known : kind.width? with
  | none =>
    cases OperandKind.width?_eq_none_iff.mp known
    rcases width?_of_fits fitsFirst with fixed | ⟨labelsFirst, _, rfl⟩
    · cases fixed
    · rcases width?_of_fits fitsSecond with fixed | ⟨labelsSecond, _, rfl⟩
      · cases fixed
      · exact congrArg table (eq_of_lineTail_table same)
  | some width =>
    obtain ⟨numberOfFirst, rfl⟩ : ∃ number, first = ofPattern kind number :=
      ⟨_, (ofPattern_bytes fitsFirst known).symm⟩
    obtain ⟨numberOfSecond, rfl⟩ : ∃ number, second = ofPattern kind number :=
      ⟨_, (ofPattern_bytes fitsSecond known).symm⟩
    rw [width_ofPattern known, width_ofPattern known] at same
    exact eq_of_lineTail_fixed known numberFirst numberSecond same

end Operand

end CilListing
