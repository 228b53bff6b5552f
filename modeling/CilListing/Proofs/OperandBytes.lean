import CilListing.Operand.Basic
import CilListing.Proofs.WordBytes

namespace CilListing

namespace Operand

/-- The kind that a complete operand is of. What is cut short is of none. -/
def kind? : Operand → Option OperandKind
  | absent => some .none
  | byte _ => some .constByte
  | shortIndex _ => some .shortVarIndex
  | index _ => some .varIndex
  | int32 _ => some .constInt32
  | int64 _ => some .constInt64
  | float32 _ => some .constFloat32
  | float64 _ => some .constFloat64
  | token hint _ => if hint.isToken then some hint else none
  | shortBranch _ => some .shortBranchTarget
  | longBranch _ => some .longBranchTarget
  | table _ => some .switch
  | cut .. | cutCount _ | cutTable .. => none

end Operand

namespace OperandKind

/-- The number of bytes that an operand at the front of the bytes asks for. A switch asks for its
case count first, which says how many entries follow. -/
def need (kind : OperandKind) (bytes : List UInt8) : Nat :=
  match kind.width? with
  | some width => width
  | Option.none => if bytes.length < 4 then 4 else 4 + 4 * littleEndian (bytes.take 4)

theorem width?_of_isToken {kind : OperandKind} (named : kind.isToken = true) :
    kind.width? = some 4 := by
  cases kind <;> simp_all [isToken, width?]

end OperandKind

namespace Operand

theorem isCut_of_fits {operand : Operand} {kind : OperandKind} (fits : operand.kind? = some kind) :
    operand.isCut = false := by
  cases operand with
  | cut | cutCount | cutTable => cases fits
  | _ => rfl

theorem width?_of_fits {operand : Operand} {kind : OperandKind} (fits : operand.kind? = some kind) :
    kind.width? = some operand.width ∨
      ∃ displacements, kind = .switch ∧ operand = table displacements := by
  cases operand with
  | token hint value =>
    rw [kind?] at fits
    split at fits
    · next named =>
      cases fits
      exact Or.inl (OperandKind.width?_of_isToken named)
    · cases fits
  | table displacements => exact Or.inr ⟨displacements, (Option.some.inj fits).symm, rfl⟩
  | cut | cutCount | cutTable => cases fits
  | _ => cases fits; exact Or.inl rfl

section Table

/-- The bytes of the entries of a jump table. -/
def entryBytes (entries : List Int32) : List UInt8 :=
  entries.flatMap fun entry => toLittleEndian 4 entry.toUInt32.toNat

theorem length_entryBytes (entries : List Int32) : (entryBytes entries).length = 4 * entries.length := by
  induction entries with
  | nil => rfl
  | cons entry rest ih =>
    rw [entryBytes] at ih ⊢
    rw [List.flatMap_cons, List.length_append, length_toLittleEndian, ih, List.length_cons]
    omega

/-- The entries of a jump table are read back from their bytes. -/
theorem displacements_entryBytes (entries : List Int32) : displacements (entryBytes entries) = entries := by
  induction entries with
  | nil => rfl
  | cons entry rest ih =>
    have word : littleEndian (toLittleEndian 4 entry.toUInt32.toNat) = entry.toUInt32.toNat :=
      littleEndian_toLittleEndian_of_lt entry.toUInt32.toNat_lt
    rw [entryBytes, List.flatMap_cons]
    simp only [toLittleEndian, List.cons_append, List.nil_append] at word ⊢
    rw [displacements_cons, word, int32_ofNat_toUInt32]
    exact congrArg (entry :: ·) ih

/-- Writing the entries that were read gives the bytes of the table back. -/
theorem entryBytes_displacements {bytes : List UInt8} {count : Nat} (length : bytes.length = 4 * count) :
    entryBytes (displacements bytes) = bytes := by
  induction count generalizing bytes with
  | zero =>
    have empty : bytes = [] := List.length_eq_zero_iff.mp (by omega)
    subst bytes
    rfl
  | succ count ih =>
    match bytes, length with
    | b0 :: b1 :: b2 :: b3 :: rest, length =>
      have tail : rest.length = 4 * count := by simp only [List.length_cons] at length; omega
      have word : toLittleEndian 4 (Int32.ofNat (littleEndian [b0, b1, b2, b3])).toUInt32.toNat =
          [b0, b1, b2, b3] := by
        rw [Int32.toUInt32_ofNat', UInt32.toNat_ofNat']
        exact toLittleEndian_mod rfl rfl
      have later := ih tail
      rw [entryBytes] at later ⊢
      rw [displacements_cons, List.flatMap_cons, word, later]
      rfl

theorem length_displacements {bytes : List UInt8} {count : Nat} (length : bytes.length = 4 * count) :
    (displacements bytes).length = count := by
  have written := length_entryBytes (displacements bytes)
  rw [entryBytes_displacements length] at written
  omega

end Table

theorem length_bytes {operand : Operand} {kind : OperandKind} (fits : operand.kind? = some kind) :
    operand.bytes.length = operand.width := by
  cases operand with
  | absent => rfl
  | table displacements =>
    rw [bytes, List.length_append, length_toLittleEndian, width]
    exact congrArg (4 + ·) (length_entryBytes displacements)
  | cut | cutCount | cutTable => cases fits
  | _ => exact length_toLittleEndian ..

section Fixed

variable {kind : OperandKind} {width : Nat}

theorem read_of_enough {bytes : List UInt8} (known : kind.width? = some width)
    (enough : width ≤ bytes.length) : read kind bytes = ofPattern kind (littleEndian (bytes.take width)) := by
  have length : (bytes.take width).length = width := List.length_take_of_le enough
  simp only [read, known, length, Nat.lt_irrefl, if_false]

theorem read_of_short {bytes : List UInt8} (known : kind.width? = some width)
    (short : bytes.length < width) : read kind bytes = cut kind bytes.length := by
  have all : bytes.take width = bytes := List.take_of_length_le short.le
  simp only [read, known, all, short, if_true]

/-- The pattern of a complete operand of fixed width stands in its bytes. -/
theorem ofPattern_bytes {operand : Operand} (fits : operand.kind? = some kind)
    (known : kind.width? = some width) : ofPattern kind (littleEndian operand.bytes) = operand := by
  cases operand with
  | absent => cases fits; rfl
  | byte value | shortBranch value =>
    cases fits
    rw [bytes, littleEndian_toLittleEndian_of_lt value.toUInt8.toNat_lt, ofPattern, int8_ofNat_toUInt8]
  | shortIndex value =>
    cases fits
    rw [bytes, littleEndian_toLittleEndian_of_lt value.toNat_lt, ofPattern, UInt8.ofNat_toNat]
  | index value =>
    cases fits
    rw [bytes, littleEndian_toLittleEndian_of_lt value.toUInt16.toNat_lt, ofPattern,
      int16_ofNat_toUInt16]
  | int32 value | longBranch value =>
    cases fits
    rw [bytes, littleEndian_toLittleEndian_of_lt value.toUInt32.toNat_lt, ofPattern,
      int32_ofNat_toUInt32]
  | int64 value =>
    cases fits
    rw [bytes, littleEndian_toLittleEndian_of_lt value.toUInt64.toNat_lt, ofPattern,
      int64_ofNat_toUInt64]
  | float32 bits =>
    cases fits
    rw [bytes, littleEndian_toLittleEndian_of_lt bits.toNat_lt, ofPattern, UInt32.ofNat_toNat]
  | float64 bits =>
    cases fits
    rw [bytes, littleEndian_toLittleEndian_of_lt bits.toNat_lt, ofPattern, UInt64.ofNat_toNat]
  | token hint value =>
    rw [bytes, littleEndian_toLittleEndian_of_lt value.value.toNat_lt]
    cases hint <;> cases fits <;> simp only [ofPattern, UInt32.ofNat_toNat]
  | table displacements => cases fits; cases known
  | cut | cutCount | cutTable => cases fits

theorem width_ofPattern (known : kind.width? = some width) (number : Nat) :
    (ofPattern kind number).width = width := by
  cases kind with
  | switch => cases known
  | _ => cases known; rfl

theorem kind?_ofPattern (known : kind.width? = some width) (number : Nat) :
    (ofPattern kind number).kind? = some kind := by
  cases kind with
  | switch => cases known
  | _ => rfl

/-- Of as many bytes as the kind is wide, none is lost in the operand read from them. -/
theorem bytes_ofPattern {head : List UInt8} (known : kind.width? = some width)
    (length : head.length = width) : (ofPattern kind (littleEndian head)).bytes = head := by
  cases kind with
  | switch => cases known
  | none =>
    cases known
    exact (List.length_eq_zero_iff.mp length).symm
  | constByte | shortBranchTarget =>
    cases known
    rw [ofPattern, bytes, Int8.toUInt8_ofNat', UInt8.toNat_ofNat']
    exact toLittleEndian_mod length rfl
  | shortVarIndex =>
    cases known
    rw [ofPattern, bytes, UInt8.toNat_ofNat']
    exact toLittleEndian_mod length rfl
  | varIndex =>
    cases known
    rw [ofPattern, bytes, Int16.toUInt16_ofNat', UInt16.toNat_ofNat']
    exact toLittleEndian_mod length rfl
  | constInt32 | longBranchTarget =>
    cases known
    rw [ofPattern, bytes, Int32.toUInt32_ofNat', UInt32.toNat_ofNat']
    exact toLittleEndian_mod length rfl
  | constInt64 =>
    cases known
    rw [ofPattern, bytes, Int64.toUInt64_ofNat', UInt64.toNat_ofNat']
    exact toLittleEndian_mod length rfl
  | constFloat64 =>
    cases known
    rw [ofPattern, bytes, UInt64.toNat_ofNat']
    exact toLittleEndian_mod length rfl
  | constFloat32 | stringToken | methodToken | fieldToken | typeToken | genericToken =>
    cases known
    rw [ofPattern, bytes, UInt32.toNat_ofNat']
    exact toLittleEndian_mod length rfl

end Fixed

section Switch

variable {bytes : List UInt8}

theorem need_switch_of_short (short : bytes.length < 4) : OperandKind.need .switch bytes = 4 :=
  if_pos short

theorem need_switch_of_counted (counted : 4 ≤ bytes.length) :
    OperandKind.need .switch bytes = 4 + 4 * littleEndian (bytes.take 4) :=
  if_neg (Nat.not_lt.mpr counted)

theorem read_switch_of_short (short : bytes.length < 4) :
    read .switch bytes = cutCount bytes.length := by
  have all : bytes.take 4 = bytes := List.take_of_length_le short.le
  simp only [read, OperandKind.width?, readTable, all, short, if_true]

/-- The case count as it stands in the bytes, which a word of 32 bits holds. -/
theorem caseCount_toNat (counted : 4 ≤ bytes.length) :
    (UInt32.ofNat (littleEndian (bytes.take 4))).toNat = littleEndian (bytes.take 4) := by
  have bound := littleEndian_lt (bytes.take 4)
  rw [List.length_take_of_le counted] at bound
  rw [UInt32.toNat_ofNat']
  exact Nat.mod_eq_of_lt bound

theorem read_switch_of_cut (counted : 4 ≤ bytes.length)
    (short : bytes.length < 4 + 4 * littleEndian (bytes.take 4)) :
    read .switch bytes =
      cutTable (UInt32.ofNat (littleEndian (bytes.take 4))) (bytes.length - 4) := by
  have head : (bytes.take 4).length = 4 := List.length_take_of_le counted
  have fewer : (bytes.drop 4).length < 4 * littleEndian (bytes.take 4) := by
    rw [List.length_drop]
    omega
  simp only [read, OperandKind.width?, readTable, head, Nat.lt_irrefl, if_false,
    caseCount_toNat counted, List.take_of_length_le fewer.le, fewer, if_true]
  rw [List.length_drop]

theorem read_switch_of_enough (counted : 4 ≤ bytes.length)
    (enough : 4 + 4 * littleEndian (bytes.take 4) ≤ bytes.length) :
    read .switch bytes =
      table (displacements ((bytes.drop 4).take (4 * littleEndian (bytes.take 4)))) := by
  have head : (bytes.take 4).length = 4 := List.length_take_of_le counted
  have entries : ((bytes.drop 4).take (4 * littleEndian (bytes.take 4))).length =
      4 * littleEndian (bytes.take 4) := by
    rw [List.length_take_of_le]
    rw [List.length_drop]
    omega
  simp only [read, OperandKind.width?, readTable, head, Nat.lt_irrefl, if_false,
    caseCount_toNat counted, entries]

end Switch

/-- What reading an operand does with any bytes: it takes what the kind needs and keeps all of it,
or it takes all there is and keeps only their number. -/
inductive Reads (kind : OperandKind) (bytes : List UInt8) (operand : Operand) : Prop
  | complete (fits : operand.kind? = some kind) (width : operand.width = kind.need bytes)
      (front : bytes.take operand.width = operand.bytes) (enough : operand.width ≤ bytes.length)
  | cut (isCut : operand.isCut = true) (width : operand.width = bytes.length)
      (short : bytes.length < kind.need bytes)

theorem reads_read (kind : OperandKind) (bytes : List UInt8) : Reads kind bytes (read kind bytes) := by
  cases known : kind.width? with
  | some width =>
    have need : kind.need bytes = width := by rw [OperandKind.need, known]
    by_cases enough : width ≤ bytes.length
    · have length : (bytes.take width).length = width := List.length_take_of_le enough
      have fits := kind?_ofPattern known (littleEndian (bytes.take width))
      have wide := width_ofPattern known (littleEndian (bytes.take width))
      rw [read_of_enough known enough]
      refine .complete fits ?_ ?_ ?_
      · rw [wide, need]
      · rw [wide, bytes_ofPattern known length]
      · rw [wide]
        exact enough
    · rw [read_of_short known (by omega)]
      exact .cut rfl rfl (by omega)
  | none =>
    cases OperandKind.width?_eq_none_iff.mp known
    by_cases counted : 4 ≤ bytes.length
    · have need := need_switch_of_counted counted
      by_cases enough : 4 + 4 * littleEndian (bytes.take 4) ≤ bytes.length
      · have entries : ((bytes.drop 4).take (4 * littleEndian (bytes.take 4))).length =
            4 * littleEndian (bytes.take 4) := by
          rw [List.length_take_of_le]
          rw [List.length_drop]
          omega
        have head : toLittleEndian 4 (littleEndian (bytes.take 4)) = bytes.take 4 := by
          have written := toLittleEndian_littleEndian (bytes.take 4)
          rwa [List.length_take_of_le counted] at written
        rw [read_switch_of_enough counted enough]
        refine .complete rfl ?_ ?_ ?_
        · rw [width, length_displacements entries, need]
        · rw [width, length_displacements entries, Operand.bytes, length_displacements entries, head,
            List.take_add]
          exact congrArg (bytes.take 4 ++ ·) (entryBytes_displacements entries).symm
        · rw [width, length_displacements entries]
          exact enough
      · rw [read_switch_of_cut counted (by omega)]
        refine .cut rfl ?_ (by omega)
        rw [width]
        omega
    · rw [read_switch_of_short (by omega)]
      refine .cut rfl rfl ?_
      rw [need_switch_of_short (by omega)]
      omega

section Front

variable {kind : OperandKind} {front : List UInt8}

/-- What an operand lacks at the front of the bytes does not get less where more bytes follow. -/
theorem lt_need_append (short : front.length < kind.need front) (more : List UInt8) :
    front.length < kind.need (front ++ more) := by
  cases known : kind.width? with
  | some width =>
    unfold OperandKind.need at short ⊢
    rwa [known] at short ⊢
  | none =>
    cases OperandKind.width?_eq_none_iff.mp known
    by_cases counted : 4 ≤ front.length
    · have longer : 4 ≤ (front ++ more).length := by rw [List.length_append]; omega
      rw [need_switch_of_counted counted] at short
      rwa [need_switch_of_counted longer, List.take_append_of_le_length counted]
    · by_cases longer : 4 ≤ (front ++ more).length
      · rw [need_switch_of_counted longer]
        omega
      · rw [need_switch_of_short (by omega)]
        omega

/-- A complete operand is the same whatever follows it. -/
theorem read_append (enough : kind.need front ≤ front.length) (more : List UInt8) :
    read kind (front ++ more) = read kind front := by
  have longer : front.length ≤ (front ++ more).length := by rw [List.length_append]; omega
  cases known : kind.width? with
  | some width =>
    have wide : width ≤ front.length := by
      unfold OperandKind.need at enough
      rwa [known] at enough
    rw [read_of_enough known wide, read_of_enough known (wide.trans longer),
      List.take_append_of_le_length wide]
  | none =>
    cases OperandKind.width?_eq_none_iff.mp known
    have counted : 4 ≤ front.length := by
      by_contra few
      rw [need_switch_of_short (by omega)] at enough
      omega
    rw [need_switch_of_counted counted] at enough
    have head : (front ++ more).take 4 = front.take 4 := List.take_append_of_le_length counted
    have room : 4 * littleEndian (front.take 4) ≤ (front.drop 4).length := by
      rw [List.length_drop]
      omega
    rw [read_switch_of_enough counted enough,
      read_switch_of_enough (counted.trans longer) (by rw [head]; omega), head,
      List.drop_append_of_le_length counted, List.take_append_of_le_length room]

end Front

/-- A complete operand is read back from its bytes, whatever follows them. Its width bounds the
number of cases, which 32 bits have to hold. -/
theorem read_bytes_append {operand : Operand} {kind : OperandKind} (fits : operand.kind? = some kind)
    (short : operand.width < 2 ^ 32) (rest : List UInt8) :
    read kind (operand.bytes ++ rest) = operand := by
  have length := length_bytes fits
  rcases width?_of_fits fits with known | ⟨entries, rfl, rfl⟩
  · have enough : operand.width ≤ (operand.bytes ++ rest).length := by
      rw [List.length_append]
      omega
    rw [read_of_enough known enough, ← length, List.take_left, ofPattern_bytes fits known]
  · have count : entries.length < 256 ^ 4 := by
      rw [width] at short
      omega
    have split : (table entries).bytes ++ rest =
        toLittleEndian 4 entries.length ++ (entryBytes entries ++ rest) := List.append_assoc ..
    have head : (toLittleEndian 4 entries.length ++ (entryBytes entries ++ rest)).take 4 =
        toLittleEndian 4 entries.length := List.take_left' (length_toLittleEndian ..)
    have tail : (toLittleEndian 4 entries.length ++ (entryBytes entries ++ rest)).drop 4 =
        entryBytes entries ++ rest := List.drop_left' (length_toLittleEndian ..)
    have total : (toLittleEndian 4 entries.length ++ (entryBytes entries ++ rest)).length =
        4 + (4 * entries.length + rest.length) := by
      rw [List.length_append, length_toLittleEndian, List.length_append, length_entryBytes]
    have number := littleEndian_toLittleEndian_of_lt count
    rw [split, read_switch_of_enough (by omega) (by rw [head, number]; omega), head, number, tail,
      ← length_entryBytes, List.take_left, displacements_entryBytes]

end Operand

end CilListing
