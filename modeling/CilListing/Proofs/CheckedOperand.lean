import CilListing.Cursor
import CilListing.Proofs.OperandBytes

namespace CilListing

section Binding

variable {m : Type → Type} [Monad m] {σ ε α β : Type}

/-- Behind a step whose result is known, what follows goes on from that result. -/
theorem bind_of_run [LawfulMonad m] {step : StateT σ m α} {start finish : σ} {result : α}
    (run : step start = pure (result, finish)) (continuation : α → StateT σ m β) :
    (step >>= continuation) start = continuation result finish := by
  show (step start >>= fun pair => continuation pair.1 pair.2) = _
  rw [run, pure_bind]

/-- Behind a step that fails, nothing follows. -/
theorem bind_of_error {step : StateT σ (Except ε) α} {start : σ} {error : ε}
    (run : step start = .error error) (continuation : α → StateT σ (Except ε) β) :
    (step >>= continuation) start = .error error := by
  show (step start >>= fun pair => continuation pair.1 pair.2) = _
  rw [run]
  rfl

end Binding

/-- Reading that a failed read breaks off. -/
abbrev Checked (α : Type) := StateT Cursor (Except Error) α

namespace Checked

def value (scalar : Scalar) : Checked Scalar.Value := fun cursor =>
  match cursor.read scalar with
  | (.ok value, next) => .ok (value, next)
  | (.error error, _) => .error error

/-- Gives up the bytes that remain, and counts them. -/
def skipRest : Checked Nat := fun cursor => .ok cursor.skipRest

/-- A number behind an opcode, as it is shown. -/
def number (scalar : Scalar) : Checked (Option String × Option Token) := do
  let value ← value scalar
  return (some value.text, none)

/-- A token, which the backend is asked for. -/
def token (backend : Backend) (hint : OperandKind) : Checked (Option String × Option Token) := do
  let value ← value .u32
  let token : Token := ⟨UInt32.ofNat value.pattern⟩
  return (some (backend.resolve token hint).value.text, some token)

/-- A displacement, counted from the position behind it. -/
def branch (scalar : Scalar) (extend : Nat → Int32) : Checked (Option String × Option Token) := do
  let value ← value scalar
  let next ← get
  return (some (targetLabel next.position (extend value.pattern)), none)

/-- An operand of fixed width, of which all bytes are there. -/
def fixed (backend : Backend) (kind : OperandKind) : Checked (Option String × Option Token) :=
  match kind with
  | .none | .switch => return (none, none)
  | .constByte => number .i8
  | .shortVarIndex => number .u8
  | .varIndex => number .i16
  | .constInt32 => number .i32
  | .constInt64 => number .i64
  | .constFloat32 => number .f32
  | .constFloat64 => number .f64
  | .stringToken | .methodToken | .fieldToken | .typeToken | .genericToken => token backend kind
  | .shortBranchTarget => branch .i8 fun pattern => (Int8.ofNat pattern).toInt32
  | .longBranchTarget => branch .i32 Int32.ofNat

/-- The targets of a jump table, one displacement after the other. -/
def targets (base : Nat) : Nat → Checked (List String)
  | 0 => return []
  | count + 1 => do
    let value ← value .i32
    let later ← targets base count
    return targetLabel base (Int32.ofNat value.pattern) :: later

def switch : Checked Cursor.DecodedOperand := do
  let start ← get
  if start.remaining < 4 then
    let skipped ← skipRest
    return ⟨none, skipped, none⟩
  else
    let count ← value .u32
    let entries ← get
    if entries.remaining < 4 * count.pattern then
      let _ ← skipRest
      let finish ← get
      return ⟨none, finish.position - start.position, none⟩
    else
      let labels ← targets (entries.position + 4 * count.pattern) count.pattern
      let finish ← get
      return ⟨some ("(" ++ ", ".intercalate labels ++ ")"), finish.position - start.position, none⟩

/-- An operand. Its width is checked before anything is read. -/
def operand (backend : Backend) (kind : OperandKind) : Checked Cursor.DecodedOperand := do
  let start ← get
  match kind.width? with
  | none => switch
  | some width =>
    if start.remaining < width then
      let skipped ← skipRest
      return ⟨none, skipped, none⟩
    else
      let (text, token) ← fixed backend kind
      let finish ← get
      return ⟨text, finish.position - start.position, token⟩

end Checked

namespace Cursor

variable (cursor : Cursor)

theorem remaining_eq : cursor.remaining = cursor.rest.length := by
  rw [rest, List.length_drop]
  rfl

theorem rest_forward (count : Nat) : (cursor.forward count).rest = cursor.rest.drop count := by
  rw [rest, rest, List.drop_drop]
  rfl

theorem remaining_forward (count : Nat) : (cursor.forward count).remaining = cursor.remaining - count := by
  rw [remaining_eq, remaining_eq, rest_forward, List.length_drop]

theorem forward_forward (first second : Nat) :
    (cursor.forward first).forward second = cursor.forward (first + second) := by
  simp only [forward, Nat.add_assoc]

/-- Giving up the rest is going forward to the end. -/
theorem skipRest_eq (within : cursor.position ≤ cursor.length) :
    cursor.skipRest = (cursor.remaining, cursor.forward cursor.remaining) := by
  have finish : cursor.position + cursor.remaining = cursor.length := by
    rw [remaining]
    omega
  rw [forward, finish]
  rfl

variable {cursor} {scalar : Scalar}

/-- A read takes the bytes of its type where as many remain. -/
theorem read_of_enough (enough : scalar.width ≤ cursor.remaining) :
    cursor.read scalar =
      (.ok (scalar.ofPattern (littleEndian (cursor.rest.take scalar.width))), cursor.forward scalar.width) := by
  rw [remaining_eq] at enough
  have head : (cursor.rest.take scalar.width).length = scalar.width := List.length_take_of_le enough
  have read : scalar.read? cursor.rest =
      some (scalar.ofPattern (littleEndian (cursor.rest.take scalar.width))) := by
    simp only [Scalar.read?, head, Nat.lt_irrefl, if_false]
  rw [Cursor.read, read]

theorem read_of_short (short : cursor.remaining < scalar.width) :
    cursor.read scalar = (.error overrun, cursor) := by
  rw [remaining_eq] at short
  have head : (cursor.rest.take scalar.width).length < scalar.width := by
    rw [List.length_take]
    omega
  have read : scalar.read? cursor.rest = none := by simp only [Scalar.read?, head, if_true]
  rw [Cursor.read, read]

end Cursor

namespace Checked

variable {cursor : Cursor}

theorem value_ok {scalar : Scalar} {width : Nat} (wide : scalar.width = width)
    (enough : width ≤ cursor.remaining) :
    value scalar cursor =
      .ok (scalar.ofPattern (littleEndian (cursor.rest.take width)), cursor.forward width) := by
  subst width
  rw [value, Cursor.read_of_enough enough]

theorem value_error {scalar : Scalar} (short : cursor.remaining < scalar.width) :
    value scalar cursor = .error Cursor.overrun := by
  rw [value, Cursor.read_of_short short]

theorem number_ok {scalar : Scalar} {width : Nat} (wide : scalar.width = width)
    (enough : width ≤ cursor.remaining) :
    number scalar cursor =
      .ok ((some (scalar.ofPattern (littleEndian (cursor.rest.take width))).text, none),
        cursor.forward width) :=
  bind_of_run (value_ok wide enough) _

theorem token_ok {backend : Backend} {hint : OperandKind} (enough : 4 ≤ cursor.remaining) :
    token backend hint cursor =
      .ok ((((Operand.token hint ⟨UInt32.ofNat (littleEndian (cursor.rest.take 4))⟩).text backend
        (cursor.position + 4)).value, some ⟨UInt32.ofNat (littleEndian (cursor.rest.take 4))⟩),
        cursor.forward 4) := by
  have wide : Scalar.u32.width = 4 := rfl
  rw [token, bind_of_run (value_ok wide enough)]
  simp only [Scalar.ofPattern, Scalar.Value.pattern, UInt32.ofNat_toNat]
  rfl

theorem branch_ok {scalar : Scalar} {width : Nat} {extend : Nat → Int32} (wide : scalar.width = width)
    (enough : width ≤ cursor.remaining) :
    branch scalar extend cursor =
      .ok ((some (targetLabel (cursor.position + width)
        (extend (scalar.ofPattern (littleEndian (cursor.rest.take width))).pattern)), none),
        cursor.forward width) := by
  rw [branch, bind_of_run (value_ok wide enough), bind_of_run rfl]
  rfl

/-- Reading an operand of fixed width whose bytes are all there gives its text and its token. -/
theorem fixed_ok {backend : Backend} {kind : OperandKind} {width : Nat}
    (known : kind.width? = some width) (enough : width ≤ cursor.remaining) :
    fixed backend kind cursor =
      .ok ((((Operand.ofPattern kind (littleEndian (cursor.rest.take width))).text backend
        (cursor.position + width)).value,
        (Operand.ofPattern kind (littleEndian (cursor.rest.take width))).token?), cursor.forward width) := by
  cases kind with
  | switch => cases known
  | none => cases known; rfl
  | constByte | shortVarIndex | varIndex | constInt32 | constInt64 | constFloat32 | constFloat64 =>
    cases known
    exact number_ok rfl enough
  | stringToken | methodToken | fieldToken | typeToken | genericToken =>
    cases known
    exact token_ok enough
  | shortBranchTarget =>
    cases known
    have wide : Scalar.i8.width = 1 := rfl
    rw [fixed, branch_ok wide enough, Scalar.ofPattern, Scalar.Value.pattern, int8_ofNat_toUInt8]
    rfl
  | longBranchTarget =>
    cases known
    have wide : Scalar.i32.width = 4 := rfl
    rw [fixed, branch_ok wide enough, Scalar.ofPattern, Scalar.Value.pattern, int32_ofNat_toUInt32]
    rfl

theorem targets_ok {base count : Nat} (enough : 4 * count ≤ cursor.remaining) :
    targets base count cursor =
      .ok ((Operand.displacements (cursor.rest.take (4 * count))).map (targetLabel base),
        cursor.forward (4 * count)) := by
  induction count generalizing cursor with
  | zero => rfl
  | succ count ih =>
    have wide : Scalar.i32.width = 4 := rfl
    have first : 4 ≤ cursor.remaining := by omega
    have later : 4 * count ≤ (cursor.forward 4).remaining := by
      rw [Cursor.remaining_forward]
      omega
    rw [targets, bind_of_run (value_ok wide first), bind_of_run (ih later), Cursor.rest_forward,
      Cursor.forward_forward, Nat.add_comm 4, ← Nat.mul_succ, Scalar.ofPattern, Scalar.Value.pattern,
      int32_ofNat_toUInt32]
    rw [Cursor.remaining_eq] at first
    match rest : cursor.rest, first with
    | b0 :: b1 :: b2 :: b3 :: tail, _ =>
      have front : (b0 :: b1 :: b2 :: b3 :: tail).take (4 * (count + 1)) =
          b0 :: b1 :: b2 :: b3 :: tail.take (4 * count) := rfl
      rw [front, Operand.displacements_cons, List.map_cons]
      rfl

theorem skipRest_ok (within : cursor.position ≤ cursor.length) :
    skipRest cursor = .ok (cursor.remaining, cursor.forward cursor.remaining) :=
  congrArg Except.ok (cursor.skipRest_eq within)

section Switch

variable (backend : Backend)

theorem switch_of_short (within : cursor.position ≤ cursor.length) (short : cursor.remaining < 4) :
    switch cursor = .ok (cursor.operand backend .switch).value := by
  have length := cursor.remaining_eq
  rw [switch, bind_of_run rfl, if_pos short, bind_of_run (skipRest_ok within), Cursor.operand,
    Operand.read_switch_of_short (length ▸ short), ← length]
  rfl

/-- The case count is read first, and it decides how the rest is read. -/
theorem switch_of_counted (counted : 4 ≤ cursor.remaining) :
    switch cursor =
      if cursor.remaining - 4 < 4 * littleEndian (cursor.rest.take 4) then
        (do
          let _ ← skipRest
          let finish ← get
          return ⟨none, finish.position - cursor.position, none⟩ : Checked _) (cursor.forward 4)
      else
        (do
          let labels ← targets (cursor.position + 4 + 4 * littleEndian (cursor.rest.take 4))
            (littleEndian (cursor.rest.take 4))
          let finish ← get
          return ⟨some ("(" ++ ", ".intercalate labels ++ ")"), finish.position - cursor.position, none⟩ :
            Checked _) (cursor.forward 4) := by
  have length := cursor.remaining_eq
  have wide : Scalar.u32.width = 4 := rfl
  rw [switch, bind_of_run rfl, if_neg (Nat.not_lt.mpr counted), bind_of_run (value_ok wide counted), bind_of_run rfl,
    Scalar.ofPattern, Scalar.Value.pattern, Operand.caseCount_toNat (length ▸ counted),
    Cursor.remaining_forward]
  split <;> rfl

theorem switch_of_cut (within : cursor.position ≤ cursor.length) (counted : 4 ≤ cursor.remaining)
    (short : cursor.remaining - 4 < 4 * littleEndian (cursor.rest.take 4)) :
    switch cursor = .ok (cursor.operand backend .switch).value := by
  have length := cursor.remaining_eq
  have entries : (cursor.forward 4).position ≤ (cursor.forward 4).length := by
    show cursor.position + 4 ≤ cursor.length
    rw [Cursor.remaining] at counted
    omega
  have cut := Operand.read_switch_of_cut (length ▸ counted)
    (show cursor.rest.length < 4 + 4 * littleEndian (cursor.rest.take 4) by omega)
  have size : (cursor.forward (4 + (cursor.remaining - 4))).position - cursor.position =
      4 + (cursor.remaining - 4) := Nat.add_sub_cancel_left ..
  rw [switch_of_counted counted, if_pos short, bind_of_run (skipRest_ok entries), bind_of_run rfl, Cursor.operand,
    cut, Cursor.remaining_forward, Cursor.forward_forward, ← length, size]
  rfl

theorem switch_of_enough (counted : 4 ≤ cursor.remaining)
    (enough : 4 * littleEndian (cursor.rest.take 4) ≤ cursor.remaining - 4) :
    switch cursor = .ok (cursor.operand backend .switch).value := by
  have length := cursor.remaining_eq
  have table := Operand.read_switch_of_enough (length ▸ counted)
    (show 4 + 4 * littleEndian (cursor.rest.take 4) ≤ cursor.rest.length by omega)
  have entryLength : ((cursor.rest.drop 4).take (4 * littleEndian (cursor.rest.take 4))).length =
      4 * littleEndian (cursor.rest.take 4) := by
    rw [List.length_take_of_le]
    rw [List.length_drop]
    omega
  have width : (Operand.read .switch cursor.rest).width = 4 + 4 * littleEndian (cursor.rest.take 4) := by
    rw [table, Operand.width, Operand.length_displacements entryLength]
  have size : (cursor.forward (4 + 4 * littleEndian (cursor.rest.take 4))).position - cursor.position =
      4 + 4 * littleEndian (cursor.rest.take 4) := Nat.add_sub_cancel_left ..
  have base : cursor.position + 4 + 4 * littleEndian (cursor.rest.take 4) =
      (cursor.forward (4 + 4 * littleEndian (cursor.rest.take 4))).position := Nat.add_assoc ..
  rw [← Cursor.remaining_forward] at enough
  rw [switch_of_counted counted, if_neg (by rw [← Cursor.remaining_forward]; omega),
    bind_of_run (targets_ok enough), bind_of_run rfl, Cursor.operand, width, table, Cursor.rest_forward,
    Cursor.forward_forward, size, base]
  rfl

theorem switch_ok (within : cursor.position ≤ cursor.length) :
    switch cursor = .ok (cursor.operand backend .switch).value := by
  by_cases counted : 4 ≤ cursor.remaining
  · by_cases enough : 4 * littleEndian (cursor.rest.take 4) ≤ cursor.remaining - 4
    · exact switch_of_enough backend counted enough
    · exact switch_of_cut backend within counted (Nat.not_le.mp enough)
  · exact switch_of_short backend within (Nat.not_le.mp counted)

end Switch

/-- Reading an operand never fails, and it gives what stands in the bytes. -/
theorem operand_ok (backend : Backend) (kind : OperandKind) (within : cursor.position ≤ cursor.length) :
    operand backend kind cursor = .ok (cursor.operand backend kind).value := by
  have length := cursor.remaining_eq
  rw [operand, bind_of_run rfl]
  cases known : kind.width? with
  | none =>
    cases OperandKind.width?_eq_none_iff.mp known
    exact switch_ok backend within
  | some width =>
    by_cases short : cursor.remaining < width
    · have cut := Operand.read_of_short known (length ▸ short)
      simp only [if_pos short]
      rw [bind_of_run (skipRest_ok within), Cursor.operand, cut, ← length]
      rfl
    · have enough : width ≤ cursor.remaining := by omega
      have read := Operand.read_of_enough known (length ▸ enough)
      have wide := Operand.width_ofPattern known (littleEndian (cursor.rest.take width))
      have size : (cursor.forward width).position - cursor.position = width := Nat.add_sub_cancel_left ..
      simp only [if_neg short]
      rw [bind_of_run (fixed_ok known enough), bind_of_run rfl, Cursor.operand, read, wide, size]
      rfl

end Checked

end CilListing
