import CilListing.Metadata.Symbols
import CilListing.Proofs.ScalarReads

namespace CilListing

/-- The type that an operand is read as, where it is one value. -/
def OperandKind.scalar? : OperandKind → Option Scalar
  | none | switch => Option.none
  | constByte | shortBranchTarget => some .i8
  | shortVarIndex => some .u8
  | varIndex => some .i16
  | constInt32 | longBranchTarget => some .i32
  | constInt64 => some .i64
  | constFloat32 => some .f32
  | constFloat64 => some .f64
  | stringToken | methodToken | fieldToken | typeToken | genericToken => some .u32

theorem OperandKind.width?_of_scalar? {kind : OperandKind} {scalar : Scalar}
    (read : kind.scalar? = some scalar) : kind.width? = some scalar.width := by
  cases kind <;> cases read <;> rfl

/-- What can break off reading in machine words: a read that fails, or a size or a position that
no word of 64 bits holds. -/
inductive Breach
  | failed (error : Error)
  | overflow
deriving DecidableEq, Repr

/-- Reading that counts sizes and positions in machine words. -/
abbrev Sized (α : Type) := StateT Cursor (Except Breach) α

namespace Sized

/-- The result of an operation on words. It is computed exactly, and where it is no word itself,
reading breaks off, even if the step could have gone on without it. -/
def word (result : Int) : Sized Nat :=
  if 0 ≤ result ∧ result < 2 ^ 64 then return result.toNat else throw .overflow

/-- A value, from the slice of the data between the position and the end of its bytes. -/
def value (scalar : Scalar) : Sized Scalar.Value := do
  let cursor ← get
  let finish ← word (cursor.position + scalar.width)
  let slice := (cursor.data.take finish).drop cursor.position
  if cursor.length < finish ∨ slice.length ≠ scalar.width then throw (.failed Cursor.overrun)
  else
    set { cursor with position := finish }
    return scalar.ofPattern (littleEndian slice)

def skipRest : Sized Nat := fun cursor => .ok cursor.skipRest

/-- An operand of fixed width, which is read as one value. -/
def fixed (backend : Backend) (kind : OperandKind) : Sized (Option String × Option Token) :=
  match kind.scalar? with
  | none => return (none, none)
  | some scalar => do
    let value ← value scalar
    let next ← get
    let operand := Operand.ofPattern kind value.pattern
    return ((operand.text backend next.position).value, operand.token?)

def targets (base : Nat) : Nat → Sized (List String)
  | 0 => return []
  | count + 1 => do
    let value ← value .i32
    let later ← targets base count
    return targetLabel base (Int32.ofNat value.pattern) :: later

/-- A jump table. The size of its entries, the position behind them and the bytes taken are words. -/
def switch : Sized Cursor.DecodedOperand := do
  let start ← get
  if start.remaining < 4 then
    let skipped ← skipRest
    return ⟨none, skipped, none⟩
  else
    let count ← value .u32
    let size ← word (count.pattern * 4)
    let entries ← get
    if entries.remaining < size then
      let _ ← skipRest
      let finish ← get
      let taken ← word (finish.position - start.position)
      return ⟨none, taken, none⟩
    else
      let base ← word (entries.position + size)
      let labels ← targets base count.pattern
      let finish ← get
      let taken ← word (finish.position - start.position)
      return ⟨some ("(" ++ ", ".intercalate labels ++ ")"), taken, none⟩

/-- An operand, by the steps of checked reading. -/
def operand (backend : Backend) (kind : OperandKind) : Sized Cursor.DecodedOperand := do
  let start ← get
  match kind.width? with
  | none => switch
  | some width =>
    if start.remaining < width then
      let skipped ← skipRest
      return ⟨none, skipped, none⟩
    else
      let (text, token) ← fixed backend kind
      let finish ← get
      let taken ← word (finish.position - start.position)
      return ⟨text, taken, token⟩

end Sized

namespace Cursor

/-- A cursor at a place in its data, which are shorter than half of what a word can count. -/
structure Roomy (cursor : Cursor) : Prop where
  within : cursor.position ≤ cursor.length
  short : cursor.length < 2 ^ 63

/-- A cursor further on in the same data. -/
structure Onward (before after : Cursor) : Prop where
  data : after.data = before.data
  forward : before.position ≤ after.position
  within : after.position ≤ after.length

namespace Onward

variable {before between after : Cursor}

theorem trans (first : before.Onward between) (later : between.Onward after) : before.Onward after :=
  ⟨later.data.trans first.data, first.forward.trans later.forward, later.within⟩

theorem roomy (onward : before.Onward after) (room : before.Roomy) : after.Roomy := by
  refine ⟨onward.within, ?_⟩
  rw [Cursor.length, onward.data]
  exact room.short

end Onward

theorem onward_forward {cursor : Cursor} {count : Nat} (within : cursor.position ≤ cursor.length)
    (enough : count ≤ cursor.remaining) : cursor.Onward (cursor.forward count) := by
  refine ⟨rfl, Nat.le_add_right .., ?_⟩
  show cursor.position + count ≤ cursor.length
  rw [remaining] at enough
  omega

end Cursor

theorem Checked.pattern_lt_of_value {scalar : Scalar} {result : Scalar.Value} {cursor next : Cursor}
    (run : value scalar cursor = .ok (result, next)) : result.pattern < 256 ^ scalar.width := by
  rw [← Stepwise.forget_value] at run
  have read : cursor.read scalar = (.ok result, next) := Stepwise.eq_of_forget_ok run
  rw [← (Cursor.read_eq_ok_iff.mp read).2.1]
  exact result.pattern_lt

namespace Sized

variable {α β : Type} {cursor : Cursor}

/-- At a cursor, reading in words comes to the same as checked reading, failures included, and where it
succeeds it has gone on within the data. -/
structure Follows (sized : Sized α) (checked : Checked α) (cursor : Cursor) : Prop where
  same : sized cursor = (checked cursor).mapError .failed
  onward : ∀ result next, checked cursor = .ok (result, next) → cursor.Onward next

namespace Follows

theorem of_ok {sized : Sized α} {checked : Checked α} {result : α} {next : Cursor}
    (sizedRun : sized cursor = .ok (result, next)) (checkedRun : checked cursor = .ok (result, next))
    (onward : cursor.Onward next) : Follows sized checked cursor := by
  refine ⟨?_, ?_⟩
  · rw [sizedRun, checkedRun]
    rfl
  · intro _ _ run
    rw [checkedRun] at run
    cases run
    exact onward

theorem of_error {sized : Sized α} {checked : Checked α} {error : Error}
    (sizedRun : sized cursor = .error (.failed error)) (checkedRun : checked cursor = .error error) :
    Follows sized checked cursor := by
  refine ⟨?_, ?_⟩
  · rw [sizedRun, checkedRun]
    rfl
  · intro _ _ run
    rw [checkedRun] at run
    cases run

theorem pure (result : α) (within : cursor.position ≤ cursor.length) :
    Follows (Pure.pure result) (Pure.pure result) cursor :=
  .of_ok rfl rfl ⟨rfl, le_rfl, within⟩

theorem bind {sized : Sized α} {checked : Checked α} {sizedNext : α → Sized β} {checkedNext : α → Checked β}
    (first : Follows sized checked cursor)
    (later : ∀ result next, checked cursor = .ok (result, next) → cursor.Onward next →
      Follows (sizedNext result) (checkedNext result) next) :
    Follows (sized >>= sizedNext) (checked >>= checkedNext) cursor := by
  cases run : checked cursor with
  | error error =>
    have failed : sized cursor = .error (.failed error) := by
      rw [first.same, run]
      rfl
    exact .of_error (bind_of_error failed _) (bind_of_error run _)
  | ok pair =>
    obtain ⟨result, next⟩ := pair
    have read : sized cursor = .ok (result, next) := by
      rw [first.same, run]
      rfl
    have onward := first.onward result next run
    have follows := later result next run onward
    refine ⟨?_, ?_⟩
    · rw [bind_of_run read, bind_of_run run]
      exact follows.same
    · intro last finish ran
      rw [bind_of_run run] at ran
      exact onward.trans (follows.onward last finish ran)

theorem get_left {sizedNext : Cursor → Sized β} {checked : Checked β}
    (later : Follows (sizedNext cursor) checked cursor) : Follows (MonadState.get >>= sizedNext) checked cursor :=
  ⟨later.same, later.onward⟩

theorem get {sizedNext : Cursor → Sized β} {checkedNext : Cursor → Checked β}
    (later : Follows (sizedNext cursor) (checkedNext cursor) cursor) :
    Follows (MonadState.get >>= sizedNext) (MonadState.get >>= checkedNext) cursor :=
  ⟨later.same, later.onward⟩

theorem ite {condition : Prop} [Decidable condition] {sized sizedElse : Sized α} {checked checkedElse : Checked α}
    (holds : condition → Follows sized checked cursor)
    (fails : ¬condition → Follows sizedElse checkedElse cursor) :
    Follows (if condition then sized else sizedElse) (if condition then checked else checkedElse) cursor := by
  split
  · next met => exact holds met
  · next unmet => exact fails unmet

/-- An operation whose result is a word does not break off, and checked reading does not see it. -/
theorem word {result : Int} {size : Nat} {sizedNext : Nat → Sized β} {checked : Checked β}
    (natural : result = size) (fits : size < 2 ^ 64) (later : Follows (sizedNext size) checked cursor) :
    Follows (word result >>= sizedNext) checked cursor := by
  have computed : Sized.word result = Pure.pure size := by
    rw [Sized.word, if_pos (by omega), natural, Int.toNat_natCast]
  rw [computed]
  exact ⟨later.same, later.onward⟩

/-- The bytes taken between two cursors, counted in a word. -/
theorem taken {start finish : Cursor} {sizedNext : Nat → Sized β} {checked : Checked β}
    (forward : start.position ≤ finish.position) (room : finish.Roomy)
    (later : Follows (sizedNext (finish.position - start.position)) checked finish) :
    Follows (Sized.word (finish.position - start.position) >>= sizedNext) checked finish := by
  have within := room.within
  have short := room.short
  have difference : (finish.position - start.position : Int) = (finish.position - start.position : Nat) := by
    omega
  exact .word difference (by omega) later

end Follows

/-- A read adds eight at most to a position within the data, and so it stays far below the words' end. -/
theorem value_follows (scalar : Scalar) (room : cursor.Roomy) :
    Follows (value scalar) (Checked.value scalar) cursor := by
  have within := room.within
  have short := room.short
  have narrow := scalar.width_le
  have length := cursor.remaining_eq
  have sum : (cursor.position + scalar.width : Int) = (cursor.position + scalar.width : Nat) := by omega
  have slice : (cursor.data.take (cursor.position + scalar.width)).drop cursor.position =
      cursor.rest.take scalar.width := by
    rw [List.drop_take, Nat.add_sub_cancel_left, Cursor.rest]
  refine .get_left (.word sum (by omega) ?_)
  rw [slice]
  by_cases enough : scalar.width ≤ cursor.remaining
  · have inside : ¬(cursor.length < cursor.position + scalar.width ∨
        (cursor.rest.take scalar.width).length ≠ scalar.width) := by
      rw [List.length_take_of_le (length ▸ enough)]
      rw [Cursor.remaining] at enough
      omega
    rw [if_neg inside]
    exact .of_ok rfl (Checked.value_ok rfl enough) (Cursor.onward_forward within enough)
  · have outside : cursor.length < cursor.position + scalar.width ∨
        (cursor.rest.take scalar.width).length ≠ scalar.width := by
      rw [Cursor.remaining] at enough
      omega
    rw [if_pos outside]
    exact .of_error rfl (Checked.value_error (Nat.not_le.mp enough))

theorem skipRest_follows (within : cursor.position ≤ cursor.length) :
    Follows skipRest Checked.skipRest cursor := by
  have run : skipRest cursor = .ok (cursor.remaining, cursor.forward cursor.remaining) :=
    congrArg Except.ok (cursor.skipRest_eq within)
  exact .of_ok run (Checked.skipRest_ok within) (Cursor.onward_forward within le_rfl)

/-- An operand of fixed width is shown as the pattern of the one value that it is read as. -/
theorem fixed_follows (backend : Backend) {kind : OperandKind} {width : Nat} (room : cursor.Roomy)
    (known : kind.width? = some width) (enough : width ≤ cursor.remaining) :
    Follows (fixed backend kind) (Checked.fixed backend kind) cursor := by
  cases read : kind.scalar? with
  | none =>
    cases kind <;> cases read <;> cases known
    exact .pure _ room.within
  | some scalar =>
    obtain rfl : scalar.width = width := Option.some.inj ((OperandKind.width?_of_scalar? read).symm.trans known)
    let number := littleEndian (cursor.rest.take scalar.width)
    have pattern : (scalar.ofPattern number).pattern = number := by
      rw [Scalar.pattern_ofPattern]
      exact Nat.mod_eq_of_lt (Cursor.littleEndian_take_lt enough)
    have single : value scalar cursor = .ok (scalar.ofPattern number, cursor.forward scalar.width) := by
      rw [(value_follows scalar room).same, Checked.value_ok rfl enough]
      rfl
    refine .of_ok ?_ (Checked.fixed_ok known enough) (Cursor.onward_forward room.within enough)
    rw [fixed, read]
    show (value scalar >>= _) cursor = _
    rw [bind_of_run single, pattern]
    rfl

theorem targets_follows (base count : Nat) (room : cursor.Roomy) :
    Follows (targets base count) (Checked.targets base count) cursor := by
  induction count generalizing cursor with
  | zero => exact .pure _ room.within
  | succ count ih =>
    refine (value_follows .i32 room).bind ?_
    intro _ next _ onward
    exact (ih (onward.roomy room)).bind fun _ _ _ later => .pure _ later.within

/-- The case count has 32 bits, so that a word holds the size of any table. -/
theorem switch_follows (room : cursor.Roomy) : Follows switch Checked.switch cursor := by
  refine .get (.ite (fun _ => ?_) (fun counted => ?_))
  · exact (skipRest_follows room.within).bind fun _ _ _ onward => .pure _ onward.within
  · refine (value_follows .u32 room).bind ?_
    intro count entries run onward
    -- The size is computed before it is known whether the entries are there.
    have bound : count.pattern < 2 ^ 32 := Checked.pattern_lt_of_value run
    have size : (count.pattern * 4 : Int) = (4 * count.pattern : Nat) := by omega
    have roomEntries := onward.roomy room
    refine .word size (by omega) (.get (.ite (fun _ => ?_) (fun enough => ?_)))
    · refine (skipRest_follows onward.within).bind ?_
      intro _ finish _ later
      have forward := onward.forward.trans later.forward
      exact .get (.taken forward (later.roomy roomEntries) (.pure _ later.within))
    · have base : (entries.position + (4 * count.pattern : Nat) : Int) =
          (entries.position + 4 * count.pattern : Nat) := by omega
      have within := roomEntries.within
      have short := roomEntries.short
      rw [Cursor.remaining] at enough
      refine .word base (by omega) ((targets_follows _ _ roomEntries).bind ?_)
      intro _ finish _ later
      have forward := onward.forward.trans later.forward
      exact .get (.taken forward (later.roomy roomEntries) (.pure _ later.within))

/-- In words of 64 bits an operand is read as it is without a bound. -/
theorem operand_follows (backend : Backend) (kind : OperandKind) (room : cursor.Roomy) :
    Follows (operand backend kind) (Checked.operand backend kind) cursor := by
  refine .get ?_
  cases known : kind.width? with
  | none => exact switch_follows room
  | some width =>
    refine .ite (fun _ => ?_) (fun enough => ?_)
    · exact (skipRest_follows room.within).bind fun _ _ _ onward => .pure _ onward.within
    · refine (fixed_follows backend room known (Nat.not_lt.mp enough)).bind ?_
      intro _ finish _ onward
      exact .get (.taken onward.forward (onward.roomy room) (.pure _ onward.within))

theorem operand_ok (backend : Backend) (kind : OperandKind) (room : cursor.Roomy) :
    operand backend kind cursor = .ok (cursor.operand backend kind).value := by
  rw [(operand_follows backend kind room).same, Checked.operand_ok backend kind room.within]
  rfl

end Sized

namespace Operand

variable {operand : Operand} {kind : OperandKind}

theorem isToken_of_kind? {hint : OperandKind} {value : Token} (fits : (token hint value).kind? = some kind) :
    kind.isToken = true := by
  rw [kind?] at fits
  split at fits
  · next named =>
    cases fits
    exact named
  · cases fits

theorem text_eq_none_iff (fits : operand.kind? = some kind) (backend : Backend) (next : Nat) :
    (operand.text backend next).value = none ↔ kind = .none := by
  cases operand with
  | cut | cutCount | cutTable => cases fits
  | token hint value =>
    have named := isToken_of_kind? fits
    have other : kind ≠ .none := by
      rintro rfl
      cases named
    simp [text, Traced.map, other]
  | _ => cases fits; simp [text]

theorem token?_eq_none_iff (fits : operand.kind? = some kind) :
    operand.token? = none ↔ kind.isToken = false := by
  cases operand with
  | cut | cutCount | cutTable => cases fits
  | token hint value => simp [token?, isToken_of_kind? fits]
  | _ => cases fits; simp [token?, OperandKind.isToken]

end Operand

/-- Decoding an operand takes the bytes that its kind needs, or all that remain where there are fewer.
No read fails on the way, and every size fits a word of 64 bits, whatever case count a table has. -/
theorem operand_takes_need_or_rest (cursor : Cursor) (within : cursor.position ≤ cursor.length)
    (short : cursor.length < 2 ^ 63) (backend : Backend) (kind : OperandKind) :
    let operand := (cursor.operand backend kind).value.1
    let next := (cursor.operand backend kind).value.2
    Sized.operand backend kind cursor = .ok (operand, next) ∧
      next = cursor.forward operand.size ∧
      (kind.need cursor.rest ≤ cursor.remaining →
        operand.size = kind.need cursor.rest ∧ (operand.text = none ↔ kind = .none) ∧
          (operand.token = none ↔ kind.isToken = false)) ∧
      (cursor.remaining < kind.need cursor.rest →
        operand.size = cursor.remaining ∧ operand.text = none ∧ operand.token = none ∧
          next.position = cursor.length) := by
  intro operand next
  have length := cursor.remaining_eq
  refine ⟨Sized.operand_ok backend kind ⟨within, short⟩, rfl, ?_⟩
  cases Operand.reads_read kind cursor.rest with
  | complete fits width _ enough =>
    refine ⟨?_, by omega⟩
    intro _
    exact ⟨width, Operand.text_eq_none_iff fits backend _, Operand.token?_eq_none_iff fits⟩
  | cut isCut width lacking =>
    refine ⟨by omega, ?_⟩
    intro _
    have size : operand.size = cursor.remaining := width.trans length.symm
    refine ⟨size, Operand.text_of_isCut isCut backend _, Operand.token?_of_isCut isCut, ?_⟩
    show cursor.position + operand.size = cursor.length
    rw [size, Cursor.remaining]
    omega

/-- A switch with the greatest case count that there is and one byte behind it, and a switch with one
case that leads back before the table. -/
theorem operand_takes_need_or_rest_greatestCount :
    let backend := Symbols.empty.backend
    let hostile : Cursor := ⟨[0x45, 0xFF, 0xFF, 0xFF, 0xFF, 0x00], 1⟩
    let loop : Cursor := ⟨[0x45, 0x01, 0x00, 0x00, 0x00, 0xF7, 0xFF, 0xFF, 0xFF], 1⟩
    (hostile.position ≤ hostile.length ∧ hostile.length < 2 ^ 63 ∧
      hostile.remaining < OperandKind.need .switch hostile.rest ∧
      Sized.operand backend .switch hostile = .ok (⟨none, 5, none⟩, ⟨hostile.data, 6⟩)) ∧
    (loop.position ≤ loop.length ∧ loop.length < 2 ^ 63 ∧
      OperandKind.need .switch loop.rest ≤ loop.remaining ∧
      Sized.operand backend .switch loop = .ok (⟨some "(IL_0000)", 8, none⟩, ⟨loop.data, 9⟩)) := by
  intro backend hostile loop
  have cut : (hostile.operand backend .switch).value = (⟨none, 5, none⟩, ⟨hostile.data, 6⟩) := by
    decide +kernel
  have table : (loop.operand backend .switch).value = (⟨some "(IL_0000)", 8, none⟩, ⟨loop.data, 9⟩) := by
    decide +kernel
  have hostileRun := (operand_takes_need_or_rest hostile (by decide) (by decide) backend .switch).1
  have loopRun := (operand_takes_need_or_rest loop (by decide) (by decide) backend .switch).1
  rw [cut] at hostileRun
  rw [table] at loopRun
  exact ⟨⟨by decide, by decide, by decide, hostileRun⟩, by decide, by decide, by decide, loopRun⟩

end CilListing
