import CilListing.Cursor
import CilListing.Metadata.Symbols
import CilListing.Proofs.OperandText
import CilListing.Proofs.ShortestDecimal

namespace CilListing

section PlainText

/-- The digits of a whole number, without zeros in front. -/
structure IsWhole (chars : List Char) : Prop where
  nonempty : chars ≠ []
  digits : ∀ char ∈ chars, char.isDigit = true
  leading : chars.head? = some '0' → chars = ['0']

/-- A decimal without an exponent. Where there is a point, digits follow, of which the last is not
zero. -/
inductive PlainDecimal : List Char → Prop
  | whole {digits : List Char} (isWhole : IsWhole digits) : PlainDecimal digits
  | fractional {whole fraction : List Char} (isWhole : IsWhole whole) (nonempty : fraction ≠ [])
      (digits : ∀ char ∈ fraction, char.isDigit = true) (last : fraction.getLast? ≠ some '0') :
      PlainDecimal (whole ++ '.' :: fraction)

theorem toDigits_ne_nil (n : Nat) : Nat.toDigits 10 n ≠ [] :=
  List.ne_nil_of_length_pos Nat.length_toDigits_pos

theorem head?_toDigits {n : Nat} (positive : 0 < n) : (Nat.toDigits 10 n).head? ≠ some '0' := by
  induction n using Nat.strongRecOn with
  | _ n ih =>
    rw [Nat.toDigits_eq_if (by decide)]
    split
    · next small => interval_cases n <;> decide
    · have shorter := ih (n / 10) (by omega) (by omega)
      rw [List.head?_append_of_ne_nil _ (toDigits_ne_nil _)]
      exact shorter

theorem getLast?_toDigits {n : Nat} (nonzero : n % 10 ≠ 0) : (Nat.toDigits 10 n).getLast? ≠ some '0' := by
  have last : (Nat.toDigits 10 n).getLast? = some (n % 10).digitChar := by
    rw [Nat.toDigits_eq_if (by decide)]
    split
    · next small => rw [Nat.mod_eq_of_lt small, List.getLast?_singleton]
    · exact List.getLast?_concat
  have small : n % 10 < 10 := Nat.mod_lt n (by decide)
  rw [last]
  generalize n % 10 = digit at *
  interval_cases digit <;> first | contradiction | decide

theorem isDigit_of_mem_leftpad {width n : Nat} {char : Char}
    (member : char ∈ (Nat.toDigits 10 n).leftpad width '0') : char.isDigit = true := by
  rw [List.leftpad, List.mem_append] at member
  rcases member with zero | digit
  · rw [List.eq_of_mem_replicate zero]
    rfl
  · exact Nat.isDigit_of_mem_toDigits (by decide) (by decide) digit

/-- Behind the padding one place is left in front of the point, or the digits have no padding. -/
theorem isWhole_take_leftpad {n places : Nat} (positive : 0 < n) :
    let padded := (Nat.toDigits 10 n).leftpad (places + 1) '0'
    IsWhole (padded.take (padded.length - places)) := by
  intro padded
  have some : 0 < (Nat.toDigits 10 n).length := Nat.length_toDigits_pos
  have length : padded.length = max (places + 1) (Nat.toDigits 10 n).length := List.length_leftpad ..
  refine ⟨fun empty => ?_, fun char member => ?_, fun zero => ?_⟩
  · have none := congrArg List.length empty
    rw [List.length_take, List.length_nil] at none
    omega
  · exact isDigit_of_mem_leftpad (List.mem_of_mem_take member)
  · by_cases short : (Nat.toDigits 10 n).length ≤ places
    · have one : padded.length - places = 1 := by omega
      rw [one, List.head?_take, if_neg (by decide)] at zero
      rw [one, List.take_one, zero]
      rfl
    · have unpadded : padded = Nat.toDigits 10 n := by
        have none : places + 1 - (Nat.toDigits 10 n).length = 0 := by omega
        show List.replicate (places + 1 - _) '0' ++ _ = _
        rw [none, List.replicate_zero, List.nil_append]
      rw [unpadded, List.head?_take, if_neg (by omega)] at zero
      exact absurd zero (head?_toDigits positive)

/-- A decimal whose last digit is not zero is written without zeros behind its fraction. -/
theorem plainDecimal_plain {decimal : Decimal} (positive : 0 < decimal.digits)
    (nonzero : decimal.digits % 10 ≠ 0) : PlainDecimal decimal.plain.toList := by
  have some := toDigits_ne_nil decimal.digits
  rw [Decimal.plain]
  dsimp only
  split
  · rw [String.toList_ofList]
    refine .whole ⟨List.append_ne_nil_of_left_ne_nil some _, fun char member => ?_, fun zero => ?_⟩
    · rcases List.mem_append.mp member with digit | zero
      · exact Nat.isDigit_of_mem_toDigits (by decide) (by decide) digit
      · rw [List.eq_of_mem_replicate zero]
        rfl
    · rw [List.head?_append_of_ne_nil _ some] at zero
      exact absurd zero (head?_toDigits positive)
  · next fractional =>
    have length : (-decimal.exponent).toNat < ((Nat.toDigits 10 decimal.digits).leftpad
        ((-decimal.exponent).toNat + 1) '0').length := by
      rw [List.length_leftpad]
      omega
    rw [String.toList_ofList]
    refine .fractional (isWhole_take_leftpad positive) (fun empty => ?_) (fun char member => ?_) ?_
    · rw [List.drop_eq_nil_iff] at empty
      omega
    · exact isDigit_of_mem_leftpad (List.mem_of_mem_drop member)
    · rw [List.getLast?_drop, if_neg (by omega), List.leftpad, List.getLast?_append_of_ne_nil _ some]
      exact getLast?_toDigits nonzero

/-- The number that digits with a point among them stand for. -/
def textValue (chars : List Char) : ℚ := (Decimal.ratioOfText chars).1 / (Decimal.ratioOfText chars).2

theorem textValue_plain (decimal : Decimal) : textValue decimal.plain.toList = decimal.value := by
  rw [textValue, Decimal.ratioOfText_plain, Decimal.value_eq]

end PlainText

namespace BinaryFormat

variable {format : BinaryFormat}

/-- The minus sign of a pattern whose first bit is set. -/
def sign (format : BinaryFormat) (bits : Nat) : String :=
  if bits.testBit (format.fractionBits + format.exponentBits) then "-" else ""

/-- A text shows bits: a finite number by its sign and the shortest decimal that is rounded to it, the
two infinities by their sign, and all that is no number by one name. -/
structure Shows (format : BinaryFormat) (bits : Nat) (text : String) : Prop where
  noNumber : format.infinity < bits % format.signBit → text = "NaN"
  infinite : bits % format.signBit = format.infinity → text = format.sign bits ++ "inf"
  finite : bits % format.signBit < format.infinity → ∃ magnitude : String,
    text = format.sign bits ++ magnitude ∧ PlainDecimal magnitude.toList ∧
      ∃ count, format.IsShortest (bits % format.signBit) count (textValue magnitude.toList)

theorem infinity_pos (wide : 2 ≤ format.exponentBits) : 0 < format.infinity := by
  have power : 2 ^ 1 < 2 ^ format.exponentBits := Nat.pow_lt_pow_right (by decide) wide
  exact Nat.mul_pos (Nat.sub_pos_of_lt (Nat.lt_of_succ_lt power)) format.fractions_pos

theorem isShortest_zero (wide : 2 ≤ format.exponentBits) : format.IsShortest 0 0 0 := by
  have zero := value_zero wide
  have least := value_strictMono wide Nat.zero_lt_one
  refine ⟨.of_lower_half wide (infinity_pos wide) zero.le (by linarith) fun _ => rfl,
    ⟨⟨0, 0⟩, Nat.one_pos, ?_⟩, fun fewer _ _ _ => Nat.zero_le fewer, fun other _ _ => ?_⟩
  · rw [Decimal.value, Nat.cast_zero, zero_mul]
  · rw [zero, sub_zero, abs_zero]
    exact abs_nonneg _

theorem magnitudeText_shortest (ordinary : format.Ordinary) {pattern : Nat}
    (finite : pattern < format.infinity) : PlainDecimal (format.magnitudeText pattern).toList ∧
      ∃ count, format.IsShortest pattern count (textValue (format.magnitudeText pattern).toList) := by
  by_cases zero : pattern = 0
  · have text : (format.magnitudeText pattern).toList = ['0'] := by
      rw [magnitudeText, if_pos zero]
      rfl
    have ratio : Decimal.ratioOfText ['0'] = (0, 1) := by decide
    rw [text, textValue, ratio, Nat.cast_zero, zero_div, zero]
    refine ⟨.whole ⟨by decide, fun char member => ?_, fun _ => rfl⟩, 0, isShortest_zero ordinary.wide⟩
    rw [List.mem_singleton.mp member]
    rfl
  · have positive := Nat.pos_of_ne_zero zero
    obtain ⟨steps, stops⟩ := exists_stopsAt ordinary .upper positive finite.le
    rw [magnitudeText, if_neg zero, if_pos finite, textValue_plain]
    exact ⟨plainDecimal_plain (stops.digits_pos ordinary.wide positive)
      (stops.digits_mod_ten ordinary.wide positive), _, stops.isShortest positive ordinary finite⟩

/-- The first bit is the one that the patterns without a sign do not reach. -/
theorem sign_eq {bits : Nat} (inRange : bits < 2 * format.signBit) :
    format.sign bits = if bits < format.signBit then "" else "-" := by
  have power : format.signBit = 2 ^ (format.fractionBits + format.exponentBits) := rfl
  rw [sign, power]
  by_cases unsigned : bits < 2 ^ (format.fractionBits + format.exponentBits)
  · rw [Nat.testBit_lt_two_pow unsigned, if_pos unsigned]
    rfl
  · have set : bits.testBit (format.fractionBits + format.exponentBits) = true := by
      have first : bits / 2 ^ (format.fractionBits + format.exponentBits) = 1 := by
        rw [← power] at unsigned ⊢
        rw [Nat.div_eq_iff (by omega)]
        omega
      rw [Nat.testBit_eq_decide_div_mod_eq, first]
      rfl
    rw [set, if_neg unsigned]
    rfl

theorem text_eq_sign_append {bits : Nat} (inRange : bits < 2 * format.signBit)
    (number : bits % format.signBit ≤ format.infinity) :
    format.text bits = format.sign bits ++ format.magnitudeText (bits % format.signBit) := by
  rw [text, if_neg (Nat.not_lt.mpr number), sign_eq inRange]
  split
  · exact (String.empty_append ..).symm
  · rfl

theorem shows_text (ordinary : format.Ordinary) {bits : Nat} (inRange : bits < 2 * format.signBit) :
    format.Shows bits (format.text bits) := by
  have some : format.infinity ≠ 0 := (infinity_pos ordinary.wide).ne'
  refine ⟨fun noNumber => if_pos noNumber, fun infinite => ?_, fun finite => ?_⟩
  · rw [text_eq_sign_append inRange infinite.le, magnitudeText, infinite, if_neg some,
      if_neg (Nat.lt_irrefl _)]
  · exact ⟨_, text_eq_sign_append inRange finite.le, magnitudeText_shortest ordinary finite⟩

/-- The name of what is no number has a letter that stands in no number. -/
theorem isNaN_of_text {first second : Nat} (same : format.text first = format.text second)
    (noNumber : format.isNaN first = true) : format.isNaN second = true := by
  by_contra number
  rw [Bool.not_eq_true] at number
  have name : format.text first = "NaN" := if_pos (of_decide_eq_true noNumber)
  have letter : 'N' ∈ (format.text second).toList := by
    rw [← same, name]
    decide
  have missing : 'N' ∉ (format.magnitudeText (second % format.signBit)).toList :=
    format.notMem_magnitudeText rfl (by decide) _
  rw [text, if_neg (Nat.not_lt.mpr (le_infinity number))] at letter
  split at letter
  · exact missing letter
  · rw [String.toList_append, List.mem_append] at letter
    rcases letter with sign | digit
    · exact absurd sign (by decide)
    · exact missing digit

theorem text_told_apart {first second : Nat} (firstRange : first < 2 * format.signBit)
    (secondRange : second < 2 * format.signBit) (same : format.text first = format.text second) :
    first = second ∨ format.isNaN first = true ∧ format.isNaN second = true := by
  cases firstNumber : format.isNaN first with
  | true => exact Or.inr ⟨rfl, isNaN_of_text same firstNumber⟩
  | false =>
    cases secondNumber : format.isNaN second with
    | true => exact absurd (isNaN_of_text same.symm secondNumber) (by rw [firstNumber]; decide)
    | false =>
      exact Or.inl (format.text_injective firstRange secondRange (le_infinity firstNumber)
        (le_infinity secondNumber) same)

end BinaryFormat

section Constants

/-- The bytes of a number of the given width come next, the lowest first. -/
def Cursor.StandsAt (cursor : Cursor) (width number : Nat) : Prop :=
  number < 256 ^ width ∧ ∃ rest, cursor.rest = toLittleEndian width number ++ rest

/-- Constants of a kind are shown as numbers of a format, wherever they stand and whatever the backend,
and only those that are no numbers share a text. -/
structure BinaryFormat.ShowsConstants (format : BinaryFormat) (kind : OperandKind) (width : Nat) : Prop where
  shown : ∀ (backend : Backend) (cursor : Cursor) (bits : Nat), cursor.StandsAt width bits →
    ∃ text, (cursor.operand backend kind).value.1.text = some text ∧ format.Shows bits text
  told_apart : ∀ (firstBackend secondBackend : Backend) (first second : Cursor)
    (firstBits secondBits : Nat), first.StandsAt width firstBits → second.StandsAt width secondBits →
    (first.operand firstBackend kind).value.1.text = (second.operand secondBackend kind).value.1.text →
    firstBits = secondBits ∨ format.isNaN firstBits = true ∧ format.isNaN secondBits = true

theorem BinaryFormat.ShowsConstants.shows_of_text {format : BinaryFormat} {kind : OperandKind}
    {width : Nat} (shows : format.ShowsConstants kind width) {backend : Backend} {cursor : Cursor}
    {bits : Nat} {text : String} (stands : cursor.StandsAt width bits)
    (same : (cursor.operand backend kind).value.1.text = some text) : format.Shows bits text := by
  obtain ⟨shown, isText, shownRight⟩ := shows.shown backend cursor bits stands
  obtain rfl : shown = text := Option.some.inj (isText.symm.trans same)
  exact shownRight

theorem BinaryFormat.showsConstants_of_text {format : BinaryFormat} (ordinary : format.Ordinary)
    {kind : OperandKind} {width : Nat} (fits : 256 ^ width = 2 * format.signBit)
    (texts : ∀ (backend : Backend) (cursor : Cursor) (bits : Nat), cursor.StandsAt width bits →
      (cursor.operand backend kind).value.1.text = some (format.text bits)) :
    format.ShowsConstants kind width := by
  constructor
  case shown =>
    intro backend cursor bits stands
    exact ⟨_, texts backend cursor bits stands, shows_text ordinary (fits ▸ stands.1)⟩
  case told_apart =>
    intro firstBackend secondBackend first second firstBits secondBits firstStands secondStands same
    rw [texts firstBackend first firstBits firstStands,
      texts secondBackend second secondBits secondStands] at same
    exact text_told_apart (fits ▸ firstStands.1) (fits ▸ secondStands.1) (Option.some.inj same)

theorem operand_text_of_standsAt (backend : Backend) {cursor : Cursor} {kind : OperandKind}
    {width number : Nat} (known : kind.width? = some width) (stands : cursor.StandsAt width number) :
    (cursor.operand backend kind).value.1.text = ((Operand.ofPattern kind number).text backend
      (cursor.position + (Operand.ofPattern kind number).width)).value := by
  obtain ⟨inRange, rest, bytes⟩ := stands
  have length := length_toLittleEndian width number
  have enough : width ≤ cursor.rest.length := by
    rw [bytes, List.length_append]
    omega
  have read : Operand.read kind cursor.rest = Operand.ofPattern kind number := by
    rw [Operand.read_of_enough known enough, bytes, List.take_left' length,
      littleEndian_toLittleEndian_of_lt inRange]
  rw [Cursor.operand, read]
  rfl

theorem single_text (backend : Backend) (cursor : Cursor) (bits : Nat) (stands : cursor.StandsAt 4 bits) :
    (cursor.operand backend .constFloat32).value.1.text = some (BinaryFormat.single.text bits) := by
  have word : (UInt32.ofNat bits).toNat = bits := UInt32.toNat_ofNat_of_lt' stands.1
  rw [operand_text_of_standsAt backend rfl stands, Operand.ofPattern, Operand.text, word]

theorem double_text (backend : Backend) (cursor : Cursor) (bits : Nat) (stands : cursor.StandsAt 8 bits) :
    (cursor.operand backend .constFloat64).value.1.text = some (BinaryFormat.double.text bits) := by
  have word : (UInt64.ofNat bits).toNat = bits := UInt64.toNat_ofNat_of_lt' stands.1
  rw [operand_text_of_standsAt backend rfl stands, Operand.ofPattern, Operand.text, word]

/-- Constants of both widths are shown by the shortest decimals that tell them apart at their width. -/
theorem constants_shown_shortest :
    BinaryFormat.single.ShowsConstants .constFloat32 4 ∧ BinaryFormat.double.ShowsConstants .constFloat64 8 :=
  ⟨BinaryFormat.showsConstants_of_text BinaryFormat.single_ordinary (by decide) single_text,
    BinaryFormat.showsConstants_of_text BinaryFormat.double_ordinary (by decide) double_text⟩

/-- A tenth is shown as one at either width, though neither holds it exactly. -/
theorem constants_shown_shortest_tenth :
    let code : List UInt8 :=
      [0x22, 0xCD, 0xCC, 0xCC, 0x3D, 0x23, 0x9A, 0x99, 0x99, 0x99, 0x99, 0x99, 0xB9, 0x3F]
    let single : Cursor := ⟨code, 1⟩
    let double : Cursor := ⟨code, 6⟩
    single.StandsAt 4 0x3DCCCCCD ∧ double.StandsAt 8 0x3FB999999999999A ∧
      (single.operand Symbols.empty.backend .constFloat32).value.1.text = some "0.1" ∧
      (double.operand Symbols.empty.backend .constFloat64).value.1.text = some "0.1" ∧
      BinaryFormat.single.Shows 0x3DCCCCCD "0.1" ∧ BinaryFormat.double.Shows 0x3FB999999999999A "0.1" := by
  intro code single double
  have singleStands : single.StandsAt 4 0x3DCCCCCD := ⟨by decide, _, rfl⟩
  have doubleStands : double.StandsAt 8 0x3FB999999999999A := ⟨by decide, [], rfl⟩
  have singleText : (single.operand Symbols.empty.backend .constFloat32).value.1.text = some "0.1" := by
    decide +kernel
  have doubleText : (double.operand Symbols.empty.backend .constFloat64).value.1.text = some "0.1" := by
    decide +kernel
  exact ⟨singleStands, doubleStands, singleText, doubleText,
    constants_shown_shortest.1.shows_of_text singleStands singleText,
    constants_shown_shortest.2.shows_of_text doubleStands doubleText⟩

end Constants

end CilListing
