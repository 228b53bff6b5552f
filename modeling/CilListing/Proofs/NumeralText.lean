import CilListing.Number.Numeral
import CilListing.Number.Shortest
import CilListing.Text.Hex
import Mathlib.Data.List.TakeWhile
import Mathlib.Data.Nat.Digits.Defs
import Mathlib.Tactic.IntervalCases
import Mathlib.Tactic.Ring

namespace CilListing

section Hexadecimal

/-- The number that hexadecimal digits stand for. -/
def hexValue (chars : List Char) : Nat :=
  chars.foldl (fun value char => 16 * value + (digitValue? 16 char).getD 0) 0

theorem digitValue?_toUpper {digit : Nat} (small : digit < 16) :
    digitValue? 16 digit.digitChar.toUpper = some digit := by
  interval_cases digit <;> decide

theorem hexValue_concat (chars : List Char) (char : Char) :
    hexValue (chars ++ [char]) = 16 * hexValue chars + (digitValue? 16 char).getD 0 := by
  rw [hexValue, List.foldl_append]
  rfl

theorem hexValue_toDigits (n : Nat) : hexValue ((Nat.toDigits 16 n).map Char.toUpper) = n := by
  induction n using Nat.strongRecOn with
  | _ n ih =>
    rw [Nat.toDigits_eq_if (by decide)]
    split
    · next small =>
      show 16 * 0 + (digitValue? 16 n.digitChar.toUpper).getD 0 = n
      rw [digitValue?_toUpper small, Option.getD_some, Nat.zero_add]
    · have digit : n % 16 < 16 := Nat.mod_lt n (by decide)
      rw [List.map_append, List.map_singleton, hexValue_concat, ih (n / 16) (by omega),
        digitValue?_toUpper digit, Option.getD_some]
      omega

theorem hexValue_leftpad (width : Nat) (chars : List Char) :
    hexValue (chars.leftpad width '0') = hexValue chars := by
  have zeros (count : Nat) : hexValue (List.replicate count '0' ++ chars) = hexValue chars := by
    induction count with
    | zero => rfl
    | succ count ih =>
      rw [List.replicate_succ, List.cons_append, hexValue, List.foldl_cons]
      exact ih
  exact zeros _

/-- A number is read back from its digits, however many zeros stand in front. -/
theorem hexValue_hexUpper (width n : Nat) : hexValue (hexUpper width n).toList = n := by
  rw [hexUpper_toList, hexValue_leftpad, hexValue_toDigits]

theorem hexUpper_injective {width first second : Nat}
    (same : (hexUpper width first).toList = (hexUpper width second).toList) : first = second := by
  rw [← hexValue_hexUpper width first, same, hexValue_hexUpper]

theorem exists_digit_of_mem_toDigits {n : Nat} {char : Char} (member : char ∈ Nat.toDigits 16 n) :
    ∃ digit < 16, char = digit.digitChar := by
  induction n using Nat.strongRecOn with
  | _ n ih =>
    rw [Nat.toDigits_eq_if (by decide)] at member
    split at member
    · next small => exact ⟨n, small, List.mem_singleton.mp member⟩
    · rw [List.mem_append, List.mem_singleton] at member
      rcases member with before | last
      · exact ih (n / 16) (by omega) before
      · exact ⟨n % 16, Nat.mod_lt n (by decide), last⟩

theorem isHex_of_mem_toDigits {n : Nat} {char : Char}
    (member : char ∈ (Nat.toDigits 16 n).map Char.toUpper) : (digitValue? 16 char).isSome = true := by
  obtain ⟨lower, inside, rfl⟩ := List.mem_map.mp member
  obtain ⟨digit, small, rfl⟩ := exists_digit_of_mem_toDigits inside
  rw [digitValue?_toUpper small]
  rfl

/-- Nothing but digits stands in a hexadecimal numeral. -/
theorem notMem_hexUpper {char : Char} (other : digitValue? 16 char = none) (width n : Nat) :
    char ∉ (hexUpper width n).toList := by
  rw [hexUpper_toList, List.leftpad, List.mem_append]
  rintro (zero | digit)
  · rw [List.eq_of_mem_replicate zero] at other
    cases other
  · have isHex := isHex_of_mem_toDigits digit
    rw [other] at isHex
    cases isHex

def upperDigits : List Char :=
  ['0', '1', '2', '3', '4', '5', '6', '7', '8', '9', 'A', 'B', 'C', 'D', 'E', 'F']

theorem toUpper_digitChar_mem {digit : Nat} (small : digit < 16) :
    digit.digitChar.toUpper ∈ upperDigits := by
  interval_cases digit <;> decide

theorem mem_upperDigits_of_mem_hexUpper {width n : Nat} {char : Char}
    (member : char ∈ (hexUpper width n).toList) : char ∈ upperDigits := by
  rw [hexUpper_toList, List.leftpad, List.mem_append] at member
  rcases member with zero | upper
  · rw [List.eq_of_mem_replicate zero]
    decide
  · obtain ⟨lower, inside, rfl⟩ := List.mem_map.mp upper
    obtain ⟨digit, small, rfl⟩ := exists_digit_of_mem_toDigits inside
    exact toUpper_digitChar_mem small

/-- A number that needs no more digits than the width has exactly as many. -/
theorem length_hexUpper {width n : Nat} (positive : 0 < width) (fits : n < 16 ^ width) :
    (hexUpper width n).toList.length = width := by
  have digits := Nat.toDigits_length 16 n width positive fits
  rw [hexUpper_toList, List.length_leftpad, List.length_map]
  omega

end Hexadecimal

namespace Decimal

/-- The ratio that digits with a point among them stand for. -/
def ratioOfText (chars : List Char) : Nat × Nat :=
  let whole := chars.takeWhile (· != '.')
  let fraction := (chars.dropWhile (· != '.')).drop 1
  (Nat.ofDigitChars 10 (whole ++ fraction) 0, 10 ^ fraction.length)

section

variable {char : Char}

theorem notMem_toDigits (noDigit : char.isDigit = false) (n : Nat) : char ∉ Nat.toDigits 10 n := by
  intro member
  rw [Nat.isDigit_of_mem_toDigits (by decide) (by decide) member] at noDigit
  cases noDigit

theorem notMem_zeros (noDigit : char.isDigit = false) (count : Nat) : char ∉ List.replicate count '0' := by
  intro member
  rw [List.eq_of_mem_replicate member] at noDigit
  cases noDigit

theorem notMem_leftpad (noDigit : char.isDigit = false) (width n : Nat) :
    char ∉ (Nat.toDigits 10 n).leftpad width '0' := by
  rw [List.leftpad, List.mem_append, not_or]
  exact ⟨notMem_zeros noDigit _, notMem_toDigits noDigit n⟩

end

theorem ofDigitChars_leftpad (width : Nat) (n : Nat) :
    Nat.ofDigitChars 10 ((Nat.toDigits 10 n).leftpad width '0') 0 = n := by
  rw [List.leftpad, Nat.ofDigitChars_append, Nat.ofDigitChars_replicate_zero, Nat.mul_zero,
    Nat.ofDigitChars_ten_toDigits]

theorem ratioOfText_of_whole {chars : List Char} (pointless : '.' ∉ chars) :
    ratioOfText chars = (Nat.ofDigitChars 10 chars 0, 1) := by
  have each : ∀ char ∈ chars, (char != '.') = true := by
    intro char member
    rw [bne_iff_ne]
    exact fun point => pointless (point ▸ member)
  simp only [ratioOfText, List.takeWhile_eq_self_iff.mpr each, List.dropWhile_eq_nil_iff.mpr each,
    List.drop_nil, List.append_nil, List.length_nil, Nat.pow_zero]

theorem ratioOfText_of_point {whole : List Char} (pointless : '.' ∉ whole) (fraction : List Char) :
    ratioOfText (whole ++ '.' :: fraction) =
      (Nat.ofDigitChars 10 (whole ++ fraction) 0, 10 ^ fraction.length) := by
  have each : ∀ char ∈ whole, (char != '.') = true := by
    intro char member
    rw [bne_iff_ne]
    exact fun point => pointless (point ▸ member)
  have front : (whole ++ '.' :: fraction).takeWhile (· != '.') = whole := by
    rw [List.takeWhile_append_of_pos each, List.takeWhile_cons_of_neg (by decide), List.append_nil]
  have back : (whole ++ '.' :: fraction).dropWhile (· != '.') = '.' :: fraction := by
    rw [List.dropWhile_append_of_pos each, List.dropWhile_cons_of_neg (by decide)]
  rw [ratioOfText, front, back]
  rfl

/-- A decimal is read back from its text as the ratio that it stands for. -/
theorem ratioOfText_plain (decimal : Decimal) : ratioOfText decimal.plain.toList = decimal.ratio := by
  rw [plain, ratio]
  dsimp only
  split
  · next integral =>
    have pointless : '.' ∉ Nat.toDigits 10 decimal.digits ++ List.replicate decimal.exponent.toNat '0' := by
      rw [List.mem_append, not_or]
      exact ⟨notMem_toDigits rfl _, notMem_zeros rfl _⟩
    rw [String.toList_ofList, ratioOfText_of_whole pointless, Nat.ofDigitChars_append,
      Nat.ofDigitChars_ten_toDigits, Nat.ofDigitChars_replicate_zero, integral, Nat.mul_comm]
    rfl
  · next fractional =>
    have negative : decimal.exponent.toNat = 0 := by omega
    generalize padded : (Nat.toDigits 10 decimal.digits).leftpad ((-decimal.exponent).toNat + 1) '0' = chars
    have length : (-decimal.exponent).toNat ≤ chars.length := by
      rw [← padded, List.length_leftpad]
      omega
    have pointless : '.' ∉ chars.take (chars.length - (-decimal.exponent).toNat) := by
      intro member
      rw [← padded] at member
      exact notMem_leftpad rfl _ _ (List.mem_of_mem_take member)
    have value : Nat.ofDigitChars 10 chars 0 = decimal.digits := by
      rw [← padded, ofDigitChars_leftpad]
    have places : (chars.drop (chars.length - (-decimal.exponent).toNat)).length =
        (-decimal.exponent).toNat := by
      rw [List.length_drop]
      omega
    rw [String.toList_ofList, ratioOfText_of_point pointless, List.take_append_drop, value, places, negative]
    exact congrArg (·, _) (Nat.mul_one _).symm

/-- Nothing but digits and the point stands in a decimal. -/
theorem notMem_plain {char : Char} (noDigit : char.isDigit = false) (noPoint : char ≠ '.')
    (decimal : Decimal) : char ∉ decimal.plain.toList := by
  rw [plain]
  dsimp only
  split
  · rw [String.toList_ofList, List.mem_append, not_or]
    exact ⟨notMem_toDigits noDigit _, notMem_zeros noDigit _⟩
  · rw [String.toList_ofList, List.mem_append, List.mem_cons]
    rintro (whole | point | fraction)
    · exact notMem_leftpad noDigit _ _ (List.mem_of_mem_take whole)
    · exact noPoint point
    · exact notMem_leftpad noDigit _ _ (List.mem_of_mem_drop fraction)

end Decimal

end CilListing
