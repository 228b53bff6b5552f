import CilListing.Proofs.NumeralText

namespace CilListing

namespace BinaryFormat

variable (format : BinaryFormat)

section Pattern

theorem fractions_pos : 0 < format.fractions := Nat.pow_pos (by decide)

theorem magnitude_of_lt {pattern : Nat} (subnormal : pattern < format.fractions) :
    format.magnitude pattern = pattern := if_pos subnormal

section Fraction

variable {fraction : Nat} (small : fraction < format.fractions) (exponent : Nat)

include small

theorem normal_mod : (exponent * format.fractions + fraction) % format.fractions = fraction := by
  rw [Nat.mul_add_mod_self_right, Nat.mod_eq_of_lt small]

theorem normal_div : (exponent * format.fractions + fraction) / format.fractions = exponent := by
  rw [Nat.add_comm, Nat.add_mul_div_right _ _ format.fractions_pos, Nat.div_eq_of_lt small, Nat.zero_add]

/-- A normal pattern by its exponent, counted from zero, and its fraction. -/
theorem magnitude_normal :
    format.magnitude ((exponent + 1) * format.fractions + fraction) =
      (format.fractions + fraction) * 2 ^ exponent := by
  have normal : ¬ (exponent + 1) * format.fractions + fraction < format.fractions := by
    rw [Nat.succ_mul]
    omega
  rw [magnitude, if_neg normal, normal_mod format small, normal_div format small, Nat.add_sub_cancel]
  rfl

end Fraction

/-- Every pattern is subnormal or has an exponent and a fraction. -/
theorem pattern_cases (pattern : Nat) : pattern < format.fractions ∨
    ∃ exponent fraction, fraction < format.fractions ∧
      pattern = (exponent + 1) * format.fractions + fraction := by
  have positive := format.fractions_pos
  by_cases subnormal : pattern < format.fractions
  · exact Or.inl subnormal
  · have whole : 1 ≤ pattern / format.fractions := (Nat.one_le_div_iff positive).mpr (by omega)
    refine Or.inr ⟨pattern / format.fractions - 1, pattern % format.fractions, Nat.mod_lt _ positive, ?_⟩
    rw [Nat.sub_add_cancel whole, Nat.mul_comm, Nat.div_add_mod]

/-- The distance from a pattern to the next one, counted in least positive numbers. -/
def gap (pattern : Nat) : Nat := 2 ^ (pattern / format.fractions - 1)

theorem gap_pos (pattern : Nat) : 0 < format.gap pattern := Nat.two_pow_pos _

theorem gap_of_lt {pattern : Nat} (subnormal : pattern < format.fractions) : format.gap pattern = 1 := by
  rw [gap, Nat.div_eq_of_lt subnormal, Nat.zero_sub, Nat.pow_zero]

theorem gap_normal {fraction : Nat} (small : fraction < format.fractions) (exponent : Nat) :
    format.gap ((exponent + 1) * format.fractions + fraction) = 2 ^ exponent := by
  rw [gap, normal_div format small, Nat.add_sub_cancel]

theorem magnitude_succ (pattern : Nat) :
    format.magnitude (pattern + 1) = format.magnitude pattern + format.gap pattern := by
  have positive := format.fractions_pos
  rcases format.pattern_cases pattern with subnormal | ⟨exponent, fraction, small, rfl⟩
  · rw [magnitude_of_lt format subnormal, gap_of_lt format subnormal]
    by_cases next : pattern + 1 < format.fractions
    · rw [magnitude_of_lt format next]
    · have least : pattern + 1 = (0 + 1) * format.fractions + 0 := by omega
      rw [least, magnitude_normal format positive, Nat.pow_zero]
      omega
  · rw [magnitude_normal format small, gap_normal format small]
    by_cases next : fraction + 1 < format.fractions
    · rw [Nat.add_assoc, magnitude_normal format next]
      ring
    · -- The fraction overflows into the exponent.
      have carry : (exponent + 1) * format.fractions + fraction + 1 =
          (exponent + 1 + 1) * format.fractions + 0 := by
        rw [Nat.succ_mul (exponent + 1)]
        omega
      have full : format.fractions = fraction + 1 := by omega
      rw [carry, magnitude_normal format positive, full]
      ring

theorem magnitude_lt_succ (pattern : Nat) : format.magnitude pattern < format.magnitude (pattern + 1) := by
  rw [magnitude_succ]
  exact Nat.lt_add_of_pos_right (format.gap_pos pattern)

theorem log2_magnitude_normal {fraction : Nat} (small : fraction < format.fractions) (exponent : Nat) :
    ((format.fractions + fraction) * 2 ^ exponent).log2 = format.fractionBits + exponent := by
  have positive := format.fractions_pos
  have power : 0 < 2 ^ exponent := Nat.pow_pos (by decide)
  have nonzero : (format.fractions + fraction) * 2 ^ exponent ≠ 0 := by
    have product := Nat.mul_pos (Nat.add_pos_left positive fraction) power
    omega
  have leading : format.fractions = 2 ^ format.fractionBits := rfl
  rw [Nat.log2_eq_iff nonzero, Nat.pow_succ, Nat.pow_add, ← leading, Nat.mul_assoc, Nat.mul_comm _ 2,
    ← Nat.mul_assoc]
  exact ⟨Nat.mul_le_mul_right _ (by omega), Nat.mul_lt_mul_of_pos_right (by omega) power⟩

/-- A pattern is found again from its magnitude. -/
theorem floorPattern_magnitude (pattern : Nat) : format.floorPattern (format.magnitude pattern) = pattern := by
  rcases format.pattern_cases pattern with subnormal | ⟨exponent, fraction, small, rfl⟩
  · have shift : pattern.log2 - format.fractionBits = 0 := by
      by_cases zero : pattern = 0
      · rw [zero, Nat.log2_zero, Nat.zero_sub]
      · have below : pattern.log2 < format.fractionBits := (Nat.log2_lt zero).mpr subnormal
        omega
    rw [magnitude_of_lt format subnormal, floorPattern, shift]
    show 0 * _ + pattern / 1 = pattern
    rw [Nat.zero_mul, Nat.zero_add, Nat.div_one]
  · have power : 0 < 2 ^ exponent := Nat.pow_pos (by decide)
    rw [magnitude_normal format small, floorPattern, log2_magnitude_normal format small,
      Nat.add_sub_cancel_left]
    show exponent * format.fractions + (format.fractions + fraction) * 2 ^ exponent / 2 ^ exponent = _
    rw [Nat.mul_div_cancel _ power, Nat.succ_mul, Nat.add_assoc]

/-- A number that a pattern has for its magnitude is rounded to the pattern. -/
theorem round_of_exact {numerator denominator pattern : Nat} (positive : 0 < denominator)
    (same : numerator * format.unit = format.magnitude pattern * denominator)
    (finite : pattern ≤ format.infinity) : format.round numerator denominator = pattern := by
  have below : format.floorPattern (numerator * format.unit / denominator) = pattern := by
    rw [same, Nat.mul_div_cancel _ positive, floorPattern_magnitude]
  have nearer : 2 * numerator * format.unit <
      denominator * (format.magnitude pattern + format.magnitude (pattern + 1)) := by
    have next := Nat.mul_lt_mul_of_pos_right (format.magnitude_lt_succ pattern) positive
    rw [Nat.mul_assoc, same, Nat.mul_comm denominator, Nat.add_mul]
    omega
  rw [round, below, Nat.compare_eq_lt.mpr nearer]
  exact Nat.min_eq_left finite

end Pattern

section Reading

/-- Only decimals that read back are taken. -/
theorem readsAs_of_decimalAt? {tie : Tie} {pattern : Nat} {exponent : Int} {decimal : Decimal}
    (found : format.decimalAt? tie pattern exponent = some decimal) :
    format.readsAs pattern decimal = true := by
  rw [decimalAt?] at found
  dsimp only at found
  split at found
  · next both =>
    rw [Bool.and_eq_true] at both
    split at found
    · cases found; exact both.1
    · split at found
      · cases found; exact both.1
      · cases found; exact both.2
    · cases found; exact both.2
  · split at found
    · next below => cases found; exact below
    · split at found
      · next above => cases found; exact above
      · cases found

theorem round_exactDecimal {pattern : Nat} (finite : pattern ≤ format.infinity) :
    format.round (format.exactDecimal pattern).ratio.1 (format.exactDecimal pattern).ratio.2 = pattern := by
  have whole : (-(format.unitLog : Int)).toNat = 0 := by omega
  have places : (- -(format.unitLog : Int)).toNat = format.unitLog := by omega
  rw [exactDecimal, Decimal.ratio, whole, places]
  refine round_of_exact format (Nat.pow_pos (by decide)) ?_ finite
  show format.magnitude pattern * 5 ^ format.unitLog * 1 * 2 ^ format.unitLog =
    format.magnitude pattern * (5 * 2) ^ format.unitLog
  rw [Nat.mul_one, Nat.mul_assoc, Nat.mul_pow]

/-- The shortest decimal reads back, be it found or written out in full. -/
theorem round_shortest {pattern : Nat} (tie : Tie) (finite : pattern ≤ format.infinity) :
    format.round (format.shortest tie pattern).ratio.1 (format.shortest tie pattern).ratio.2 = pattern := by
  rw [shortest]
  cases search : (List.range (format.fractionBits + 2)).findSome? fun (step : Nat) =>
      format.decimalAt? tie pattern (decimalPower (format.magnitude pattern) format.unit - step) with
  | none => exact format.round_exactDecimal finite
  | some decimal =>
    obtain ⟨step, _, found⟩ := List.exists_of_findSome?_eq_some search
    exact eq_of_beq (format.readsAs_of_decimalAt? found)

/-- The pattern that the text of a number without a sign stands for. -/
def patternOfText (chars : List Char) : Nat :=
  if chars = "inf".toList then format.infinity
  else format.round (Decimal.ratioOfText chars).1 (Decimal.ratioOfText chars).2

theorem patternOfText_plain (decimal : Decimal) :
    format.patternOfText decimal.plain.toList = format.round decimal.ratio.1 decimal.ratio.2 := by
  have number : decimal.plain.toList ≠ "inf".toList := by
    intro same
    have letter : 'i' ∈ decimal.plain.toList := by
      rw [same]
      decide
    exact Decimal.notMem_plain rfl (by decide) decimal letter
  rw [patternOfText, if_neg number, Decimal.ratioOfText_plain]

theorem patternOfText_magnitudeText {pattern : Nat} (number : pattern ≤ format.infinity) :
    format.patternOfText (format.magnitudeText pattern).toList = pattern := by
  rw [magnitudeText]
  split
  · next zero =>
    subst pattern
    have text : "0".toList = (Decimal.plain ⟨0, 0⟩).toList := by decide
    rw [text, patternOfText_plain]
    refine round_of_exact format Nat.one_pos ?_ number
    rw [magnitude_of_lt format format.fractions_pos]
    exact Nat.zero_mul _
  · split
    · rw [patternOfText_plain, round_shortest format .upper number]
    · rw [patternOfText, if_pos rfl]
      omega

/-- A magnitude is written in digits, a point and the letters of infinity. -/
theorem notMem_magnitudeText {char : Char} (noDigit : char.isDigit = false)
    (other : char ∉ ['.', 'i', 'n', 'f']) (pattern : Nat) :
    char ∉ (format.magnitudeText pattern).toList := by
  rw [magnitudeText]
  split
  · exact Decimal.notMem_zeros noDigit 1
  · split
    · exact Decimal.notMem_plain noDigit (List.ne_of_not_mem_cons other) _
    · exact List.not_mem_of_not_mem_cons other

/-- The bits that the text of a signed number stands for. -/
def bitsOfText : List Char → Nat
  | '-' :: chars => format.signBit + format.patternOfText chars
  | chars => format.patternOfText chars

theorem bitsOfText_of_unsigned {chars : List Char} (unsigned : '-' ∉ chars) :
    format.bitsOfText chars = format.patternOfText chars := by
  rw [bitsOfText]
  rintro rest rfl
  exact unsigned (List.mem_cons_self ..)

/-- A number is read back from its text, down to its last bit. -/
theorem bitsOfText_text {bits : Nat} (inRange : bits < 2 * format.signBit)
    (number : bits % format.signBit ≤ format.infinity) :
    format.bitsOfText (format.text bits).toList = bits := by
  have magnitude := format.patternOfText_magnitudeText number
  have unsigned : '-' ∉ (format.magnitudeText (bits % format.signBit)).toList :=
    format.notMem_magnitudeText rfl (by decide) _
  rw [text, if_neg (Nat.not_lt.mpr number)]
  split
  · next positive =>
    rw [bitsOfText_of_unsigned format unsigned, magnitude, Nat.mod_eq_of_lt positive]
  · next negative =>
    have wrapped : bits % format.signBit = bits - format.signBit := by
      rw [Nat.mod_eq_sub_mod (by omega), Nat.mod_eq_of_lt (by omega)]
    have sign : ("-" ++ format.magnitudeText (bits % format.signBit)).toList =
        '-' :: (format.magnitudeText (bits % format.signBit)).toList := String.toList_append ..
    rw [sign, bitsOfText, magnitude]
    omega

/-- Different numbers have different texts. -/
theorem text_injective {first second : Nat} (firstRange : first < 2 * format.signBit)
    (secondRange : second < 2 * format.signBit) (firstNumber : first % format.signBit ≤ format.infinity)
    (secondNumber : second % format.signBit ≤ format.infinity)
    (same : format.text first = format.text second) : first = second := by
  rw [← format.bitsOfText_text firstRange firstNumber, same, format.bitsOfText_text secondRange secondNumber]

end Reading

end BinaryFormat

end CilListing
