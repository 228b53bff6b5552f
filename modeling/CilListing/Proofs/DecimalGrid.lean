import CilListing.Proofs.FloatRounding

namespace CilListing

section Powers

theorem ten_zpow_pos (exponent : Int) : (0 : ℚ) < 10 ^ exponent := zpow_pos (by decide) exponent

/-- A power of ten as a quotient of whole numbers. -/
theorem ten_zpow_eq (exponent : Int) :
    (10 : ℚ) ^ exponent = ((10 ^ exponent.toNat : Nat) : ℚ) / (10 ^ (-exponent).toNat : Nat) := by
  obtain ⟨places, rfl | rfl⟩ := exponent.eq_nat_or_neg <;> simp

/-- Digits of one exponent are digits of every lower one, with zeros behind them. -/
theorem digits_mul_ten_zpow (digits : Nat) {lower upper : Int} {places : Nat}
    (apart : upper - lower = places) :
    (digits : ℚ) * 10 ^ upper = (digits * 10 ^ places : Nat) * 10 ^ lower := by
  have split : upper = (places : Int) + lower := by omega
  rw [split, zpow_add₀ (by decide), zpow_natCast, Nat.cast_mul, Nat.cast_pow, mul_assoc]
  rfl

theorem exists_length_toDigits {n : Nat} (positive : 0 < n) :
    ∃ places, (Nat.toDigits 10 n).length = places + 1 ∧ 10 ^ places ≤ n ∧ n < 10 ^ (places + 1) := by
  obtain ⟨places, length⟩ := Nat.exists_eq_succ_of_ne_zero (@Nat.length_toDigits_pos 10 n).ne'
  have bound (count : Nat) : places + 1 ≤ count + 1 ↔ n < 10 ^ (count + 1) := by
    rw [← Nat.length_toDigits_le_iff (by decide) count.succ_pos, length]
  refine ⟨places, length, ?_, (bound places).mp le_rfl⟩
  cases places with
  | zero => exact positive
  | succ fewer =>
    by_contra less
    have shorter := (bound fewer).mpr (not_le.mp less)
    omega

section Ratio

variable {numerator denominator : Nat}

theorem decimalPower_bounds_of_whole (positive : 0 < denominator) (whole : denominator ≤ numerator) :
    (10 : ℚ) ^ (decimalPower numerator denominator - 1) ≤ numerator / denominator ∧
      (numerator / denominator : ℚ) < 10 ^ decimalPower numerator denominator := by
  have parts : (0 : ℚ) < denominator := by exact_mod_cast positive
  obtain ⟨places, length, least, greatest⟩ := exists_length_toDigits (Nat.div_pos whole positive)
  have power : decimalPower numerator denominator = (places + 1 : Nat) := by
    rw [decimalPower, if_pos whole, length]
  have before : ((places + 1 : Nat) : Int) - 1 = (places : Nat) := by omega
  rw [Nat.le_div_iff_mul_le positive] at least
  rw [Nat.div_lt_iff_lt_mul positive] at greatest
  rw [power, before, zpow_natCast, zpow_natCast, le_div_iff₀ parts, div_lt_iff₀ parts]
  exact ⟨by exact_mod_cast least, by exact_mod_cast greatest⟩

/-- Below one, the places are those of the inverse, rounded up. -/
theorem decimalPower_bounds_of_fraction (above : 0 < numerator) (fraction : numerator < denominator) :
    (10 : ℚ) ^ (decimalPower numerator denominator - 1) ≤ numerator / denominator ∧
      (numerator / denominator : ℚ) < 10 ^ decimalPower numerator denominator := by
  have parts : (0 : ℚ) < denominator := by exact_mod_cast Nat.zero_lt_of_lt fraction
  have twice : 2 ≤ (denominator + numerator - 1) / numerator :=
    (Nat.le_div_iff_mul_le above).mpr (by omega)
  obtain ⟨places, length, least, greatest⟩ :=
    exists_length_toDigits (show 0 < (denominator + numerator - 1) / numerator - 1 by omega)
  have power : decimalPower numerator denominator = -(places : Nat) := by
    rw [decimalPower, if_neg (Nat.not_le.mpr fraction)]
    dsimp only
    omega
  have before : -((places : Nat) : Int) - 1 = -((places + 1 : Nat) : Int) := by omega
  have lower : denominator ≤ numerator * 10 ^ (places + 1) := by
    have bound : (denominator + numerator - 1) / numerator < 10 ^ (places + 1) + 1 := by omega
    rw [Nat.div_lt_iff_lt_mul above, Nat.succ_mul, Nat.mul_comm] at bound
    omega
  have upper : numerator * 10 ^ places < denominator := by
    have bound : 10 ^ places + 1 ≤ (denominator + numerator - 1) / numerator := by omega
    rw [Nat.le_div_iff_mul_le above, Nat.succ_mul, Nat.mul_comm] at bound
    omega
  rw [power, before, zpow_neg, zpow_neg, zpow_natCast, zpow_natCast, inv_eq_one_div, inv_eq_one_div,
    div_le_div_iff₀ (by positivity) parts, div_lt_div_iff₀ parts (by positivity), one_mul]
  exact ⟨by exact_mod_cast lower, by exact_mod_cast upper⟩

/-- The power of a number is the least power of ten above it. -/
theorem decimalPower_bounds (above : 0 < numerator) (positive : 0 < denominator) :
    (10 : ℚ) ^ (decimalPower numerator denominator - 1) ≤ numerator / denominator ∧
      (numerator / denominator : ℚ) < 10 ^ decimalPower numerator denominator := by
  rcases Nat.lt_or_ge numerator denominator with fraction | whole
  · exact decimalPower_bounds_of_fraction above fraction
  · exact decimalPower_bounds_of_whole positive whole

end Ratio

end Powers

namespace Decimal

/-- The number that a decimal stands for. -/
def value (decimal : Decimal) : ℚ := decimal.digits * 10 ^ decimal.exponent

theorem ratio_pos (decimal : Decimal) : 0 < decimal.ratio.2 := Nat.pow_pos (by decide)

theorem value_eq (decimal : Decimal) : decimal.value = decimal.ratio.1 / decimal.ratio.2 := by
  have numerator : decimal.ratio.1 = decimal.digits * 10 ^ decimal.exponent.toNat := rfl
  have denominator : decimal.ratio.2 = 10 ^ (-decimal.exponent).toNat := rfl
  rw [value, ten_zpow_eq, numerator, denominator, Nat.cast_mul, mul_div_assoc]

end Decimal

namespace BinaryFormat

variable {format : BinaryFormat}

/-- A decimal at some exponent reads back as the pattern, and no other at this exponent is nearer. It
is at most one digit above the exact number. -/
structure NearestAt (format : BinaryFormat) (pattern : Nat) (exponent : Int) (decimal : Decimal) : Prop where
  exponent_eq : decimal.exponent = exponent
  rounds : format.RoundsTo decimal.value pattern
  digits_le : ((decimal.digits : ℚ) - 1) * 10 ^ exponent ≤ format.value pattern
  nearest : ∀ digits : Nat, format.RoundsTo (digits * 10 ^ exponent) pattern →
    |decimal.value - format.value pattern| ≤ |digits * 10 ^ exponent - format.value pattern|

section Grid

variable {pattern : Nat} {exponent : Int} {floor : Nat} {share : ℚ} (least : 0 ≤ share) (most : share < 1)
  (split : format.value pattern = (floor + share) * 10 ^ exponent)

include split

section

include least

theorem abs_floor_sub : |floor * 10 ^ exponent - format.value pattern| = share * 10 ^ exponent := by
  have power := ten_zpow_pos exponent
  rw [split, ← sub_mul, abs_mul, abs_of_pos power, sub_add_cancel_left, abs_neg, abs_of_nonneg least]

theorem floor_of_roundsTo {digits : Nat} (rounds : format.RoundsTo (digits * 10 ^ exponent) pattern)
    (under : digits ≤ floor) : format.RoundsTo (floor * 10 ^ exponent) pattern ∧
      |floor * 10 ^ exponent - format.value pattern| ≤ |digits * 10 ^ exponent - format.value pattern| := by
  have power := ten_zpow_pos exponent
  have order : (digits : ℚ) ≤ floor := by exact_mod_cast under
  refine rounds.of_between (Or.inl ⟨mul_le_mul_of_nonneg_right order power.le, ?_⟩)
  rw [split]
  exact mul_le_mul_of_nonneg_right (le_add_of_nonneg_right least) power.le

end

section

include most

theorem abs_ceiling_sub :
    |(floor + 1 : Nat) * 10 ^ exponent - format.value pattern| = (1 - share) * 10 ^ exponent := by
  have power := ten_zpow_pos exponent
  rw [split, ← sub_mul, abs_mul, abs_of_pos power, Nat.cast_add, Nat.cast_one, add_sub_add_left_eq_sub,
    abs_of_pos (sub_pos.mpr most)]

theorem ceiling_of_roundsTo {digits : Nat} (rounds : format.RoundsTo (digits * 10 ^ exponent) pattern)
    (beyond : floor + 1 ≤ digits) : format.RoundsTo ((floor + 1 : Nat) * 10 ^ exponent) pattern ∧
      |(floor + 1 : Nat) * 10 ^ exponent - format.value pattern| ≤
        |digits * 10 ^ exponent - format.value pattern| := by
  have power := ten_zpow_pos exponent
  have order : ((floor + 1 : Nat) : ℚ) ≤ digits := by exact_mod_cast beyond
  refine rounds.of_between (Or.inr ⟨?_, mul_le_mul_of_nonneg_right order power.le⟩)
  rw [split, Nat.cast_add, Nat.cast_one]
  exact mul_le_mul_of_nonneg_right (add_le_add_right most.le _) power.le

end

include least most

theorem nearestAt_floor (rounds : format.RoundsTo (floor * 10 ^ exponent) pattern)
    (half : format.RoundsTo ((floor + 1 : Nat) * 10 ^ exponent) pattern → 2 * share ≤ 1) :
    format.NearestAt pattern exponent ⟨floor, exponent⟩ := by
  have power := ten_zpow_pos exponent
  refine ⟨rfl, rounds, ?_, fun digits other => ?_⟩
  · rw [split]
    exact mul_le_mul_of_nonneg_right (by linarith) power.le
  · rcases Nat.lt_or_ge floor digits with above | below
    · obtain ⟨ceiling, nearer⟩ := ceiling_of_roundsTo most split other above
      refine le_trans ?_ nearer
      rw [Decimal.value, abs_floor_sub least split, abs_ceiling_sub most split]
      exact mul_le_mul_of_nonneg_right (by linarith [half ceiling]) power.le
    · exact (floor_of_roundsTo least split other below).2

theorem nearestAt_ceiling (rounds : format.RoundsTo ((floor + 1 : Nat) * 10 ^ exponent) pattern)
    (half : format.RoundsTo (floor * 10 ^ exponent) pattern → 1 ≤ 2 * share) :
    format.NearestAt pattern exponent ⟨floor + 1, exponent⟩ := by
  have power := ten_zpow_pos exponent
  refine ⟨rfl, rounds, ?_, fun digits other => ?_⟩
  · rw [split, Nat.cast_add, Nat.cast_one]
    exact mul_le_mul_of_nonneg_right (by linarith) power.le
  · rcases Nat.lt_or_ge floor digits with above | below
    · exact (ceiling_of_roundsTo most split other above).2
    · obtain ⟨lower, nearer⟩ := floor_of_roundsTo least split other below
      refine le_trans ?_ nearer
      rw [Decimal.value, abs_floor_sub least split, abs_ceiling_sub most split]
      exact mul_le_mul_of_nonneg_right (by linarith [half lower]) power.le

end Grid

section Search

variable (wide : 2 ≤ format.exponentBits) {pattern : Nat} {exponent : Int}

include wide

theorem readsAs_iff {decimal : Decimal} :
    format.readsAs pattern decimal = true ↔ format.RoundsTo decimal.value pattern := by
  rw [readsAs, beq_iff_eq, round_eq_iff wide _ decimal.ratio_pos, Decimal.value_eq]

/-- The number of a pattern as a whole number of powers of ten and a share of one more. -/
theorem exists_share (pattern : Nat) (exponent : Int) :
    let numerator := format.magnitude pattern * Nat.pow 10 (-exponent).toNat
    let denominator := format.unit * Nat.pow 10 exponent.toNat
    ∃ share : ℚ, 0 ≤ share ∧ share < 1 ∧
      format.value pattern = ((numerator / denominator : Nat) + share) * 10 ^ exponent ∧
      compare (2 * (numerator % denominator)) denominator = compare (2 * share) 1 := by
  intro numerator denominator
  have unit : 0 < format.unit := format.unit_pos
  have positive : 0 < denominator := Nat.mul_pos unit (Nat.pow_pos (by decide))
  have parts : (0 : ℚ) < denominator := by exact_mod_cast positive
  have remainder : ((numerator % denominator : Nat) : ℚ) < denominator := by
    exact_mod_cast Nat.mod_lt numerator positive
  have whole : (denominator : ℚ) * (numerator / denominator : Nat) + (numerator % denominator : Nat) =
      numerator := by exact_mod_cast Nat.div_add_mod numerator denominator
  refine ⟨(numerator % denominator : Nat) / denominator, by positivity, (div_lt_one parts).mpr remainder,
    ?_, ?_⟩
  · have ratio : ((numerator / denominator : Nat) : ℚ) + (numerator % denominator : Nat) / denominator =
        numerator / denominator := by
      rw [← whole]
      field_simp
    have tens : (denominator : ℚ) = format.unit * (10 ^ exponent.toNat : Nat) := Nat.cast_mul ..
    have scaled : (numerator : ℚ) = format.magnitude pattern * (10 ^ (-exponent).toNat : Nat) :=
      Nat.cast_mul ..
    rw [ratio, value_eq wide, ten_zpow_eq, tens, scaled]
    push_cast
    field_simp
  · refine compare_scaled parts ?_ (one_mul _).symm
    push_cast
    field_simp

/-- What is found at an exponent is the nearest there, whichever way a tie between neighbours goes. -/
theorem nearestAt_of_decimalAt? {tie : Tie} {decimal : Decimal}
    (found : format.decimalAt? tie pattern exponent = some decimal) :
    format.NearestAt pattern exponent decimal := by
  obtain ⟨share, least, most, split, same⟩ := exists_share wide pattern exponent
  rw [decimalAt?] at found
  dsimp only at found
  rw [same] at found
  generalize format.magnitude pattern * Nat.pow 10 (-exponent).toNat /
    (format.unit * Nat.pow 10 exponent.toNat) = floor at *
  split at found
  · next both =>
    rw [Bool.and_eq_true, readsAs_iff wide, readsAs_iff wide] at both
    split at found
    · next less =>
      cases found
      rw [compare_lt_iff_lt] at less
      exact nearestAt_floor least most split both.1 fun _ => less.le
    · next middle =>
      rw [compare_eq_iff_eq] at middle
      split at found
      · cases found
        exact nearestAt_floor least most split both.1 fun _ => middle.le
      · cases found
        exact nearestAt_ceiling least most split both.2 fun _ => middle.ge
    · next greater =>
      cases found
      rw [compare_gt_iff_gt] at greater
      exact nearestAt_ceiling least most split both.2 fun _ => greater.le
  · next apart =>
    rw [Bool.and_eq_true, readsAs_iff wide, readsAs_iff wide] at apart
    split at found
    · next lower =>
      cases found
      rw [readsAs_iff wide] at lower
      exact nearestAt_floor least most split lower fun upper => absurd ⟨lower, upper⟩ apart
    · next notLower =>
      rw [readsAs_iff wide] at notLower
      split at found
      · next upper =>
        cases found
        rw [readsAs_iff wide] at upper
        exact nearestAt_ceiling least most split upper fun lower => absurd lower notLower
      · cases found

/-- Where neither neighbour of the number reads back, nothing behind them does. -/
theorem not_roundsTo_of_decimalAt? {tie : Tie} (missed : format.decimalAt? tie pattern exponent = none)
    (digits : Nat) : ¬ format.RoundsTo (digits * 10 ^ exponent) pattern := by
  intro rounds
  obtain ⟨share, least, most, split, _⟩ := exists_share wide pattern exponent
  rw [decimalAt?] at missed
  dsimp only at missed
  generalize format.magnitude pattern * Nat.pow 10 (-exponent).toNat /
    (format.unit * Nat.pow 10 exponent.toNat) = floor at *
  split at missed
  · split at missed
    · cases missed
    · split at missed <;> cases missed
    · cases missed
  · split at missed
    · cases missed
    · next notLower =>
      split at missed
      · cases missed
      · next notUpper =>
        rw [readsAs_iff wide] at notLower notUpper
        rcases Nat.lt_or_ge floor digits with above | below
        · exact notUpper (ceiling_of_roundsTo most split rounds above).1
        · exact notLower (floor_of_roundsTo least split rounds below).1

end Search

end BinaryFormat

end CilListing
