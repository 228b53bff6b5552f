import CilListing.Proofs.DecimalGrid

namespace CilListing

namespace BinaryFormat

variable {format : BinaryFormat}

/-- What is asked of a format so that scanning powers of ten downwards finds the nearest decimal. Only
the least numbers are so far apart that the power of ten above them needs a look. -/
structure Ordinary (format : BinaryFormat) : Prop where
  wide : 2 ≤ format.exponentBits
  precise : 4 ≤ format.fractionBits
  tiny : ∀ pattern < 10,
    let power : Decimal := ⟨1, decimalPower pattern format.unit⟩
    format.readsAs pattern power = true →
      19 * power.ratio.1 * format.unit ≤ 20 * pattern * power.ratio.2

theorem single_ordinary : single.Ordinary := ⟨by decide, by decide, by decide +kernel⟩

theorem double_ordinary : double.Ordinary := ⟨by decide, by decide, by decide +kernel⟩

section Scan

/-- The first exponent that is tried: the number is below one digit of it. -/
def topPower (format : BinaryFormat) (pattern : Nat) : Int :=
  decimalPower (format.magnitude pattern) format.unit

theorem topPower_bounds (wide : 2 ≤ format.exponentBits) {pattern : Nat} (positive : 0 < pattern) :
    (10 : ℚ) ^ (format.topPower pattern - 1) ≤ format.value pattern ∧
      format.value pattern < 10 ^ format.topPower pattern := by
  have above : format.magnitude 0 < format.magnitude pattern :=
    strictMono_nat_of_lt_succ format.magnitude_lt_succ positive
  rw [value_eq wide]
  exact decimalPower_bounds (Nat.zero_lt_of_lt above) format.unit_pos

/-- Digits that end some places below the top can be continued by zeros. -/
theorem topPower_shift (format : BinaryFormat) (pattern digits before places : Nat) :
    (digits : ℚ) * 10 ^ (format.topPower pattern - before) =
      (digits * 10 ^ places : Nat) * 10 ^ (format.topPower pattern - (before + places : Nat)) :=
  digits_mul_ten_zpow digits (by omega)

theorem ten_zpow_topPower (format : BinaryFormat) (pattern places : Nat) :
    (10 : ℚ) ^ format.topPower pattern = (10 ^ places : Nat) * 10 ^ (format.topPower pattern - places) := by
  have shift := format.topPower_shift pattern 1 0 places
  rwa [Nat.cast_zero, sub_zero, Nat.cast_one, one_mul, one_mul, Nat.zero_add] at shift

theorem four_mul_two_pow_le {places : Nat} (some : 1 ≤ places) : 4 * (2 : ℚ) ^ places ≤ 10 ^ places := by
  have five : (5 : ℚ) ^ 1 ≤ 5 ^ places := pow_le_pow_right₀ (by norm_num) some
  have product : (10 : ℚ) ^ places = 5 ^ places * 2 ^ places := by
    rw [← mul_pow]
    norm_num
  rw [product]
  exact mul_le_mul_of_nonneg_right (by linarith) (by positivity)

/-- At the last exponent that is tried, a digit is worth at most half the gap below the number. -/
theorem lastPower_le (ordinary : format.Ordinary) (pattern : Nat) :
    2 * (10 : ℚ) ^ (format.topPower (pattern + 1) - (format.fractionBits + 1 : Nat)) ≤
      format.gap pattern / format.unit := by
  have unit : (0 : ℚ) < format.unit := by exact_mod_cast format.unit_pos
  have places : (0 : ℚ) < 10 ^ format.fractionBits := by positivity
  have split : format.topPower (pattern + 1) - 1 =
      (format.topPower (pattern + 1) - (format.fractionBits + 1 : Nat)) + (format.fractionBits : Nat) := by
    omega
  have least := (topPower_bounds ordinary.wide (Nat.succ_pos pattern)).1
  rw [split, zpow_add₀ (by decide), zpow_natCast, value_eq ordinary.wide] at least
  have bound : (format.magnitude (pattern + 1) : ℚ) ≤
      2 * 2 ^ format.fractionBits * format.gap pattern := by
    exact_mod_cast format.magnitude_succ_le pattern
  have powers := four_mul_two_pow_le (le_trans (by decide) ordinary.precise)
  refine le_of_mul_le_mul_right ?_ places
  calc 2 * (10 : ℚ) ^ (format.topPower (pattern + 1) - (format.fractionBits + 1 : Nat)) *
        10 ^ format.fractionBits
      ≤ 2 * (format.magnitude (pattern + 1) / format.unit) := by linarith
    _ ≤ 2 * (2 * 2 ^ format.fractionBits * format.gap pattern / format.unit) := by gcongr
    _ = 4 * 2 ^ format.fractionBits * (format.gap pattern / format.unit) := by ring
    _ ≤ 10 ^ format.fractionBits * (format.gap pattern / format.unit) :=
        mul_le_mul_of_nonneg_right powers (by positivity)
    _ = format.gap pattern / format.unit * 10 ^ format.fractionBits := mul_comm ..

theorem exists_roundsTo_last (ordinary : format.Ordinary) {pattern : Nat} (positive : 0 < pattern)
    (finite : pattern ≤ format.infinity) : ∃ digits : Nat,
      format.RoundsTo (digits * 10 ^ (format.topPower pattern - (format.fractionBits + 1 : Nat))) pattern := by
  obtain ⟨before, rfl⟩ := Nat.exists_eq_succ_of_ne_zero positive.ne'
  have fine := lastPower_le ordinary before
  have power := ten_zpow_pos (format.topPower (before + 1) - (format.fractionBits + 1 : Nat))
  obtain ⟨share, least, most, split, _⟩ := exists_share ordinary.wide (before + 1)
    (format.topPower (before + 1) - (format.fractionBits + 1 : Nat))
  have gap := value_succ ordinary.wide before
  have above : 0 ≤ share * (10 : ℚ) ^ (format.topPower (before + 1) - (format.fractionBits + 1 : Nat)) :=
    mul_nonneg least power.le
  have below := mul_lt_mul_of_pos_right most power
  rw [add_mul] at split
  exact ⟨_, .of_upper_half ordinary.wide finite (by linarith) (by linarith) fun tie =>
    absurd tie (by linarith)⟩

theorem findSome?_range {α : Type} {f : Nat → Option α} {count : Nat} {found : α}
    (search : (List.range count).findSome? f = some found) :
    ∃ index, f index = some found ∧ ∀ earlier < index, f earlier = none := by
  induction count with
  | zero => cases search
  | succ count ih =>
    rw [List.range_succ, List.findSome?_append, Option.or_eq_some_iff] at search
    rcases search with before | ⟨missed, last⟩
    · exact ih before
    · rw [List.findSome?_singleton] at last
      rw [List.findSome?_eq_none_iff] at missed
      exact ⟨count, last, fun earlier less => missed earlier (List.mem_range.mpr less)⟩

/-- The scan goes down from the top by a number of steps and stops at the first decimal that reads
back. -/
structure StopsAt (format : BinaryFormat) (pattern steps : Nat) (decimal : Decimal) : Prop where
  nearest : format.NearestAt pattern (format.topPower pattern - steps) decimal
  first : ∀ fewer < steps, ∀ digits : Nat,
    ¬ format.RoundsTo (digits * 10 ^ (format.topPower pattern - fewer)) pattern

/-- The scan always stops: the number is never written out in full for want of a shorter decimal. -/
theorem exists_stopsAt (ordinary : format.Ordinary) (tie : Tie) {pattern : Nat} (positive : 0 < pattern)
    (finite : pattern ≤ format.infinity) :
    ∃ steps, format.StopsAt pattern steps (format.shortest tie pattern) := by
  have scan : format.shortest tie pattern =
      ((List.range (format.fractionBits + 2)).findSome? fun (step : Nat) =>
        format.decimalAt? tie pattern (format.topPower pattern - step)).getD
          (format.exactDecimal pattern) := rfl
  rw [scan]
  cases search : (List.range (format.fractionBits + 2)).findSome? fun (step : Nat) =>
      format.decimalAt? tie pattern (format.topPower pattern - step) with
  | none =>
    obtain ⟨digits, rounds⟩ := exists_roundsTo_last ordinary positive finite
    rw [List.findSome?_eq_none_iff] at search
    have missed := search (format.fractionBits + 1) (List.mem_range.mpr (Nat.lt_succ_self _))
    exact absurd rounds (not_roundsTo_of_decimalAt? ordinary.wide missed digits)
  | some decimal =>
    obtain ⟨steps, found, missed⟩ := findSome?_range search
    exact ⟨steps, nearestAt_of_decimalAt? ordinary.wide found,
      fun fewer less => not_roundsTo_of_decimalAt? ordinary.wide (missed fewer less)⟩

end Scan

section Digits

theorem pos_of_roundsTo (wide : 2 ≤ format.exponentBits) {pattern digits : Nat} {exponent : Int}
    (positive : 0 < pattern) (rounds : format.RoundsTo (digits * 10 ^ exponent) pattern) : 0 < digits := by
  by_contra zero
  have none : digits = 0 := by omega
  have nearest := rounds.nearest 0 (Nat.zero_le _)
  have above := value_strictMono wide positive
  rw [none, Nat.cast_zero, zero_mul, value_zero wide, sub_zero, abs_zero, zero_sub, abs_neg] at nearest
  rw [value_zero wide] at above
  exact absurd (abs_nonpos_iff.mp nearest) above.ne'

namespace StopsAt

variable {pattern steps : Nat} {decimal : Decimal} (stops : format.StopsAt pattern steps decimal)
  (wide : 2 ≤ format.exponentBits) (positive : 0 < pattern)

include stops

theorem rounds : format.RoundsTo (decimal.digits * 10 ^ (format.topPower pattern - steps)) pattern := by
  have rounds := stops.nearest.rounds
  rwa [Decimal.value, stops.nearest.exponent_eq] at rounds

/-- What reads back lies below the exponents that the scan has passed. -/
theorem steps_le {places digits : Nat}
    (rounds : format.RoundsTo (digits * 10 ^ (format.topPower pattern - places)) pattern) :
    steps ≤ places := by
  by_contra fewer
  exact stops.first places (not_le.mp fewer) digits rounds

include wide positive

theorem digits_pos : 0 < decimal.digits := pos_of_roundsTo wide positive stops.rounds

theorem digits_le : decimal.digits ≤ 10 ^ steps := by
  have power := ten_zpow_pos (format.topPower pattern - steps)
  have below := (topPower_bounds wide positive).2
  have less : ((decimal.digits : ℚ) - 1) < (10 ^ steps : Nat) := by
    refine lt_of_mul_lt_mul_right ?_ power.le
    rw [← ten_zpow_topPower]
    exact lt_of_le_of_lt stops.nearest.digits_le below
  have cast : (decimal.digits : ℚ) < (10 ^ steps + 1 : Nat) := by
    rw [Nat.cast_add, Nat.cast_one]
    linarith
  exact Nat.le_of_lt_succ (by exact_mod_cast cast)

/-- A power of ten would have been found at the first step. -/
theorem digits_lt (moved : 0 < steps) : decimal.digits < 10 ^ steps := by
  refine lt_of_le_of_ne (stops.digits_le wide positive) fun full => ?_
  have rounds := stops.rounds
  have one := format.topPower_shift pattern 1 0 steps
  rw [one_mul, ← full, Nat.zero_add] at one
  rw [← one] at rounds
  have none := stops.steps_le rounds
  omega

/-- A last zero would have been left out one step before. -/
theorem digits_mod_ten : decimal.digits % 10 ≠ 0 := by
  intro zero
  have digits := stops.digits_pos wide positive
  have few := stops.digits_le wide positive
  obtain ⟨before, rfl⟩ : ∃ before, steps = before + 1 := by
    refine Nat.exists_eq_succ_of_ne_zero fun none => ?_
    rw [none, Nat.pow_zero] at few
    omega
  have rounds := stops.rounds
  have shorter := format.topPower_shift pattern (decimal.digits / 10) before 1
  have same : decimal.digits / 10 * 10 ^ 1 = decimal.digits := by omega
  rw [same] at shorter
  rw [← shorter] at rounds
  have none := stops.steps_le rounds
  omega

end StopsAt

/-- The number is a decimal of at most so many significant digits. -/
def HasDigits (count : Nat) (number : ℚ) : Prop :=
  ∃ decimal : Decimal, decimal.digits < 10 ^ count ∧ decimal.value = number

/-- A decimal of so many digits is no better than one that ends so many places below the top. -/
theorem exists_multiple (wide : 2 ≤ format.exponentBits) {pattern count : Nat} (positive : 0 < pattern)
    {number : ℚ} (few : HasDigits count number) (rounds : format.RoundsTo number pattern) :
    ∃ digits : Nat, format.RoundsTo (digits * 10 ^ (format.topPower pattern - count)) pattern ∧
      |digits * 10 ^ (format.topPower pattern - count) - format.value pattern| ≤
        |number - format.value pattern| := by
  obtain ⟨⟨digits, exponent⟩, few, rfl⟩ := few
  have some : 0 < digits := pos_of_roundsTo wide positive rounds
  dsimp only [Decimal.value] at few rounds ⊢
  by_cases coarse : format.topPower pattern - count ≤ exponent
  · obtain ⟨places, apart⟩ := Int.eq_ofNat_of_zero_le (sub_nonneg.mpr coarse)
    rw [digits_mul_ten_zpow digits apart] at rounds ⊢
    exact ⟨_, rounds, le_rfl⟩
  · -- The digits end before the first place of the number, where a power of ten is still between.
    obtain ⟨before, rfl⟩ : ∃ before, count = before + 1 := by
      refine Nat.exists_eq_succ_of_ne_zero fun none => ?_
      rw [none, Nat.pow_zero] at few
      omega
    have power := format.topPower_shift pattern 1 1 before
    rw [Nat.cast_one, one_mul, one_mul, Nat.cast_one, Nat.add_comm] at power
    have below : (digits : ℚ) * 10 ^ exponent ≤ 10 ^ (format.topPower pattern - 1) := by
      have cast : (digits : ℚ) ≤ 10 ^ (before + 1) := by exact_mod_cast few.le
      calc (digits : ℚ) * 10 ^ exponent
          ≤ 10 ^ (before + 1) * 10 ^ exponent := mul_le_mul_of_nonneg_right cast (ten_zpow_pos _).le
        _ = 10 ^ ((before + 1 : Nat) + exponent) := by rw [zpow_add₀ (by decide), zpow_natCast]
        _ ≤ 10 ^ (format.topPower pattern - 1) := zpow_le_zpow_right₀ (by norm_num) (by omega)
    have between := rounds.of_between (Or.inl ⟨below, (topPower_bounds wide positive).1⟩)
    rw [power] at between
    exact ⟨_, between⟩

/-- A number is ten times greater than the gap above it, the least ones apart. -/
theorem ten_mul_gap_le (ordinary : format.Ordinary) {pattern : Nat} (large : 10 ≤ pattern) :
    10 * format.gap pattern ≤ format.magnitude pattern := by
  have many : 2 ^ 4 ≤ format.fractions := Nat.pow_le_pow_right (by decide) ordinary.precise
  by_cases subnormal : pattern < format.fractions
  · rw [gap_of_lt format subnormal, magnitude_of_lt format subnormal]
    exact large
  · have bound := format.fractions_mul_gap_le (Nat.le_of_not_lt subnormal)
    exact (Nat.mul_le_mul_right _ (by omega)).trans bound

/-- Where the power of ten above a number reads back, it is nearer than nine tenths of it. -/
theorem topPower_close (ordinary : format.Ordinary) {pattern : Nat} (finite : pattern < format.infinity)
    (rounds : format.RoundsTo ((1 : Nat) * 10 ^ format.topPower pattern) pattern) :
    19 * (10 : ℚ) ^ format.topPower pattern ≤ 20 * format.value pattern := by
  have wide := ordinary.wide
  have unit : (0 : ℚ) < format.unit := by exact_mod_cast format.unit_pos
  by_cases small : pattern < 10
  · have many : 2 ^ 4 ≤ format.fractions := Nat.pow_le_pow_right (by decide) ordinary.precise
    have exact : format.magnitude pattern = pattern := format.magnitude_of_lt (by omega)
    rw [topPower, exact] at rounds ⊢
    have parts : (0 : ℚ) < (Decimal.ratio ⟨1, decimalPower pattern format.unit⟩).2 := by
      exact_mod_cast Decimal.ratio_pos _
    have power := Decimal.value_eq ⟨1, decimalPower pattern format.unit⟩
    rw [Decimal.value, Nat.cast_one, one_mul] at power
    have tiny := ordinary.tiny pattern small ((readsAs_iff wide).mpr rounds)
    rw [power, value_eq wide, exact, mul_div_assoc', mul_div_assoc', div_le_div_iff₀ parts unit]
    exact_mod_cast tiny
  · have gap : 10 * (format.gap pattern : ℚ) ≤ format.magnitude pattern := by
      exact_mod_cast ten_mul_gap_le ordinary (Nat.le_of_not_lt small)
    have order := value_strictMono wide (Nat.lt_succ_self pattern)
    have half := (abs_sub_lower_le_iff order _).mp (rounds.nearest (pattern + 1) finite)
    have tenth := div_le_div_of_nonneg_right gap unit.le
    rw [← value_eq wide, mul_div_assoc] at tenth
    rw [Nat.succ_eq_add_one, value_succ wide, Nat.cast_one, one_mul] at half
    have above : 0 ≤ format.value pattern := by
      rw [value_eq wide]
      positivity
    linarith

theorem topPower_nearest (ordinary : format.Ordinary) {pattern : Nat} (positive : 0 < pattern)
    (finite : pattern < format.infinity)
    (rounds : format.RoundsTo ((1 : Nat) * 10 ^ format.topPower pattern) pattern) (digits : Nat) :
    |(1 : Nat) * 10 ^ format.topPower pattern - format.value pattern| ≤
      |digits * 10 ^ (format.topPower pattern - (1 : Nat)) - format.value pattern| := by
  have close := topPower_close ordinary finite rounds
  have below := (topPower_bounds ordinary.wide positive).2
  have ten := format.ten_zpow_topPower pattern 1
  have power := ten_zpow_pos (format.topPower pattern - (1 : Nat))
  generalize (10 : ℚ) ^ (format.topPower pattern - (1 : Nat)) = tenth at *
  rw [Nat.cast_one, one_mul, abs_of_pos (sub_pos.mpr below)]
  rcases Nat.lt_or_ge digits 10 with less | enough
  · have few : (digits : ℚ) ≤ 9 := by exact_mod_cast Nat.le_of_lt_succ less
    have nine := mul_le_mul_of_nonneg_right few power.le
    norm_num at ten
    rw [abs_sub_comm]
    exact le_trans (by linarith) (le_abs_self _)
  · have many : (10 : ℚ) ≤ digits := by exact_mod_cast enough
    have whole := mul_le_mul_of_nonneg_right many power.le
    norm_num at ten
    exact le_trans (by linarith) (le_abs_self _)

end Digits

section Shortest

/-- The number is rounded to the pattern, no number with fewer digits is, and none with as many digits
lies nearer to what the pattern stands for. -/
structure IsShortest (format : BinaryFormat) (pattern count : Nat) (number : ℚ) : Prop where
  rounds : format.RoundsTo number pattern
  digits : HasDigits count number
  fewest : ∀ fewer other, HasDigits fewer other → format.RoundsTo other pattern → count ≤ fewer
  closest : ∀ other, HasDigits count other → format.RoundsTo other pattern →
    |number - format.value pattern| ≤ |other - format.value pattern|

namespace StopsAt

variable {pattern steps : Nat} {decimal : Decimal} (stops : format.StopsAt pattern steps decimal)
  (positive : 0 < pattern)

include stops positive

theorem hasDigits (wide : 2 ≤ format.exponentBits) : HasDigits (max steps 1) decimal.value := by
  refine ⟨decimal, ?_, rfl⟩
  rcases Nat.eq_zero_or_pos steps with still | moved
  · have few := stops.digits_le wide positive
    rw [still] at few ⊢
    exact few.trans_lt (by decide)
  · rw [Nat.max_eq_left moved]
    exact stops.digits_lt wide positive moved

theorem fewest (wide : 2 ≤ format.exponentBits) {fewer : Nat} {other : ℚ} (few : HasDigits fewer other)
    (rounds : format.RoundsTo other pattern) : max steps 1 ≤ fewer := by
  obtain ⟨digits, multiple, _⟩ := exists_multiple wide positive few rounds
  have enough := stops.steps_le multiple
  have some : fewer ≠ 0 := by
    rintro rfl
    obtain ⟨zero, none, rfl⟩ := few
    have nonzero : 0 < zero.digits := pos_of_roundsTo wide positive rounds
    omega
  omega

theorem closest (ordinary : format.Ordinary) (finite : pattern < format.infinity) {other : ℚ}
    (few : HasDigits (max steps 1) other) (rounds : format.RoundsTo other pattern) :
    |decimal.value - format.value pattern| ≤ |other - format.value pattern| := by
  have wide := ordinary.wide
  obtain ⟨digits, multiple, nearer⟩ := exists_multiple wide positive few rounds
  refine le_trans ?_ nearer
  rcases Nat.eq_zero_or_pos steps with still | moved
  · -- The scan has stopped at the power of ten above the number, without a look at its tenths.
    have least := stops.digits_le wide positive
    have some := stops.digits_pos wide positive
    have one : decimal.digits = 1 := by
      rw [still, Nat.pow_zero] at least
      omega
    have rounds := stops.rounds
    rw [one, still, Nat.cast_zero, sub_zero] at rounds
    rw [Decimal.value, stops.nearest.exponent_eq, one, still, Nat.cast_zero, sub_zero]
    exact topPower_nearest ordinary positive finite rounds digits
  · rw [Nat.max_eq_left moved] at multiple ⊢
    exact stops.nearest.nearest digits multiple

theorem isShortest (ordinary : format.Ordinary) (finite : pattern < format.infinity) :
    format.IsShortest pattern (max steps 1) decimal.value where
  rounds := stops.nearest.rounds
  digits := stops.hasDigits positive ordinary.wide
  fewest _ _ few rounds := stops.fewest positive ordinary.wide few rounds
  closest _ few rounds := stops.closest positive ordinary finite few rounds

end StopsAt

end Shortest

end BinaryFormat

end CilListing
