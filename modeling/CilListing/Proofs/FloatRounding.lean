import CilListing.Proofs.FloatText
import Mathlib

namespace CilListing

/-- Whole numbers compare as the numbers that they are multiples of. -/
theorem compare_scaled {first second : Nat} {left right scale : ℚ} (positive : 0 < scale)
    (isLeft : (first : ℚ) = left * scale) (isRight : (second : ℚ) = right * scale) :
    compare first second = compare left right := by
  have cast : StrictMono (Nat.cast : Nat → ℚ) := Nat.strictMono_cast
  rw [← cmp_eq_compare, ← cmp_eq_compare, ← cast.cmp_map_eq, isLeft, isRight,
    cmp_mul_pos_right positive]

namespace BinaryFormat

variable (format : BinaryFormat)

section Value

/-- What a stored exponent is greater by than the one it stands for. -/
def bias : Int := 2 ^ (format.exponentBits - 1) - 1

/-- The number that an unsigned pattern stands for: a one and a fraction, times a power of two. The
least stored exponent goes without the one. Infinity gives the number that would follow the largest. -/
def value (pattern : Nat) : ℚ :=
  let exponent := pattern / format.fractions
  let fraction : ℚ := (pattern % format.fractions : Nat) / format.fractions
  if exponent = 0 then fraction * 2 ^ (1 - format.bias)
  else (1 + fraction) * 2 ^ ((exponent : Int) - format.bias)

theorem unit_pos : 0 < format.unit := Nat.two_pow_pos _

variable {format} (wide : 2 ≤ format.exponentBits)

include wide

theorem two_zpow_sub_bias (exponent : Nat) :
    (2 : ℚ) ^ ((exponent : Int) + 1 - format.bias) = format.fractions * 2 ^ exponent / format.unit := by
  have half : 2 ^ 1 ≤ 2 ^ (format.exponentBits - 1) := Nat.pow_le_pow_right (by decide) (by omega)
  have log : (format.unitLog : Int) = 2 ^ (format.exponentBits - 1) + format.fractionBits - 2 := by
    have whole : format.unitLog = 2 ^ (format.exponentBits - 1) + format.fractionBits - 2 := rfl
    rw [whole]
    push_cast [Nat.cast_sub (show 2 ≤ 2 ^ (format.exponentBits - 1) + format.fractionBits by omega)]
    rfl
  have unit : (format.unit : ℚ) = 2 ^ (format.unitLog : Int) := by
    rw [zpow_natCast]
    exact Nat.cast_pow ..
  have fractions : (format.fractions : ℚ) = 2 ^ (format.fractionBits : Int) := by
    rw [zpow_natCast]
    exact Nat.cast_pow ..
  have split : (exponent : Int) + 1 - format.bias = format.fractionBits + exponent - format.unitLog := by
    rw [log, bias]
    omega
  rw [split, zpow_sub₀ (by decide), zpow_add₀ (by decide), ← fractions, ← unit, zpow_natCast]

/-- The number of a pattern is its magnitude, counted in least positive numbers. -/
theorem value_eq (pattern : Nat) : format.value pattern = format.magnitude pattern / format.unit := by
  have positive := format.fractions_pos
  have nonzero : (format.fractions : ℚ) ≠ 0 := by exact_mod_cast positive.ne'
  rcases format.pattern_cases pattern with subnormal | ⟨exponent, fraction, small, rfl⟩
  · have power := two_zpow_sub_bias wide 0
    rw [Nat.cast_zero, zero_add, pow_zero, mul_one] at power
    rw [value, Nat.div_eq_of_lt subnormal, Nat.mod_eq_of_lt subnormal, if_pos rfl, power,
      magnitude_of_lt format subnormal]
    field_simp
  · have power := two_zpow_sub_bias wide exponent
    rw [value, normal_mod format small, normal_div format small, if_neg (Nat.succ_ne_zero exponent),
      magnitude_normal format small]
    push_cast
    rw [power]
    field_simp

theorem value_strictMono : StrictMono format.value := by
  intro lower upper order
  have magnitudes := strictMono_nat_of_lt_succ format.magnitude_lt_succ order
  have unit : (0 : ℚ) < format.unit := by exact_mod_cast format.unit_pos
  rw [value_eq wide, value_eq wide]
  exact div_lt_div_of_pos_right (by exact_mod_cast magnitudes) unit

theorem value_zero : format.value 0 = 0 := by
  rw [value_eq wide, magnitude_of_lt format format.fractions_pos, Nat.cast_zero, zero_div]

/-- The distance from a number to the next one. -/
theorem value_succ (pattern : Nat) :
    format.value (pattern + 1) = format.value pattern + format.gap pattern / format.unit := by
  rw [value_eq wide, value_eq wide, magnitude_succ, Nat.cast_add, add_div]

end Value

section Gap

/-- A number is not many times greater than the gap below it. -/
theorem magnitude_succ_le (pattern : Nat) :
    format.magnitude (pattern + 1) ≤ 2 * format.fractions * format.gap pattern := by
  rw [magnitude_succ]
  rcases format.pattern_cases pattern with subnormal | ⟨exponent, fraction, small, rfl⟩
  · rw [magnitude_of_lt format subnormal, gap_of_lt format subnormal]
    omega
  · rw [magnitude_normal format small, gap_normal format small]
    have bound : format.fractions + fraction + 1 ≤ 2 * format.fractions := by omega
    calc (format.fractions + fraction) * 2 ^ exponent + 2 ^ exponent
        = (format.fractions + fraction + 1) * 2 ^ exponent := (Nat.succ_mul ..).symm
      _ ≤ 2 * format.fractions * 2 ^ exponent := Nat.mul_le_mul_right _ bound

/-- A normal number is many times greater than the gap above it. -/
theorem fractions_mul_gap_le {pattern : Nat} (normal : format.fractions ≤ pattern) :
    format.fractions * format.gap pattern ≤ format.magnitude pattern := by
  rcases format.pattern_cases pattern with subnormal | ⟨exponent, fraction, small, rfl⟩
  · omega
  · rw [magnitude_normal format small, gap_normal format small]
    exact Nat.mul_le_mul_right _ (Nat.le_add_right ..)

end Gap

section Floor

/-- A pattern by its shift and its binary digits, which begin with a one unless nothing is shifted. -/
theorem magnitude_shifted {shift digits : Nat} (below : digits < 2 * format.fractions)
    (normal : shift = 0 ∨ format.fractions ≤ digits) :
    format.magnitude (shift * format.fractions + digits) = digits * 2 ^ shift ∧
      format.gap (shift * format.fractions + digits) = 2 ^ shift := by
  by_cases leading : format.fractions ≤ digits
  · have split : shift * format.fractions + digits =
        (shift + 1) * format.fractions + (digits - format.fractions) := by
      rw [Nat.succ_mul]
      omega
    have small : digits - format.fractions < format.fractions := by omega
    rw [split, magnitude_normal format small, gap_normal format small, Nat.add_sub_cancel' leading]
    exact ⟨rfl, rfl⟩
  · have unshifted : shift = 0 := by omega
    have subnormal : digits < format.fractions := by omega
    rw [unshifted, Nat.zero_mul, Nat.zero_add, magnitude_of_lt format subnormal, gap_of_lt format subnormal]
    exact ⟨(Nat.mul_one digits).symm, rfl⟩

/-- A count lies between the magnitudes of its pattern and of the next one. -/
theorem floorPattern_spec (count : Nat) :
    format.magnitude (format.floorPattern count) ≤ count ∧
      count < format.magnitude (format.floorPattern count + 1) := by
  have floor : format.floorPattern count = (count.log2 - format.fractionBits) * format.fractions +
      count / 2 ^ (count.log2 - format.fractionBits) := rfl
  have leading : format.fractions = 2 ^ format.fractionBits := rfl
  generalize isShift : count.log2 - format.fractionBits = shift at floor
  have power : 0 < 2 ^ shift := Nat.two_pow_pos shift
  have below : count / 2 ^ shift < 2 * format.fractions := by
    have more : 2 ^ (count.log2 + 1) ≤ 2 ^ (format.fractionBits + 1 + shift) :=
      Nat.pow_le_pow_right (by decide) (by omega)
    rw [Nat.div_lt_iff_lt_mul power, leading, ← Nat.pow_succ', ← Nat.pow_add]
    exact Nat.lt_of_lt_of_le Nat.lt_log2_self more
  have normal : shift = 0 ∨ format.fractions ≤ count / 2 ^ shift := by
    by_cases unshifted : shift = 0
    · exact Or.inl unshifted
    · have nonzero : count ≠ 0 := by
        rintro rfl
        rw [Nat.log2_zero] at isShift
        omega
      have sum : count.log2 = format.fractionBits + shift := by omega
      have bound : 2 ^ count.log2 ≤ count := Nat.log2_self_le nonzero
      rw [sum, Nat.pow_add, ← leading] at bound
      exact Or.inr ((Nat.le_div_iff_mul_le power).mpr bound)
  obtain ⟨magnitude, gap⟩ := format.magnitude_shifted below normal
  rw [magnitude_succ, floor, magnitude, gap]
  refine ⟨Nat.div_mul_le_self .., ?_⟩
  rw [← Nat.succ_mul, Nat.mul_comm]
  exact Nat.lt_mul_div_succ count power

end Floor

section Nearest

variable {lower upper : ℚ} (order : lower < upper) (number : ℚ)

include order

theorem abs_sub_lower_le_iff :
    |number - lower| ≤ |number - upper| ↔ 2 * number ≤ lower + upper := by
  constructor
  · intro nearer
    cases abs_cases (number - lower) <;> cases abs_cases (number - upper) <;> linarith
  · intro half
    cases abs_cases (number - lower) <;> cases abs_cases (number - upper) <;> linarith

theorem abs_sub_upper_le_iff :
    |number - upper| ≤ |number - lower| ↔ lower + upper ≤ 2 * number := by
  have mirrored := abs_sub_lower_le_iff (neg_lt_neg order) (-number)
  rw [neg_sub_neg, neg_sub_neg, abs_sub_comm upper, abs_sub_comm lower] at mirrored
  rw [mirrored]
  constructor
  · intro half
    linarith
  · intro half
    linarith

end Nearest

/-- A number is rounded to the nearest pattern. Of two that are equally near it is the even one. -/
structure RoundsTo (number : ℚ) (pattern : Nat) : Prop where
  encodes : pattern ≤ format.infinity
  nearest : ∀ other ≤ format.infinity,
    |number - format.value pattern| ≤ |number - format.value other|
  even_of_tie : ∀ other ≤ format.infinity, other ≠ pattern →
    |number - format.value pattern| = |number - format.value other| → pattern % 2 = 0

namespace RoundsTo

variable {format} {number : ℚ} {pattern : Nat}

/-- Whatever lies on the way from a number to its pattern is rounded there too, and is nearer. -/
theorem of_between (rounds : format.RoundsTo number pattern) {between : ℚ}
    (inside : number ≤ between ∧ between ≤ format.value pattern ∨
      format.value pattern ≤ between ∧ between ≤ number) :
    format.RoundsTo between pattern ∧
      |between - format.value pattern| ≤ |number - format.value pattern| := by
  have way : |number - format.value pattern| = |number - between| + |between - format.value pattern| := by
    rcases inside with ⟨first, second⟩ | ⟨first, second⟩
    · rw [abs_of_nonpos (by linarith), abs_of_nonpos (by linarith), abs_of_nonpos (by linarith)]
      ring
    · rw [abs_of_nonneg (by linarith), abs_of_nonneg (by linarith), abs_of_nonneg (by linarith)]
      ring
  have detour (other : Nat) := abs_sub_le number between (format.value other)
  refine ⟨⟨rounds.encodes, fun other encodes => ?_, fun other encodes different tie => ?_⟩, ?_⟩
  · have nearest := rounds.nearest other encodes
    linarith [detour other]
  · have nearest := rounds.nearest other encodes
    exact rounds.even_of_tie other encodes different (by linarith [detour other])
  · linarith [abs_nonneg (number - between)]

variable (wide : 2 ≤ format.exponentBits)

include wide

/-- It is enough to be on the right side of the middle to every other pattern. -/
theorem of_middles (encodes : pattern ≤ format.infinity)
    (above : ∀ other < pattern, format.value other + format.value pattern ≤ 2 * number ∧
      (format.value other + format.value pattern = 2 * number → pattern % 2 = 0))
    (below : ∀ other ≤ format.infinity, pattern < other →
      2 * number ≤ format.value pattern + format.value other ∧
      (2 * number = format.value pattern + format.value other → pattern % 2 = 0)) :
    format.RoundsTo number pattern := by
  refine ⟨encodes, fun other encoded => ?_, fun other encoded different tie => ?_⟩
  · rcases lt_trichotomy other pattern with less | same | greater
    · exact (abs_sub_upper_le_iff (value_strictMono wide less) number).mpr (above other less).1
    · rw [same]
    · exact (abs_sub_lower_le_iff (value_strictMono wide greater) number).mpr (below other encoded greater).1
  · rcases Nat.lt_or_gt_of_ne different with less | greater
    · have half := (abs_sub_lower_le_iff (value_strictMono wide less) number).mp tie.ge
      exact (above other less).2 (le_antisymm (above other less).1 half)
    · have half := (abs_sub_upper_le_iff (value_strictMono wide greater) number).mp tie.ge
      exact (below other encoded greater).2 (le_antisymm (below other encoded greater).1 half)

theorem not_lt_of_roundsTo {other : Nat} (first : format.RoundsTo number pattern)
    (second : format.RoundsTo number other) : ¬ pattern < other := by
  intro less
  have tie : |number - format.value pattern| = |number - format.value other| :=
    le_antisymm (first.nearest other second.encodes) (second.nearest pattern first.encodes)
  have even := first.even_of_tie other second.encodes less.ne' tie
  have otherEven := second.even_of_tie pattern first.encodes less.ne tie.symm
  -- An odd pattern lies between two even ones, and the number halfway between them is nearer to it.
  have between : pattern + 1 < other := by omega
  have order := value_strictMono wide between
  have nearest := first.nearest (pattern + 1) (by have := second.encodes; omega)
  have half := (abs_sub_lower_le_iff (value_strictMono wide (Nat.lt_succ_self pattern)) number).mp nearest
  have middle := (abs_sub_upper_le_iff (value_strictMono wide less) number).mp tie.ge
  linarith

theorem unique {other : Nat} (first : format.RoundsTo number pattern)
    (second : format.RoundsTo number other) : pattern = other := by
  have notLess := not_lt_of_roundsTo wide first second
  have notGreater := not_lt_of_roundsTo wide second first
  omega

/-- In the lower half of the way to the next pattern, numbers are rounded down. -/
theorem of_lower_half (finite : pattern < format.infinity) (least : format.value pattern ≤ number)
    (half : 2 * number ≤ format.value pattern + format.value (pattern + 1))
    (even : 2 * number = format.value pattern + format.value (pattern + 1) → pattern % 2 = 0) :
    format.RoundsTo number pattern := by
  refine of_middles wide finite.le (fun other less => ?_) fun other _ greater => ?_
  · have order := value_strictMono wide less
    exact ⟨by linarith, fun tie => absurd tie (by linarith)⟩
  · have order := (value_strictMono wide).monotone (Nat.succ_le_of_lt greater)
    exact ⟨by linarith, fun tie => even (by linarith)⟩

/-- In the upper half of the way to the next pattern, numbers are rounded up. -/
theorem of_upper_half (finite : pattern < format.infinity)
    (greatest : number ≤ format.value (pattern + 1))
    (half : format.value pattern + format.value (pattern + 1) ≤ 2 * number)
    (even : format.value pattern + format.value (pattern + 1) = 2 * number → (pattern + 1) % 2 = 0) :
    format.RoundsTo number (pattern + 1) := by
  refine of_middles wide finite (fun other less => ?_) fun other _ greater => ?_
  · have order := (value_strictMono wide).monotone (Nat.le_of_lt_succ less)
    exact ⟨by linarith, fun tie => even (by linarith)⟩
  · have order := value_strictMono wide greater
    exact ⟨by linarith, fun tie => absurd tie (by linarith)⟩

/-- Numbers past the largest are rounded to infinity. -/
theorem of_overflow (past : format.value format.infinity ≤ number) :
    format.RoundsTo number format.infinity := by
  refine of_middles wide le_rfl (fun other less => ?_) fun other most greater => by omega
  have order := value_strictMono wide less
  exact ⟨by linarith, fun tie => absurd tie (by linarith)⟩

end RoundsTo

section Round

variable {format} (wide : 2 ≤ format.exponentBits) (numerator : Nat) {denominator : Nat}
  (positive : 0 < denominator)

include wide positive

theorem floorPattern_bounds :
    let below := format.floorPattern (numerator * format.unit / denominator)
    format.value below ≤ numerator / denominator ∧ numerator / denominator < format.value (below + 1) := by
  intro below
  have unit : (0 : ℚ) < format.unit := by exact_mod_cast format.unit_pos
  have parts : (0 : ℚ) < denominator := by exact_mod_cast positive
  obtain ⟨least, greatest⟩ := format.floorPattern_spec (numerator * format.unit / denominator)
  rw [Nat.le_div_iff_mul_le positive] at least
  rw [Nat.div_lt_iff_lt_mul positive] at greatest
  rw [value_eq wide, value_eq wide, div_le_div_iff₀ unit parts, div_lt_div_iff₀ parts unit]
  exact ⟨by exact_mod_cast least, by exact_mod_cast greatest⟩

/-- The comparison with the middle of two patterns, made in whole numbers. -/
theorem compare_middle (below : Nat) :
    compare (2 * numerator * format.unit)
        (denominator * (format.magnitude below + format.magnitude (below + 1))) =
      compare (2 * (numerator / denominator : ℚ)) (format.value below + format.value (below + 1)) := by
  have unit : (0 : ℚ) < format.unit := by exact_mod_cast format.unit_pos
  have parts : (0 : ℚ) < denominator := by exact_mod_cast positive
  have scale : (0 : ℚ) < denominator * format.unit := mul_pos parts unit
  have left : ((2 * numerator * format.unit : Nat) : ℚ) =
      2 * (numerator / denominator) * (denominator * format.unit) := by
    push_cast
    field_simp
  have right : ((denominator * (format.magnitude below + format.magnitude (below + 1)) : Nat) : ℚ) =
      (format.value below + format.value (below + 1)) * (denominator * format.unit) := by
    rw [value_eq wide, value_eq wide]
    push_cast
    field_simp
  exact compare_scaled scale left right

/-- Rounding finds the nearest pattern. -/
theorem roundsTo_round :
    format.RoundsTo (numerator / denominator) (format.round numerator denominator) := by
  obtain ⟨least, greatest⟩ := floorPattern_bounds wide numerator positive
  rw [round, compare_middle wide numerator positive]
  generalize format.floorPattern (numerator * format.unit / denominator) = below at *
  by_cases finite : below < format.infinity
  · split
    · next less =>
      rw [compare_lt_iff_lt] at less
      rw [Nat.min_eq_left finite.le]
      exact .of_lower_half wide finite least less.le fun tie => absurd tie less.ne
    · next same =>
      rw [compare_eq_iff_eq] at same
      rcases Nat.mod_two_eq_zero_or_one below with even | odd
      · rw [even, Nat.add_zero, Nat.min_eq_left finite.le]
        exact .of_lower_half wide finite least same.le fun _ => even
      · rw [odd, Nat.min_eq_left finite]
        exact .of_upper_half wide finite greatest.le same.ge fun _ => by omega
    · next greater =>
      rw [compare_gt_iff_gt] at greater
      rw [Nat.min_eq_left finite]
      exact .of_upper_half wide finite greatest.le greater.le fun tie => absurd tie greater.ne
  · have past : format.infinity ≤ below := Nat.le_of_not_lt finite
    rw [Nat.min_eq_right]
    · exact .of_overflow wide (((value_strictMono wide).monotone past).trans least)
    · split
      · exact past
      · exact past.trans (Nat.le_add_right ..)
      · exact past.trans (Nat.le_add_right ..)

theorem round_eq_iff {pattern : Nat} :
    format.round numerator denominator = pattern ↔
      format.RoundsTo (numerator / denominator) pattern := by
  have rounds := roundsTo_round wide numerator positive
  constructor
  · rintro rfl
    exact rounds
  · exact fun other => rounds.unique wide other

end Round

end BinaryFormat

end CilListing
