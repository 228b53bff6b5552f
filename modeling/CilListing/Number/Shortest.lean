import CilListing.Number.Binary

namespace CilListing

/-- A decimal number `digits * 10 ^ exponent`. -/
structure Decimal where
  digits : Nat
  exponent : Int
deriving DecidableEq, Repr

namespace Decimal

/-- Numerator and denominator of the number, in powers of ten that need no reduction. -/
def ratio (decimal : Decimal) : Nat × Nat :=
  (decimal.digits * Nat.pow 10 decimal.exponent.toNat, Nat.pow 10 (-decimal.exponent).toNat)

/-- The number written out in full, without an exponent. Zeros fill the places
between the digits and the point. -/
def plain (decimal : Decimal) : String :=
  let digits := Nat.toDigits 10 decimal.digits
  let places := (-decimal.exponent).toNat
  if places = 0 then String.ofList (digits ++ List.replicate decimal.exponent.toNat '0')
  else
    let padded := digits.leftpad (places + 1) '0'
    let whole := padded.length - places
    String.ofList (padded.take whole ++ '.' :: padded.drop whole)

/-- The number of places in front of the point. It counts down from zero for each zero right
behind the point. -/
def places (decimal : Decimal) : Int :=
  (Nat.toDigits 10 decimal.digits).length + decimal.exponent

/-- The number with one digit in front of the point and a signed exponent. -/
def scientific (decimal : Decimal) : String :=
  let power := decimal.places - 1
  let digits :=
    match Nat.toDigits 10 decimal.digits with
    | first :: second :: rest => first :: '.' :: second :: rest
    | single => single
  String.ofList digits ++ (if power < 0 then "e-" else "e+") ++ toString power.natAbs

end Decimal

/-- Which of two decimals stands for a number halfway between them. -/
inductive Tie
  | upper
  | even
deriving DecidableEq, Repr

/-- The least `power` such that `numerator / denominator` is below `10 ^ power`,
for a positive number. -/
def decimalPower (numerator denominator : Nat) : Int :=
  if denominator ≤ numerator then (Nat.toDigits 10 (numerator / denominator)).length
  else
    let inverse := (denominator + numerator - 1) / numerator
    1 - ((Nat.toDigits 10 (inverse - 1)).length : Int)

namespace BinaryFormat

variable (format : BinaryFormat)

/-- Whether a decimal lies nearer to the pattern than to any other, so that
it reads back as the pattern. -/
def readsAs (pattern : Nat) (decimal : Decimal) : Bool :=
  format.round decimal.ratio.1 decimal.ratio.2 == pattern

/-- The decimal at `exponent` that reads back as the pattern. Only the two neighbours
of the exact number can; of both the nearer one is taken. -/
def decimalAt? (tie : Tie) (pattern : Nat) (exponent : Int) : Option Decimal :=
  let numerator := format.magnitude pattern * Nat.pow 10 (-exponent).toNat
  let denominator := format.unit * Nat.pow 10 exponent.toNat
  let below : Decimal := ⟨numerator / denominator, exponent⟩
  let above : Decimal := ⟨numerator / denominator + 1, exponent⟩
  let belowReads := format.readsAs pattern below
  let aboveReads := format.readsAs pattern above
  if belowReads && aboveReads then
    match compare (2 * (numerator % denominator)) denominator with
    | .lt => some below
    | .eq => if tie = .even ∧ below.digits % 2 = 0 then some below else some above
    | .gt => some above
  else if belowReads then some below
  else if aboveReads then some above
  else none

/-- The magnitude of the pattern in full: a power of five takes the place of the unit. -/
def exactDecimal (pattern : Nat) : Decimal :=
  ⟨format.magnitude pattern * Nat.pow 5 format.unitLog, -(format.unitLog : Int)⟩

/-- The decimal with the fewest digits that reads back as a positive pattern. Exponents
are tried downwards from the first at which the number has no digit of its own. -/
def shortest (tie : Tie) (pattern : Nat) : Decimal :=
  let top := decimalPower (format.magnitude pattern) format.unit
  ((List.range (format.fractionBits + 2)).findSome? fun (step : Nat) =>
    format.decimalAt? tie pattern (top - step)).getD (format.exactDecimal pattern)

/-- The text of a pattern without its sign, always in full. -/
def magnitudeText (pattern : Nat) : String :=
  if pattern = 0 then "0"
  else if pattern < format.infinity then (format.shortest .upper pattern).plain
  else "inf"

/-- The text of a signed pattern. What is no number has one text whatever its bits. -/
def text (bits : Nat) : String :=
  let pattern := bits % format.signBit
  if format.infinity < pattern then "NaN"
  else if bits < format.signBit then format.magnitudeText pattern
  else "-" ++ format.magnitudeText pattern

end BinaryFormat

end CilListing
