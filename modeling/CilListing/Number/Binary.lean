namespace CilListing

/-- A binary floating point format by its number of stored fraction bits and
of exponent bits. A pattern is a sign bit, the exponent and the fraction. -/
structure BinaryFormat where
  fractionBits : Nat
  exponentBits : Nat
deriving DecidableEq, Repr

namespace BinaryFormat

def single : BinaryFormat := ⟨23, 8⟩

def double : BinaryFormat := ⟨52, 11⟩

variable (format : BinaryFormat)

/-- The number of fraction patterns, which is also the least normal pattern. -/
def fractions : Nat := Nat.pow 2 format.fractionBits

/-- The pattern of infinity without a sign: every larger one is no number. -/
def infinity : Nat := (Nat.pow 2 format.exponentBits - 1) * format.fractions

/-- The pattern of the sign bit alone. -/
def signBit : Nat := Nat.pow 2 (format.fractionBits + format.exponentBits)

/-- How many times the least positive number goes into one, as a power of two. -/
def unitLog : Nat := Nat.pow 2 (format.exponentBits - 1) + format.fractionBits - 2

/-- How many times the least positive number goes into one. -/
def unit : Nat := Nat.pow 2 format.unitLog

/-- The magnitude of an unsigned pattern, counted in least positive numbers. The
rule is kept up for the exponent of infinity, where it gives the number that would follow. -/
def magnitude (pattern : Nat) : Nat :=
  if pattern < format.fractions then pattern
  else
    (format.fractions + pattern % format.fractions) * Nat.pow 2 (pattern / format.fractions - 1)

/-- The largest unsigned pattern whose magnitude is at most `count`. -/
def floorPattern (count : Nat) : Nat :=
  let shift := count.log2 - format.fractionBits
  shift * format.fractions + count / Nat.pow 2 shift

/-- The unsigned pattern nearest to `numerator / denominator`. A number halfway between
two patterns goes to the even one, and a number past the largest goes to infinity. -/
def round (numerator denominator : Nat) : Nat :=
  let below := format.floorPattern (numerator * format.unit / denominator)
  let sides := format.magnitude below + format.magnitude (below + 1)
  let nearest :=
    match compare (2 * numerator * format.unit) (denominator * sides) with
    | .lt => below
    | .eq => below + below % 2
    | .gt => below + 1
  min nearest format.infinity

/-- The nearest pattern to the product of two finite ones. -/
def multiply (left right : Nat) : Nat :=
  format.round (format.magnitude left * format.magnitude right) (format.unit * format.unit)

/-- The nearest pattern to the quotient of two finite ones. -/
def divide (left right : Nat) : Nat :=
  format.round (format.magnitude left) (format.magnitude right)

end BinaryFormat

end CilListing
