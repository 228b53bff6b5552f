import CilListing.Json.Value
import CilListing.Number.Binary
import CilListing.Number.Numeral

namespace CilListing

/-- The parts of a JSON number as written. -/
structure NumberText where
  negative : Bool
  whole : List Char
  fraction : Option (List Char)
  exponent : Option (Bool × List Char)
deriving DecidableEq, Repr

def isDigit (char : Char) : Bool := '0' ≤ char && char ≤ '9'

/-- Splits off the digits at the front. -/
def splitDigits (chars : List Char) : List Char × List Char :=
  (chars.takeWhile isDigit, chars.dropWhile isDigit)

theorem length_splitDigits (chars : List Char) :
    (splitDigits chars).1.length + (splitDigits chars).2.length = chars.length := by
  rw [splitDigits, ← List.length_append, List.takeWhile_append_dropWhile]

namespace NumberText

/-- The whole part is a zero alone or does not begin with one. -/
def readWhole? : List Char → Option (List Char × List Char)
  | '0' :: rest => some (['0'], rest)
  | chars =>
    match splitDigits chars with
    | ([], _) => none
    | (digits, rest) => some (digits, rest)

/-- A point needs a digit behind it. -/
def readFraction? : List Char → Option (Option (List Char) × List Char)
  | '.' :: rest =>
    match splitDigits rest with
    | ([], _) => none
    | (digits, rest) => some (some digits, rest)
  | chars => some (none, chars)

/-- The sign of an exponent is negative or may be left out. -/
def readSign : List Char → Bool × List Char
  | '-' :: rest => (true, rest)
  | '+' :: rest => (false, rest)
  | chars => (false, chars)

/-- An exponent mark needs a digit behind it. -/
def readExponent? : List Char → Option (Option (Bool × List Char) × List Char)
  | mark :: rest =>
    if mark = 'e' ∨ mark = 'E' then
      let (negative, rest) := readSign rest
      match splitDigits rest with
      | ([], _) => none
      | (digits, rest) => some (some (negative, digits), rest)
    else some (none, mark :: rest)
  | [] => some (none, [])

def readUnsigned? (negative : Bool) (chars : List Char) : Option (NumberText × List Char) :=
  match readWhole? chars with
  | none => none
  | some (whole, chars) =>
    match readFraction? chars with
    | none => none
    | some (fraction, chars) =>
      match readExponent? chars with
      | none => none
      | some (exponent, chars) => some (⟨negative, whole, fraction, exponent⟩, chars)

/-- Reads a number at the front of a text. -/
def read? : List Char → Option (NumberText × List Char)
  | '-' :: rest => readUnsigned? true rest
  | chars => readUnsigned? false chars

theorem readWhole?_shorter {chars digits rest : List Char}
    (found : readWhole? chars = some (digits, rest)) : rest.length < chars.length := by
  unfold readWhole? at found
  split at found
  · cases found
    exact Nat.lt_succ_self _
  · split at found
    · cases found
    · next nonempty parts =>
      cases found
      have length := length_splitDigits chars
      simp only [parts] at length
      have positive := List.length_pos_iff.mpr nonempty
      omega

theorem readFraction?_length {chars rest : List Char} {digits : Option (List Char)}
    (found : readFraction? chars = some (digits, rest)) : rest.length ≤ chars.length := by
  unfold readFraction? at found
  split at found
  · next chars =>
    split at found
    · cases found
    · next parts =>
      cases found
      have length := length_splitDigits chars
      simp only [parts] at length
      rw [List.length_cons]
      omega
  · cases found
    exact Nat.le_refl _

theorem length_readSign (chars : List Char) : (readSign chars).2.length ≤ chars.length := by
  unfold readSign
  split
  · exact Nat.le_succ _
  · exact Nat.le_succ _
  · exact Nat.le_refl _

theorem readExponent?_length {chars rest : List Char} {parts : Option (Bool × List Char)}
    (found : readExponent? chars = some (parts, rest)) : rest.length ≤ chars.length := by
  unfold readExponent? at found
  split at found
  · next mark chars =>
    have sign := length_readSign chars
    have length := length_splitDigits (readSign chars).2
    split at found
    · simp only at found
      split at found
      · cases found
      · next digits =>
        simp only [digits] at length
        cases found
        rw [List.length_cons]
        omega
    · cases found
      exact Nat.le_refl _
  · cases found
    exact Nat.le_refl _

theorem readUnsigned?_shorter {negative : Bool} {chars rest : List Char} {number : NumberText}
    (found : readUnsigned? negative chars = some (number, rest)) : rest.length < chars.length := by
  unfold readUnsigned? at found
  split at found
  · cases found
  · next whole =>
    have wholeShorter := readWhole?_shorter whole
    split at found
    · cases found
    · next fraction =>
      have fractionLength := readFraction?_length fraction
      split at found
      · cases found
      · next exponent =>
        have exponentLength := readExponent?_length exponent
        cases found
        omega

theorem read?_shorter {chars rest : List Char} {number : NumberText}
    (found : read? chars = some (number, rest)) : rest.length < chars.length := by
  unfold read? at found
  split at found
  · have shorter := readUnsigned?_shorter found
    rw [List.length_cons]
    omega
  · exact readUnsigned?_shorter found

/-- The value that a digit adds. -/
def digit (char : Char) : Nat := char.toNat - '0'.toNat

/-- Significands have 64 bits. -/
def significandLimit : Nat := 0x10000000000000000

/-- Takes digits into a significand as long as they fit. Gives the digits that do not. -/
def accumulate : Nat → List Char → Nat × List Char
  | significand, [] => (significand, [])
  | significand, char :: rest =>
    if significand * 10 + digit char < significandLimit then
      accumulate (significand * 10 + digit char) rest
    else (significand, char :: rest)

def powerOfTen (exponent : Nat) : Nat := BinaryFormat.double.round (Nat.pow 10 exponent) 1

/-- The greatest power of ten that is a finite number. -/
def maxPower : Nat := 308

/-- Divides by a power of ten, in steps where the power is no finite number. -/
def scaleDown (pattern exponent : Nat) : Nat :=
  if exponent ≤ maxPower then BinaryFormat.double.divide pattern (powerOfTen exponent)
  else if pattern = 0 then pattern
  else scaleDown (BinaryFormat.double.divide pattern (powerOfTen maxPower)) (exponent - maxPower)
termination_by exponent
decreasing_by
  rw [maxPower] at *
  omega

/-- Multiplies by a power of ten if the product is a finite number. -/
def scaleUp? (pattern exponent : Nat) : Option Nat :=
  if exponent ≤ maxPower then
    let product := BinaryFormat.double.multiply pattern (powerOfTen exponent)
    if product = BinaryFormat.double.infinity then none else some product
  else if pattern = 0 then some pattern
  else none

/-- The floating point number `significand * 10 ^ exponent`, rounded at each step. -/
def float? (negative : Bool) (significand : Nat) (exponent : Int) : Option Json :=
  let pattern := BinaryFormat.double.round significand 1
  let scaled :=
    if exponent < 0 then some (scaleDown pattern (-exponent).toNat)
    else scaleUp? pattern exponent.toNat
  scaled.map fun pattern =>
    .float (if negative then BinaryFormat.double.signBit + pattern else pattern)

/-- The exponent as written. -/
def writtenExponent : Option (Bool × List Char) → Int
  | none => 0
  | some (negative, digits) =>
    let value := digits.foldl (fun value char => value * 10 + digit char) 0
    if negative then -(value : Int) else value

/-- A number without fraction and exponent that fits 64 bits is an integer. Negative zero is not. -/
def integer? (negative : Bool) (significand : Nat) : Option Json :=
  if negative then
    if 0 < significand ∧ significand ≤ 0x8000000000000000 then some (.integer (-(significand : Int)))
    else float? true significand 0
  else some (.integer significand)

/-- The value of a number. Digits of the whole part that do not fit the significand count as
zeros, those of the fraction not at all. -/
def value? (number : NumberText) : Option Json :=
  let (significand, dropped) := accumulate 0 number.whole
  if dropped.isEmpty ∧ number.fraction.isNone ∧ number.exponent.isNone then
    integer? number.negative significand
  else
    let fraction := number.fraction.getD []
    let (significand, ignored) := accumulate significand fraction
    let places := fraction.length - ignored.length
    float? number.negative significand
      (dropped.length - places + writtenExponent number.exponent)

end NumberText

end CilListing
