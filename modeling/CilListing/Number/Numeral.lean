namespace CilListing

/-- Why characters are no numeral below a limit. -/
inductive NumeralFault
  | empty
  | invalidDigit
  | overflow
deriving DecidableEq, Repr

def NumeralFault.message : NumeralFault → String
  | empty => "cannot parse integer from empty string"
  | invalidDigit => "invalid digit found in string"
  | overflow => "number too large to fit in target type"

/-- The value of a digit in a base up to sixteen. Letters count in both cases. -/
def digitValue? (base : Nat) (char : Char) : Option Nat :=
  let code := char.toNat
  let value :=
    if '0' ≤ char ∧ char ≤ '9' then code - '0'.toNat
    else if 'a' ≤ char ∧ char ≤ 'f' then code - 'a'.toNat + 10
    else if 'A' ≤ char ∧ char ≤ 'F' then code - 'A'.toNat + 10
    else base
  if value < base then some value else none

/-- Reads digits behind those already read, from left to right. The first character that is no
digit, or at which the value reaches the limit, decides the fault. -/
def readDigits (base limit : Nat) : Nat → List Char → Except NumeralFault Nat
  | value, [] => .ok value
  | value, char :: rest =>
    match digitValue? base char with
    | none => .error .invalidDigit
    | some digit =>
      if value * base + digit < limit then readDigits base limit (value * base + digit) rest
      else .error .overflow

/-- Reads a numeral. One plus sign may stand in front of the digits. -/
def readNumeral (base limit : Nat) : List Char → Except NumeralFault Nat
  | [] => .error .empty
  | '+' :: char :: rest => readDigits base limit 0 (char :: rest)
  | chars => readDigits base limit 0 chars

end CilListing
