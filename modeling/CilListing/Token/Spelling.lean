import CilListing.Number.Numeral
import CilListing.Text.Blank
import CilListing.Token

namespace CilListing

/-- A text that spells no token, without the blanks around it. -/
structure SpellingFault where
  text : String
  cause : NumeralFault
deriving DecidableEq, Repr

/-- The message and, behind it, its cause. -/
def SpellingFault.messages (fault : SpellingFault) : List String :=
  ["invalid token '" ++ fault.text ++ "'", fault.cause.message]

/-- Tokens are numbers of 32 bits. -/
def Token.limit : Nat := 0x100000000

/-- Reads a number in hexadecimal behind `0x`, and in decimal otherwise. -/
def Token.readNumber : List Char → Except NumeralFault Nat
  | '0' :: 'x' :: rest => readNumeral 16 limit rest
  | '0' :: 'X' :: rest => readNumeral 16 limit rest
  | chars => readNumeral 10 limit chars

/-- The token that a text spells. Blanks around it do not matter. -/
def Token.ofText (text : String) : Except SpellingFault Token :=
  let chars := trimBlanks text.toList
  match readNumber chars with
  | .ok number => .ok ⟨UInt32.ofNat number⟩
  | .error cause => .error ⟨String.ofList chars, cause⟩

end CilListing
