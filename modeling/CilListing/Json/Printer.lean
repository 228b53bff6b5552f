import CilListing.Json.Value
import CilListing.Number.Shortest
import CilListing.Text.Hex

namespace CilListing

namespace Json

/-- A character inside a JSON string. Only quotes, backslashes and control characters
are escaped. -/
def charText : Char → String
  | '"' => "\\\""
  | '\\' => "\\\\"
  | '\x08' => "\\b"
  | '\t' => "\\t"
  | '\n' => "\\n"
  | '\x0C' => "\\f"
  | '\r' => "\\r"
  | char => if char < ' ' then "\\u" ++ hexLower 4 char.toNat else char.toString

def stringText (text : String) : String :=
  "\"" ++ String.join (text.toList.map charText) ++ "\""

/-- A positive number of double precision. Very large and very small ones have an exponent, all
others a digit behind the point. -/
def decimalText (decimal : Decimal) : String :=
  if -5 < decimal.places ∧ decimal.places ≤ 16 then
    if decimal.exponent < 0 then decimal.plain else decimal.plain ++ ".0"
  else decimal.scientific

/-- The text of a floating point number. Of two equally near decimals the even one is taken. -/
def floatText (bits : Nat) : String :=
  let pattern := bits % BinaryFormat.double.signBit
  let magnitude :=
    if pattern = 0 then "0.0" else decimalText (BinaryFormat.double.shortest .even pattern)
  if bits < BinaryFormat.double.signBit then magnitude else "-" ++ magnitude

/-- The blanks in front of a line. -/
def indentation (depth : Nat) : String := String.ofList (List.replicate (2 * depth) ' ')

/-- Lines one step further in between two brackets, parted by commas. -/
def block (opening closing : String) (depth : Nat) (lines : List String) : String :=
  if lines.isEmpty then opening ++ closing
  else
    opening ++ "\n" ++
      ",\n".intercalate (lines.map fun line => indentation (depth + 1) ++ line) ++ "\n" ++
      indentation depth ++ closing

/-- The text of a value over several lines, for a place `depth` steps in. -/
def textAt (depth : Nat) : Json → String
  | null => "null"
  | bool value => toString value
  | integer value => toString value
  | float bits => floatText bits
  | string text => stringText text
  | array items => block "[" "]" depth (items.map fun item => item.textAt (depth + 1))
  | object members =>
    block "\x7b" "\x7d" depth (members.attach.map fun ⟨(key, value), _⟩ =>
      stringText key ++ ": " ++ value.textAt (depth + 1))
termination_by value => sizeOf value
decreasing_by
  · have smaller := List.sizeOf_lt_of_mem ‹_ ∈ items›
    rw [array.sizeOf_spec]
    omega
  · next within =>
    have smaller := List.sizeOf_lt_of_mem within
    rw [Prod.mk.sizeOf_spec] at smaller
    rw [object.sizeOf_spec]
    omega

def text (value : Json) : String := value.textAt 0

end Json

end CilListing
