import CilListing.Text.Hex
import CilListing.Text.Visible

namespace CilListing

/-- A character inside a diagnostic. Hidden characters are named by their code point. -/
def diagnosticChar : Char → String
  | '\x00' => "\\0"
  | '\t' => "\\t"
  | '\r' => "\\r"
  | '\n' => "\\n"
  | '\\' => "\\\\"
  | '"' => "\\\""
  | char =>
    if isVisible char then char.toString
    else "\\u\x7b" ++ hexLower 1 char.toNat ++ "\x7d"

/-- A text between quotes in which every character can be seen. -/
def diagnosticQuote (text : String) : String :=
  "\"" ++ String.join (text.toList.map diagnosticChar) ++ "\""

end CilListing
