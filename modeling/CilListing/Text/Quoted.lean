namespace CilListing

/-- A character as it stands inside a quoted literal. The quote, the backslash and the
characters that would break the line take two places. -/
def escapeChar : Char → List Char
  | '"' => ['\\', '"']
  | '\\' => ['\\', '\\']
  | '\n' => ['\\', 'n']
  | '\r' => ['\\', 'r']
  | '\t' => ['\\', 't']
  | '\x00' => ['\\', '0']
  | char => [char]

/-- The character that a backslash and `char` stand for. -/
def unescapeChar : Char → Char
  | 'n' => '\n'
  | 'r' => '\r'
  | 't' => '\t'
  | '0' => '\x00'
  | char => char

/-- A text on a single line between double quotes. -/
def quote (text : String) : String :=
  String.ofList ('"' :: (text.toList.flatMap escapeChar ++ ['"']))

/-- Reads the inside of a quoted literal up to its closing quote, and
gives back what follows the quote. -/
def readQuoted? : List Char → Option (List Char × List Char)
  | [] => none
  | '"' :: rest => some ([], rest)
  | '\\' :: char :: rest => (readQuoted? rest).map fun (text, rest) => (unescapeChar char :: text, rest)
  | char :: rest => (readQuoted? rest).map fun (text, rest) => (char :: text, rest)

/-- Reads a quoted literal from its opening quote on. -/
def unquote? : List Char → Option (String × List Char)
  | '"' :: rest => (readQuoted? rest).map fun (text, rest) => (String.ofList text, rest)
  | _ => none

theorem quote_toList (text : String) :
    (quote text).toList = '"' :: (text.toList.flatMap escapeChar ++ ['"']) :=
  String.toList_ofList

end CilListing
