import CilListing.Json.Lexeme

namespace CilListing

/-- An array or object whose end has not come yet. An object waits for the value of a key. What
is complete stands in reverse order. -/
inductive Layer
  | array (items : List Json)
  | object (members : List (String × Json)) (key : String)

/-- What the reader waits for. The members of an object stand in reverse order. -/
inductive Awaiting
  | value
  | firstItem
  | firstKey
  | key (members : List (String × Json))
  | colon (members : List (String × Json)) (key : String)
  | next (value : Json)

/-- The state of a reader between two lexemes, with the innermost layer first. -/
structure Reading where
  awaiting : Awaiting
  layers : List Layer

namespace Reading

/-- Arrays and objects may lie within each other up to this depth. -/
def maxDepth : Nat := 127

def start : Reading := ⟨.value, []⟩

/-- Takes a lexeme as the beginning of a value. -/
def beginValue? (layers : List Layer) : Lexeme → Option Reading
  | .scalar value => some ⟨.next value, layers⟩
  | .string text => some ⟨.next (.string text), layers⟩
  | .openArray => if layers.length < maxDepth then some ⟨.firstItem, .array [] :: layers⟩ else none
  | .openObject => if layers.length < maxDepth then some ⟨.firstKey, layers⟩ else none
  | _ => none

/-- Takes a lexeme behind a value that belongs to the innermost layer. -/
def endValue? (value : Json) : List Layer → Lexeme → Option Reading
  | .array items :: layers, .comma => some ⟨.value, .array (value :: items) :: layers⟩
  | .array items :: layers, .closeArray => some ⟨.next (.array (value :: items).reverse), layers⟩
  | .object members key :: layers, .comma => some ⟨.key ((key, value) :: members), layers⟩
  | .object members key :: layers, .closeObject =>
    some ⟨.next (.object (Json.sortMembers ((key, value) :: members).reverse)), layers⟩
  | _, _ => none

/-- Takes one lexeme. -/
def step? (reading : Reading) (lexeme : Lexeme) : Option Reading :=
  match reading.awaiting with
  | .value => beginValue? reading.layers lexeme
  | .firstItem =>
    match lexeme, reading.layers with
    | .closeArray, _ :: layers => some ⟨.next (.array []), layers⟩
    | lexeme, layers => beginValue? layers lexeme
  | .firstKey =>
    match lexeme with
    | .closeObject => some ⟨.next (.object []), reading.layers⟩
    | .string key => some ⟨.colon [] key, reading.layers⟩
    | _ => none
  | .key members =>
    match lexeme with
    | .string key => some ⟨.colon members key, reading.layers⟩
    | _ => none
  | .colon members key =>
    match lexeme with
    | .colon => some ⟨.value, .object members key :: reading.layers⟩
    | _ => none
  | .next value => endValue? value reading.layers lexeme

/-- Takes lexemes one after another. -/
def run? : Reading → List Lexeme → Option Reading
  | reading, [] => some reading
  | reading, lexeme :: rest =>
    match reading.step? lexeme with
    | none => none
    | some next => run? next rest

/-- The value that has been read when nothing is left open. -/
def result? (reading : Reading) : Option Json :=
  match reading.awaiting, reading.layers with
  | .next value, [] => some value
  | _, _ => none

end Reading

/-- The value that a text denotes, if it is a JSON text. -/
def Json.parse? (text : List Char) : Option Json :=
  match Lexeme.readAll text with
  | none => none
  | some lexemes =>
    match Reading.start.run? lexemes with
    | none => none
    | some reading => reading.result?

end CilListing
