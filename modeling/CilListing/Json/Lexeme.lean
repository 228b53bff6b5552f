import CilListing.Json.Number

namespace CilListing

/-- The smallest pieces of a JSON text. Numbers and words are values already. -/
inductive Lexeme
  | openArray
  | closeArray
  | openObject
  | closeObject
  | comma
  | colon
  | string (text : String)
  | scalar (value : Json)

namespace Lexeme

/-- The characters that may stand between lexemes. -/
def isSpace (char : Char) : Bool := char == ' ' || char == '\n' || char == '\t' || char == '\r'

/-- The number that four hexadecimal digits stand for. -/
def hexUnit? (a b c d : Char) : Option Nat :=
  match digitValue? 16 a, digitValue? 16 b, digitValue? 16 c, digitValue? 16 d with
  | some a, some b, some c, some d => some (((a * 16 + b) * 16 + c) * 16 + d)
  | _, _, _, _ => none

/-- Units that begin a pair, and those that end one. Neither is a character of its own. -/
def isLeading (unit : Nat) : Bool := 0xD800 ≤ unit && unit ≤ 0xDBFF

def isTrailing (unit : Nat) : Bool := 0xDC00 ≤ unit && unit ≤ 0xDFFF

/-- The character of a pair of units. -/
def pairChar (leading trailing : Nat) : Char :=
  Char.ofNat (0x10000 + (leading - 0xD800) * 0x400 + (trailing - 0xDC00))

/-- The character that a backslash and a letter stand for. -/
def shortEscape? : Char → Option Char
  | '"' => some '"'
  | '\\' => some '\\'
  | '/' => some '/'
  | 'b' => some '\x08'
  | 'f' => some '\x0C'
  | 'n' => some '\n'
  | 'r' => some '\r'
  | 't' => some '\t'
  | _ => none

/-- Reads an escape from behind its backslash: a letter, or four digits behind a `u`. A unit that
begins a pair needs the other one right behind it. -/
def readEscape? : List Char → Option (Char × List Char)
  | 'u' :: a :: b :: c :: d :: rest =>
    match hexUnit? a b c d with
    | none => none
    | some unit =>
      if isTrailing unit then none
      else if isLeading unit then
        match rest with
        | '\\' :: 'u' :: e :: f :: g :: h :: rest =>
          match hexUnit? e f g h with
          | some second => if isTrailing second then some (pairChar unit second, rest) else none
          | none => none
        | _ => none
      else some (Char.ofNat unit, rest)
  | letter :: rest => (shortEscape? letter).map fun char => (char, rest)
  | [] => none

theorem readEscape?_shorter {chars rest : List Char} {char : Char}
    (found : readEscape? chars = some (char, rest)) : rest.length < chars.length := by
  unfold readEscape? at found
  repeat' split at found
  all_goals simp only [reduceCtorEq, Option.some.injEq, Prod.mk.injEq, Option.map_eq_some_iff] at found
  · obtain ⟨_, rfl⟩ := found
    simp only [List.length_cons]
    omega
  · obtain ⟨_, rfl⟩ := found
    simp only [List.length_cons]
    omega
  · obtain ⟨_, _, _, rfl⟩ := found
    exact Nat.lt_succ_self _

/-- Reads a string behind its opening quote up to the closing one, and behind the characters already
read, which stand in reverse order. Control characters have to be escaped. -/
def readString? (done : List Char) (chars : List Char) : Option (List Char × List Char) :=
  match chars with
  | [] => none
  | '"' :: rest => some (done.reverse, rest)
  | '\\' :: rest =>
    match _found : readEscape? rest with
    | none => none
    | some (char, rest) => readString? (char :: done) rest
  | char :: rest => if char < ' ' then none else readString? (char :: done) rest
termination_by chars.length
decreasing_by
  · have shorter := readEscape?_shorter _found
    rw [List.length_cons]
    omega
  · exact Nat.lt_succ_self _

theorem readString?_shorter {done chars text rest : List Char}
    (found : readString? done chars = some (text, rest)) : rest.length < chars.length := by
  fun_induction readString? done chars with
  | case1 => cases found
  | case2 =>
    cases found
    exact Nat.lt_succ_self _
  | case3 => cases found
  | case4 _ _ _ _ escaped ih =>
    have shorter := readEscape?_shorter escaped
    have later := ih found
    rw [List.length_cons]
    omega
  | case5 => cases found
  | case6 _ _ _ _ _ _ ih =>
    have later := ih found
    rw [List.length_cons]
    omega

/-- Reads the lexeme at the front of a text that does not begin with a space. -/
def read? : List Char → Option (Lexeme × List Char)
  | '[' :: rest => some (openArray, rest)
  | ']' :: rest => some (closeArray, rest)
  | '\x7b' :: rest => some (openObject, rest)
  | '\x7d' :: rest => some (closeObject, rest)
  | ',' :: rest => some (comma, rest)
  | ':' :: rest => some (colon, rest)
  | '"' :: rest => (readString? [] rest).map fun (text, rest) => (string (String.ofList text), rest)
  | 'n' :: 'u' :: 'l' :: 'l' :: rest => some (scalar .null, rest)
  | 't' :: 'r' :: 'u' :: 'e' :: rest => some (scalar (.bool true), rest)
  | 'f' :: 'a' :: 'l' :: 's' :: 'e' :: rest => some (scalar (.bool false), rest)
  | chars =>
    match NumberText.read? chars with
    | none => none
    | some (number, rest) => number.value?.map fun value => (scalar value, rest)

theorem read?_shorter {chars rest : List Char} {lexeme : Lexeme}
    (found : read? chars = some (lexeme, rest)) : rest.length < chars.length := by
  unfold read? at found
  split at found
  case h_7 rest =>
    obtain ⟨⟨text, later⟩, inside, same⟩ := Option.map_eq_some_iff.mp found
    have shorter := readString?_shorter inside
    cases same
    rw [List.length_cons]
    omega
  case h_11 =>
    split at found
    · cases found
    · next number =>
      obtain ⟨value, _, same⟩ := Option.map_eq_some_iff.mp found
      have shorter := NumberText.read?_shorter number
      cases same
      exact shorter
  all_goals
    cases found
    simp only [List.length_cons]
    omega

/-- Reads lexemes behind those already read, which stand in reverse order. -/
def readAllFrom (done : List Lexeme) (chars : List Char) : Option (List Lexeme) :=
  match chars with
  | [] => some done.reverse
  | char :: rest =>
    if isSpace char then readAllFrom done rest
    else
      match _found : read? (char :: rest) with
      | none => none
      | some (lexeme, rest) => readAllFrom (lexeme :: done) rest
termination_by chars.length
decreasing_by
  · exact Nat.lt_succ_self _
  · exact read?_shorter _found

/-- The lexemes of a whole text. -/
def readAll (chars : List Char) : Option (List Lexeme) := readAllFrom [] chars

end Lexeme

end CilListing
