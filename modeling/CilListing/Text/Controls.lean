namespace CilListing

/-!
Control sequences steer a terminal and are not meant to be read. An escape character begins one.
Here a text loses its control sequences and all other control characters but the blank ones.
-/

/-- How far a control sequence has come. -/
inductive ControlState
  | text
  | escape
  | escapeMark
  | command
  | deviceStart
  | deviceParameter
  | deviceMark
  | content
  | title
deriving DecidableEq, Repr

/-- A control character that moves to another place on the page. -/
def isBlankControl (char : Char) : Bool :=
  char == '\t' || char == '\n' || char == '\x0C' || char == '\r'

/-- Whether a character outside of control sequences is to be read. -/
def isReadable (char : Char) : Bool :=
  (' ' ≤ char && char != '\x7F') || isBlankControl char

namespace ControlState

/-- The state behind the character that tells sequences apart. -/
def ofIntroducer : Char → ControlState
  | '[' => command
  | ']' => title
  | 'P' => deviceStart
  | 'X' | '^' | '_' => content
  | _ => text

/-- The byte `0x9C` ends content, also as a part of another character. -/
def endsContent (char : Char) : Bool := (String.utf8EncodeChar char).contains 0x9C

/-- The state behind a character that neither begins a sequence nor breaks one off. -/
def advance (state : ControlState) (char : Char) : ControlState :=
  let isMark := ' ' ≤ char && char ≤ '/'
  let isParameter := '0' ≤ char && char ≤ '?'
  let isFinal := '@' ≤ char && char ≤ '~'
  match state with
  | text => text
  | escape =>
    if isMark then escapeMark
    else if isParameter || isFinal then ofIntroducer char
    else escape
  | escapeMark => if isParameter || isFinal then text else escapeMark
  | command => if isFinal then text else command
  | deviceStart =>
    if isFinal then content
    else if isParameter then deviceParameter
    else if isMark then deviceMark
    else deviceStart
  | deviceParameter =>
    if isFinal || ('<' ≤ char && char ≤ '?') then content
    else if isMark then deviceMark
    else deviceParameter
  | deviceMark => if isParameter || isFinal then content else deviceMark
  | content => if endsContent char then text else content
  | title => if char = '\x07' then text else title

/-- The state behind a character. An escape begins a new sequence wherever it stands, and two
other characters break every sequence off. -/
def next (state : ControlState) (char : Char) : ControlState :=
  if char = '\x1B' then escape
  else if char = '\x18' ∨ char = '\x1A' then text
  else state.advance char

/-- Whether a character at this state is to be read. Short sequences let blanks through. -/
def shows (state : ControlState) (char : Char) : Bool :=
  match state with
  | text => isReadable char
  | escape | escapeMark | command => isBlankControl char
  | _ => false

end ControlState

/-- A place in a text with control sequences. A blank within a sequence suspends it, up to the
next character that is not to be read. -/
structure ControlPlace where
  state : ControlState
  suspended : Bool
deriving DecidableEq, Repr

namespace ControlPlace

def start : ControlPlace := ⟨.text, false⟩

def shows (place : ControlPlace) (char : Char) : Bool :=
  if place.suspended then isReadable char else place.state.shows char

/-- The place behind a character. A suspended sequence is forgotten at a character
beyond ASCII. -/
def next (place : ControlPlace) (char : Char) : ControlPlace :=
  if place.shows char then
    if '\x7F' < char then start else ⟨place.state, place.state != .text⟩
  else ⟨place.state.next char, false⟩

end ControlPlace

/-- The characters to be read from a place on. -/
def readableFrom : ControlPlace → List Char → List Char
  | _, [] => []
  | place, char :: rest =>
    if place.shows char then char :: readableFrom (place.next char) rest
    else readableFrom (place.next char) rest

/-- A text without control characters other than blanks. -/
def stripControls (text : String) : String := String.ofList (readableFrom .start text.toList)

end CilListing
