import CilListing.Instruction

namespace CilListing

/-- A place in a sequence of bytes, from which reading goes forward only. -/
structure Cursor where
  data : List UInt8
  position : Nat
deriving DecidableEq, Repr

namespace Cursor

def start (data : List UInt8) : Cursor := ⟨data, 0⟩

/-- The bytes from the position on. -/
def rest (cursor : Cursor) : List UInt8 := cursor.data.drop cursor.position

def length (cursor : Cursor) : Nat := cursor.data.length

def remaining (cursor : Cursor) : Nat := cursor.length - cursor.position

def isEmpty (cursor : Cursor) : Bool := cursor.data.isEmpty

def hasMore (cursor : Cursor) : Bool := cursor.position < cursor.length

/-- The cursor `count` bytes on, whether there are as many or not. -/
def forward (cursor : Cursor) (count : Nat) : Cursor :=
  { cursor with position := cursor.position + count }

/-- The fault of reading more bytes than remain. -/
def overrun : Error := .outOfBounds .unnamed

/-- The byte at the position, which stays. -/
def peek (cursor : Cursor) : Except Error UInt8 :=
  match cursor.rest with
  | byte :: _ => .ok byte
  | [] => .error overrun

/-- Moves over `count` bytes if as many remain. -/
def advance (cursor : Cursor) (count : Nat) : Except Error Unit × Cursor :=
  if cursor.remaining < count then (.error overrun, cursor)
  else (.ok (), cursor.forward count)

/-- Moves to the end and counts the bytes moved over. -/
def skipRest (cursor : Cursor) : Nat × Cursor :=
  (cursor.remaining, { cursor with position := cursor.length })

/-- Reads a value and moves behind it. Where too few bytes remain the cursor stays. -/
def read (cursor : Cursor) (scalar : Scalar) : Except Error Scalar.Value × Cursor :=
  match scalar.read? cursor.rest with
  | some value => (.ok value, cursor.forward scalar.width)
  | none => (.error overrun, cursor)

/-- A rendered operand with the bytes it took. -/
structure DecodedOperand where
  text : Option String
  size : Nat
  token : Option Token
deriving DecidableEq, Repr

/-- Decodes an operand and moves behind it. -/
def operand (cursor : Cursor) (backend : Backend) (kind : OperandKind) :
    Traced (DecodedOperand × Cursor) :=
  let operand := Operand.read kind cursor.rest
  let next := cursor.forward operand.width
  ((operand.text backend next.position).map fun text =>
    (⟨text, operand.width, operand.token?⟩, next)).after
      ((operand.notes cursor.position).map .noted)

/-- Decodes one instruction and moves behind it. Without one the cursor moves to the end, which is
behind an escape byte that stands alone. -/
def instruction (cursor : Cursor) (backend : Backend) (policy : UnknownPolicy) :
    Traced (Except Error Instruction × Cursor) :=
  match Frame.read? cursor.rest with
  | some frame =>
    (frame.decode backend policy cursor.position).map fun instruction =>
      (.ok instruction, cursor.forward frame.width)
  | none => ⟨(.error overrun, cursor.forward cursor.rest.length), []⟩

/-- Decodes all instructions that remain and moves to the end. -/
def stream (cursor : Cursor) (backend : Backend) (policy : UnknownPolicy) :
    Traced (List Instruction × Cursor) :=
  (decodeStream backend policy cursor.position cursor.rest).map fun instructions =>
    (instructions, cursor.skipRest.2)

end Cursor

end CilListing
