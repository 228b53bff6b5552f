import CilListing.Error
import CilListing.Opcode.Table

namespace CilListing

/-- The kinds of names a token can be looked up under. -/
inductive Category
  | string
  | method
  | field
  | type
deriving DecidableEq, Repr

def Category.name : Category → String
  | string => "String"
  | method => "Method"
  | field => "Field"
  | type => "Type"

/-- How much a note matters, from the least to the most. -/
inductive Level
  | trace
  | debug
  | warn
deriving DecidableEq, Repr

def Level.text : Level → String
  | trace => "TRACE"
  | debug => "DEBUG"
  | warn => "WARN"

/-- The label of a code position in listings and branch operands. -/
def label (offset : Nat) : String := "IL_" ++ hexUpper 4 offset

/-- The bytes of an opcode as they stand in the code. -/
def codeBytesText (code : UInt16) : String :=
  if code > 0xFF then "0x" ++ hexUpper 2 (code.toNat / 256) ++ " 0x" ++ hexUpper 2 (code.toNat % 256)
  else "0x" ++ hexUpper 2 code.toNat

/-- What is worth noting while code is decoded and tokens are resolved. -/
inductive Note
  | noFixedCategory (token : Token)
  | lookupFailed (category : Category) (token : Token) (error : Error)
  | lookupCrashed (token : Token) (message : String)
  | localsUnresolved (token : Token) (error : Error)
  | unknownOpcode (code : UInt16) (offset : Nat)
  | loneEscape (offset : Nat)
  | operandCut (kind : OperandKind) (offset present : Nat)
  | switchCountCut (offset : Nat)
  | switchTableCut (offset : Nat) (count : UInt32)
deriving DecidableEq, Repr

namespace Note

def level : Note → Level
  | noFixedCategory _ | lookupFailed .. => .trace
  | lookupCrashed .. => .warn
  | _ => .debug

/-- The position of an operand, which is not a label. -/
def positionText (offset : Nat) : String := "0x" ++ hexUpper 4 offset

def text : Note → String
  | noFixedCategory token =>
    "token " ++ token.text ++ " has no fixed category, trying method, field, type"
  | lookupFailed category token error =>
    category.name ++ " lookup of " ++ token.text ++ " failed: " ++ error.message
  | lookupCrashed token message =>
    "metadata backend panicked resolving " ++ token.text ++ ": " ++ message
  | localsUnresolved token error =>
    "local signature " ++ token.text ++ " not resolved: " ++ error.message
  | unknownOpcode code offset => "unknown opcode " ++ codeBytesText code ++ " at " ++ label offset
  | loneEscape offset => "lone 0xFE escape at " ++ label offset ++ " ends the stream"
  | operandCut kind offset present =>
    kind.name ++ " operand at " ++ positionText offset ++ " truncated: " ++ toString present ++
      " of " ++ toString (kind.width?.getD 0) ++ " bytes present"
  | switchCountCut offset =>
    "switch at " ++ positionText offset ++ " truncated before its case count"
  | switchTableCut offset count =>
    "switch at " ++ positionText offset ++ " declares " ++ toString count.toNat ++
      " cases, table truncated"

end Note

/-- What happens on the way to a result: a lookup asked of the backend, or a note. -/
inductive Event
  | asked (category : Category) (token : Token)
  | askedLocals (token : Token)
  | noted (note : Note)
deriving DecidableEq, Repr

/-- The note of an event that is one. -/
def Event.note? : Event → Option Note
  | noted note => some note
  | _ => none

/-- A result with the events that led to it, in order. -/
structure Traced (α : Type) where
  value : α
  events : List Event
deriving Repr

namespace Traced

variable {α β : Type}

def map (change : α → β) (traced : Traced α) : Traced β := ⟨change traced.value, traced.events⟩

/-- All results in order, with all events in order. -/
def collect (steps : List (Traced α)) : Traced (List α) :=
  ⟨steps.map value, steps.flatMap events⟩

/-- The same result after some earlier events. -/
def after (earlier : List Event) (traced : Traced α) : Traced α :=
  ⟨traced.value, earlier ++ traced.events⟩

/-- The same result before some later events. -/
def before (later : List Event) (traced : Traced α) : Traced α :=
  ⟨traced.value, traced.events ++ later⟩

end Traced

end CilListing
