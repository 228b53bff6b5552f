import CilListing.Metadata.Backend

namespace CilListing

/-- Values under tokens, at most one for each token. -/
abbrev TokenMap (α : Type) := List (Token × α)

namespace TokenMap

variable {α : Type}

/-- Puts a value under a token in place of the one that stood there. -/
def insert (map : TokenMap α) (token : Token) (value : α) : TokenMap α :=
  (token, value) :: map.filter fun entry => entry.1 != token

def get? (map : TokenMap α) (token : Token) : Option α := map.lookup token

/-- The reply of a backend that knows what the map holds. -/
def reply (map : TokenMap α) (token : Token) : Reply α :=
  match map.get? token with
  | some value => .found value
  | none => .failed (.tokenNotFound token)

end TokenMap

/-- Names for tokens, kept apart by what they name. -/
structure Symbols where
  strings : TokenMap String
  methods : TokenMap Member
  fields : TokenMap Member
  types : TokenMap String
  locals : TokenMap LocalTypes
deriving Repr

namespace Symbols

def empty : Symbols := ⟨[], [], [], [], []⟩

/-- One entry to be put into a table. -/
inductive Entry
  | string (token : Token) (text : String)
  | method (token : Token) (member : Member)
  | field (token : Token) (member : Member)
  | type (token : Token) (name : String)
  | locals (token : Token) (types : LocalTypes)
deriving DecidableEq, Repr

/-- Puts one entry into the map of its kind. The other maps stay as they are. -/
def add (symbols : Symbols) : Entry → Symbols
  | .string token text => { symbols with strings := symbols.strings.insert token text }
  | .method token member => { symbols with methods := symbols.methods.insert token member }
  | .field token member => { symbols with fields := symbols.fields.insert token member }
  | .type token name => { symbols with types := symbols.types.insert token name }
  | .locals token types => { symbols with locals := symbols.locals.insert token types }

/-- The table that a sequence of entries leaves behind. -/
def ofEntries (entries : List Entry) : Symbols := entries.foldl add empty

/-- The number of entries of all kinds. -/
def size (symbols : Symbols) : Nat :=
  symbols.strings.length + symbols.methods.length + symbols.fields.length +
    symbols.types.length + symbols.locals.length

def isEmpty (symbols : Symbols) : Bool := symbols.size == 0

def backend (symbols : Symbols) : Backend where
  string := symbols.strings.reply
  method := symbols.methods.reply
  field := symbols.fields.reply
  type := symbols.types.reply
  locals := symbols.locals.reply

end Symbols

end CilListing
