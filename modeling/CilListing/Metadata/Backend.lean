import CilListing.Error

namespace CilListing

/-- A method or field by the type that declares it. Global members have an empty type. -/
structure Member where
  declaringType : String
  name : String
deriving DecidableEq, Repr

def Member.text (member : Member) : String :=
  if member.declaringType.isEmpty then member.name
  else member.declaringType ++ "." ++ member.name

/-- The types of local variables in declaration order. A missing type cannot be named. -/
abbrev LocalTypes := List (Option String)

/-- What a crash carries: a text, or something that cannot be shown. -/
inductive Payload
  | text (message : String)
  | other
deriving DecidableEq, Repr

instance : Coe String Payload := ⟨.text⟩

def Payload.message : Payload → String
  | text message => message
  | other => "unknown panic"

/-- What a backend answers to one lookup. -/
inductive Reply (α : Type)
  | found (value : α)
  | failed (error : Error)
  | crashed (payload : Payload)
deriving DecidableEq, Repr

namespace Reply

def map {α β : Type} (change : α → β) : Reply α → Reply β
  | found value => found (change value)
  | failed error => failed error
  | crashed payload => crashed payload

/-- A crash counts as a failure of the resolver. -/
def result {α : Type} : Reply α → Except Error α
  | found value => .ok value
  | failed error => .error error
  | crashed payload => .error (.resolver ("panicked: " ++ payload.message))

def toOption {α : Type} : Reply α → Option α
  | found value => some value
  | _ => none

end Reply

/-- The source of names: one lookup for each kind of thing a token can stand for.
A backend need not know local signatures. -/
structure Backend where
  string : Token → Reply String
  method : Token → Reply Member
  field : Token → Reply Member
  type : Token → Reply String
  locals : Token → Reply LocalTypes := fun _ => .failed .notSupported

end CilListing
