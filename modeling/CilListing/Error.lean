import CilListing.Token

namespace CilListing

/-- Where a fault was found. Faults of this library name no place. -/
inductive Site
  | unnamed
  | line (file : String) (number : Nat)
deriving DecidableEq, Repr

def Site.text : Site → String
  | unnamed => "<location>"
  | line file number => file ++ ":" ++ toString number

/-- What can go wrong in reading bytes or in asking a metadata backend. -/
inductive Error
  | outOfBounds (site : Site)
  | malformed (site : Site) (message : String)
  | notSupported
  | empty
  | tokenNotFound (token : Token)
  | resolver (message : String)
deriving DecidableEq, Repr

namespace Error

/-- A short name for the kind of fault. -/
def category : Error → String
  | outOfBounds _ => "OutOfBounds"
  | malformed .. => "Malformed"
  | notSupported => "NotSupported"
  | empty => "Empty"
  | tokenNotFound _ => "TokenNotFound"
  | resolver _ => "Resolver"

def message : Error → String
  | outOfBounds site => "Out of Bound read would have occurred - " ++ site.text
  | malformed site message => "Malformed - " ++ site.text ++ ": " ++ message
  | notSupported => "This operation is not supported"
  | empty => "Provided input was empty"
  | tokenNotFound token => "Failed to resolve token - " ++ token.text
  | resolver message => "Resolver failure - " ++ message

end Error

end CilListing
