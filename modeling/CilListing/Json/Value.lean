namespace CilListing

/-- A JSON value. Numbers with a fraction or an exponent, and those too large for an
integer, are bit patterns of floating point numbers. -/
inductive Json
  | null
  | bool (value : Bool)
  | integer (value : Int)
  | float (bits : Nat)
  | string (text : String)
  | array (items : List Json)
  | object (members : List (String × Json))
deriving Repr, Inhabited

namespace Json

/-- Puts a member in its place by ascending key. A member of the same key gives way. -/
def insertMember (key : String) (value : Json) : List (String × Json) → List (String × Json)
  | [] => [(key, value)]
  | (other, held) :: rest =>
    if key < other then (key, value) :: (other, held) :: rest
    else if key = other then (key, value) :: rest
    else (other, held) :: insertMember key value rest

/-- Members in the order of a text by ascending key, the last of each key. -/
def sortMembers (members : List (String × Json)) : List (String × Json) :=
  members.foldl (fun sorted (key, value) => insertMember key value sorted) []

end Json

end CilListing
