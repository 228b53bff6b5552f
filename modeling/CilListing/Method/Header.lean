import CilListing.Metadata.Resolution
import CilListing.Method.Body

namespace CilListing

/-- What is known about a method besides its code. -/
structure MethodHeader where
  hasBody : Bool
  maxStack : UInt32
  localTypes : LocalTypes
deriving DecidableEq, Repr

namespace MethodHeader

/-- The header of a method whose code has no locals. -/
def plain (maxStack : UInt32) : MethodHeader := ⟨true, maxStack, []⟩

/-- The header of a method that has no code at all. -/
def noBody : MethodHeader := ⟨false, 0, []⟩

/-- Asks the backend for the locals of a signature. A failed lookup is noted and
gives no locals. -/
def lookupLocals (backend : Backend) (token : Token) : Traced LocalTypes :=
  let reply := backend.locals token
  let asked := .askedLocals token :: reply.crashEvents token
  match reply.result with
  | .ok types => ⟨types, asked⟩
  | .error error => ⟨[], asked ++ [.noted (.localsUnresolved token error)]⟩

/-- The header that a method body announces. A null signature is not looked up. -/
def ofBody (backend : Backend) (body : MethodBody) : Traced MethodHeader :=
  let locals := if body.localsToken.isNull then ⟨[], []⟩ else lookupLocals backend body.localsToken
  locals.map fun types => ⟨true, body.maxStack, types⟩

end MethodHeader

end CilListing
