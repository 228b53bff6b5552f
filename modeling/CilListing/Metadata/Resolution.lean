import CilListing.Metadata.Backend
import CilListing.Text.Quoted
import CilListing.Trace

namespace CilListing

/-- The outcome of resolving one token. -/
inductive Resolution
  | resolved (text : String)
  | unresolved (token : Token)
deriving DecidableEq, Repr

namespace Resolution

def isResolved : Resolution → Bool
  | resolved _ => true
  | unresolved _ => false

/-- An unresolved token stands for itself in brackets. -/
def text : Resolution → String
  | resolved text => text
  | unresolved token => "[token:" ++ token.text ++ "]"

end Resolution

/-- The one category that a token's table and the operand around it decide on. There is
none for a generic operand or a table whose tokens have no names of their own. -/
def Token.category? (token : Token) (hint : OperandKind) : Option Category :=
  if hint = .genericToken then none
  else token.metadataTable?.map fun table =>
    match table with
    | .userString => .string
    | .methodDef => .method
    | .memberRef => if hint = .fieldToken then .field else .method
    | .field => .field
    | .typeRef | .typeDef | .typeSpec => .type

/-- The categories tried in turn where none is fixed. -/
def Category.fallback : List Category := [.method, .field, .type]

/-- The events of a failed reply, for whoever made the lookup to add its own. -/
def Reply.crashEvents {α : Type} (token : Token) : Reply α → List Event
  | crashed payload => [.noted (.lookupCrashed token payload.message)]
  | _ => []

namespace Backend

variable (backend : Backend)

/-- Looks a token up under a category and shows what is found. String literals are quoted. -/
def ask (category : Category) (token : Token) : Reply String :=
  match category with
  | .string => (backend.string token).map quote
  | .method => (backend.method token).map Member.text
  | .field => (backend.field token).map Member.text
  | .type => backend.type token

/-- The text under one category. A failed lookup is noted and gives none. -/
def attempt (category : Category) (token : Token) : Traced (Option String) :=
  let reply := backend.ask category token
  let asked := .asked category token :: reply.crashEvents token
  match reply.result with
  | .ok text => ⟨some text, asked⟩
  | .error error => ⟨none, asked ++ [.noted (.lookupFailed category token error)]⟩

/-- The text under the first category that has one. Later categories are not asked. -/
def attemptAll (token : Token) : List Category → Traced (Option String)
  | [] => ⟨none, []⟩
  | category :: rest =>
    let first := backend.attempt category token
    match first.value with
    | some text => ⟨some text, first.events⟩
    | none => (attemptAll token rest).after first.events

/-- Resolves a token that an operand of kind `hint` holds. -/
def resolve (token : Token) (hint : OperandKind) : Traced Resolution :=
  let found :=
    match token.category? hint with
    | some category => backend.attempt category token
    | none => (backend.attemptAll token Category.fallback).after [.noted (.noFixedCategory token)]
  found.map fun text =>
    match text with
    | some text => .resolved text
    | none => .unresolved token

end Backend

end CilListing
