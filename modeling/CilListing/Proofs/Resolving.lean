import CilListing.Metadata.Resolution

namespace CilListing

namespace Reply

variable {α β : Type} {reply : Reply α}

theorem eq_found {value : α} (held : reply.toOption = some value) : reply = .found value := by
  cases reply with
  | found => cases held; rfl
  | failed | crashed => cases held

theorem exists_of_map {change : α → β} {result : β} (held : (reply.map change).toOption = some result) :
    ∃ value, reply = .found value ∧ change value = result := by
  cases reply with
  | found value => exact ⟨value, rfl, Option.some.inj held⟩
  | failed | crashed => cases held

end Reply

/-- The categories that a token is looked up under, in the order of the lookups. -/
def Token.categories (token : Token) (hint : OperandKind) : List Category :=
  (token.category? hint).elim Category.fallback fun category => [category]

namespace Backend

variable (backend : Backend)

/-- An attempt contains an error as it contains a crash. -/
theorem attempt_value (category : Category) (token : Token) :
    (backend.attempt category token).value = (backend.ask category token).toOption := by
  rw [attempt]
  cases backend.ask category token <;> rfl

theorem attemptAll_value (token : Token) (categories : List Category) :
    (backend.attemptAll token categories).value =
      categories.findSome? fun category => (backend.ask category token).toOption := by
  induction categories with
  | nil => rfl
  | cons category rest ih =>
    rw [attemptAll, List.findSome?_cons, ← attempt_value]
    cases (backend.attempt category token).value with
    | some text => rfl
    | none => exact ih

/-- A token is resolved to the first text that one of its categories has. -/
theorem resolve_value (token : Token) (hint : OperandKind) :
    (backend.resolve token hint).value =
      ((token.categories hint).findSome? fun category => (backend.ask category token).toOption).elim
        (.unresolved token) .resolved := by
  rw [resolve, Token.categories]
  cases token.category? hint with
  | some category =>
    have single : ([category].findSome? fun category => (backend.ask category token).toOption) =
        (backend.attempt category token).value := by
      rw [attempt_value, List.findSome?_singleton]
    rw [Option.elim_some, single, Traced.map]
    cases (backend.attempt category token).value <;> rfl
  | none =>
    rw [Option.elim_none, ← attemptAll_value, Traced.map, Traced.after]
    cases (backend.attemptAll token Category.fallback).value <;> rfl

end Backend

end CilListing
