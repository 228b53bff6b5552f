import CilListing.Proofs.BodyListing
import CilListing.Proofs.NumeralText
import Mathlib.Data.Set.Insert

namespace CilListing

/-- The category that the high byte of a token implies. A member reference is a field only for an
operand that takes a field. -/
def Token.impliedCategory? (token : Token) (hint : OperandKind) : Option Category :=
  match token.value.toNat / 2 ^ 24 with
  | 0x70 => some .string
  | 0x06 => some .method
  | 0x0A => some (if hint = .fieldToken then .field else .method)
  | 0x04 => some .field
  | 0x01 | 0x02 | 0x1B => some .type
  | _ => none

/-- How a member is shown: its name behind the type that declares it, or alone where there is none. -/
inductive Member.ReadsAs : Member → String → Prop
  | qualified {type name : String} : type ≠ "" → ReadsAs ⟨type, name⟩ (type ++ "." ++ name)
  | plain {name : String} : ReadsAs ⟨"", name⟩ name

namespace Backend

/-- A lookup of a token succeeds, and what it finds is shown by this text. -/
inductive Shows (backend : Backend) (token : Token) : Category → String → Prop
  | string {literal : String} : backend.string token = .found literal →
      Shows backend token .string (quote literal)
  | method {member : Member} {text : String} : backend.method token = .found member →
      member.ReadsAs text → Shows backend token .method text
  | field {member : Member} {text : String} : backend.field token = .found member →
      member.ReadsAs text → Shows backend token .field text
  | type {name : String} : backend.type token = .found name → Shows backend token .type name

/-- A lookup of a token gives no value, be it for an error or for a crash. -/
def LookupFails (backend : Backend) (token : Token) : Category → Prop
  | .string => (backend.string token).Fails
  | .method => (backend.method token).Fails
  | .field => (backend.field token).Fails
  | .type => (backend.type token).Fails

/-- Lookups made in a given order until one succeeds: each but the last of them failed, and none is
left out behind a last one that failed too. -/
structure TriesInTurn (backend : Backend) (token : Token) (order made : List Category) : Prop where
  front : made <+: order
  earlier : ∀ category ∈ made.dropLast, backend.LookupFails token category
  ending : made = order ∨ ∃ category text, made.getLast? = some category ∧ backend.Shows token category text

/-- The lookups made for a token that an operand of kind `hint` holds, and what they come to. -/
structure Dispatches (backend : Backend) (token : Token) (hint : OperandKind) (made : List Category)
    (result : Resolution) : Prop where
  single : hint ≠ .genericToken → ∀ category, token.impliedCategory? hint = some category →
    made = [category]
  inTurn : hint = .genericToken ∨ token.impliedCategory? hint = none →
    backend.TriesInTurn token [.method, .field, .type] made
  once : made.Nodup
  resolved : ∀ text, result = .resolved text ↔ ∃ category ∈ made, backend.Shows token category text
  unresolved : result = .unresolved token ↔ ∀ category ∈ made, backend.LookupFails token category

end Backend

section Table

theorem Token.table_toNat (token : Token) : token.table.toNat = token.value.toNat / 2 ^ 24 := by
  have bound := token.value.toNat_lt
  have shifted : (token.value >>> 24).toNat = token.value.toNat / 2 ^ 24 := by
    rw [UInt32.toNat_shiftRight]
    exact Nat.shiftRight_eq_div_pow ..
  rw [table, UInt32.toNat_toUInt8, shifted]
  omega

/-- The table that a token points into decides as its high byte does. -/
theorem Token.category?_eq (token : Token) (hint : OperandKind) :
    token.category? hint = if hint = .genericToken then none else token.impliedCategory? hint := by
  unfold category? impliedCategory? metadataTable?
  rw [← table_toNat]
  by_cases generic : hint = .genericToken
  · rw [if_pos generic, if_pos generic]
  rw [if_neg generic, if_neg generic]
  cases found : MetadataTable.ofByte? token.table with
  | some table =>
    rw [← MetadataTable.byte_of_ofByte? found]
    cases table <;> rfl
  | none =>
    have other (table : MetadataTable) : token.table.toNat ≠ table.byte.toNat := by
      intro same
      rw [UInt8.toNat_inj.mp same, MetadataTable.ofByte?_byte] at found
      cases found
    rw [Option.map_none]
    split
    · next same => exact absurd same (other .userString)
    · next same => exact absurd same (other .methodDef)
    · next same => exact absurd same (other .memberRef)
    · next same => exact absurd same (other .field)
    · next same => exact absurd same (other .typeRef)
    · next same => exact absurd same (other .typeDef)
    · next same => exact absurd same (other .typeSpec)
    · rfl

end Table

section Replies

theorem Reply.toOption_eq_none_iff {α : Type} {reply : Reply α} : reply.toOption = none ↔ reply.Fails := by
  constructor
  · intro empty value same
    rw [same] at empty
    cases empty
  · exact Reply.Fails.toOption

theorem Reply.toOption_map {α β : Type} (change : α → β) (reply : Reply α) :
    (reply.map change).toOption = reply.toOption.map change := by
  cases reply <;> rfl

theorem Member.readsAs_iff {member : Member} {text : String} : member.ReadsAs text ↔ member.text = text := by
  obtain ⟨type, name⟩ := member
  unfold Member.text
  by_cases empty : type = ""
  · subst type
    rw [if_pos (String.isEmpty_iff.mpr rfl)]
    constructor
    · rintro (nonempty | _)
      · exact absurd rfl nonempty
      · rfl
    · rintro rfl
      exact .plain
  · rw [if_neg (mt String.isEmpty_iff.mp empty)]
    constructor
    · rintro (_ | _)
      · rfl
      · exact absurd rfl empty
    · rintro rfl
      exact .qualified empty

variable {backend : Backend} {token : Token} {category : Category} {text : String}

/-- The text that an answer comes to is the one by which it is to be shown. -/
theorem Backend.ask_eq_some_iff :
    (backend.ask category token).toOption = some text ↔ backend.Shows token category text := by
  constructor
  · intro found
    cases category with
    | string =>
      obtain ⟨literal, reply, rfl⟩ := Reply.exists_of_map found
      exact .string reply
    | method =>
      obtain ⟨member, reply, shown⟩ := Reply.exists_of_map found
      exact .method reply (Member.readsAs_iff.mpr shown)
    | field =>
      obtain ⟨member, reply, shown⟩ := Reply.exists_of_map found
      exact .field reply (Member.readsAs_iff.mpr shown)
    | type => exact .type (Reply.eq_found found)
  · intro shows
    cases shows with
    | string reply => rw [ask, reply]; rfl
    | method reply reads => rw [ask, reply, ← Member.readsAs_iff.mp reads]; rfl
    | field reply reads => rw [ask, reply, ← Member.readsAs_iff.mp reads]; rfl
    | type reply => rw [ask, reply]; rfl

theorem Backend.ask_eq_none_iff :
    (backend.ask category token).toOption = none ↔ backend.LookupFails token category := by
  cases category with
  | string | method | field =>
    rw [ask, Reply.toOption_map, Option.map_eq_none_iff]
    exact Reply.toOption_eq_none_iff
  | type => exact Reply.toOption_eq_none_iff

end Replies

namespace Backend

variable (backend : Backend) (token : Token)

/-- The categories that are asked in turn, up to the first that has a text. -/
def tried : List Category → List Category
  | [] => []
  | category :: rest =>
    if (backend.ask category token).toOption.isSome then [category] else category :: tried rest

theorem tried_of_some {category : Category} {text : String} (rest : List Category)
    (found : (backend.ask category token).toOption = some text) :
    backend.tried token (category :: rest) = [category] := by
  rw [tried, found, Option.isSome_some, if_pos rfl]

theorem tried_of_none {category : Category} (rest : List Category)
    (failed : (backend.ask category token).toOption = none) :
    backend.tried token (category :: rest) = category :: backend.tried token rest := by
  rw [tried, failed, Option.isSome_none, if_neg Bool.false_ne_true]

theorem tried_singleton (category : Category) : backend.tried token [category] = [category] := by
  cases answer : (backend.ask category token).toOption with
  | some text => exact backend.tried_of_some token [] answer
  | none => exact backend.tried_of_none token [] answer

theorem triesInTurn_tried (order : List Category) :
    backend.TriesInTurn token order (backend.tried token order) := by
  induction order with
  | nil => exact ⟨List.prefix_refl _, by simp [tried], Or.inl rfl⟩
  | cons category rest ih =>
    cases answer : (backend.ask category token).toOption with
    | some text =>
      rw [backend.tried_of_some token rest answer]
      exact ⟨⟨rest, rfl⟩, by simp, Or.inr ⟨category, text, rfl, ask_eq_some_iff.mp answer⟩⟩
    | none =>
      obtain ⟨front, earlier, ending⟩ := ih
      rw [backend.tried_of_none token rest answer]
      refine ⟨List.cons_prefix_cons.mpr ⟨rfl, front⟩, ?_, ?_⟩
      · intro other member
        cases made : backend.tried token rest with
        | nil => simp [made] at member
        | cons next later =>
          rw [made] at earlier member
          rw [List.dropLast_cons_of_ne_nil (List.cons_ne_nil _ _)] at member
          rcases List.mem_cons.mp member with rfl | inside
          · exact ask_eq_none_iff.mp answer
          · exact earlier other inside
      · rcases ending with all | ⟨last, text, atEnd, shows⟩
        · exact Or.inl (congrArg _ all)
        · refine Or.inr ⟨last, text, ?_, shows⟩
          rw [List.getLast?_cons, atEnd]
          rfl

/-- Where the search finds a text, one of the categories tried has it. -/
theorem findSome?_eq_some_iff (order : List Category) (text : String) :
    (order.findSome? fun category => (backend.ask category token).toOption) = some text ↔
      ∃ category ∈ backend.tried token order, backend.Shows token category text := by
  induction order with
  | nil => simp [tried]
  | cons category rest ih =>
    rw [List.findSome?_cons]
    cases answer : (backend.ask category token).toOption with
    | some found =>
      rw [backend.tried_of_some token rest answer]
      simp only [List.mem_singleton, exists_eq_left, ← ask_eq_some_iff, answer]
    | none =>
      have fails : ¬ backend.Shows token category text := by
        rw [← ask_eq_some_iff, answer]
        exact Option.some_ne_none text ∘ Eq.symm
      rw [backend.tried_of_none token rest answer, ih]
      simp only [List.mem_cons, exists_eq_or_imp, fails, false_or]

theorem findSome?_eq_none_iff (order : List Category) :
    (order.findSome? fun category => (backend.ask category token).toOption) = none ↔
      ∀ category ∈ backend.tried token order, backend.LookupFails token category := by
  induction order with
  | nil => simp [tried]
  | cons category rest ih =>
    rw [List.findSome?_cons]
    cases answer : (backend.ask category token).toOption with
    | some found =>
      rw [backend.tried_of_some token rest answer]
      simp only [List.mem_singleton, forall_eq, ← ask_eq_none_iff, answer]
    | none =>
      rw [backend.tried_of_none token rest answer, List.forall_mem_cons, ih]
      exact (and_iff_right (ask_eq_none_iff.mp answer)).symm

end Backend

section Lookups

variable {α β : Type} (backend : Backend) (token : Token)

theorem Traced.lookups_map (change : α → β) (traced : Traced α) :
    (traced.map change).lookups = traced.lookups := rfl

theorem Traced.lookups_after (earlier : List Event) (traced : Traced α) :
    (traced.after earlier).lookups = earlier.filter Event.isLookup ++ traced.lookups :=
  List.filter_append ..

/-- However an attempt ends, it is a single lookup. -/
theorem Backend.lookups_attempt (category : Category) :
    (backend.attempt category token).lookups = [.asked category token] := by
  unfold attempt
  cases backend.ask category token <;> rfl

theorem Backend.lookups_attemptAll (order : List Category) :
    (backend.attemptAll token order).lookups = (backend.tried token order).map (.asked · token) := by
  induction order with
  | nil => rfl
  | cons category rest ih =>
    have first := backend.lookups_attempt token category
    have value := backend.attempt_value category token
    cases answer : (backend.ask category token).toOption with
    | some text =>
      rw [answer] at value
      simp only [attemptAll, value, backend.tried_of_some token rest answer]
      exact first
    | none =>
      rw [answer] at value
      simp only [attemptAll, value, backend.tried_of_none token rest answer, Traced.lookups_after, ih]
      exact congrArg (· ++ _) first

theorem Backend.lookups_resolve (hint : OperandKind) :
    (backend.resolve token hint).lookups =
      (backend.tried token (token.categories hint)).map (.asked · token) := by
  unfold resolve Token.categories
  rw [Traced.lookups_map]
  cases token.category? hint with
  | some category =>
    rw [Option.elim_some, tried_singleton]
    exact backend.lookups_attempt token category
  | none =>
    rw [Option.elim_none, ← lookups_attemptAll]
    exact Traced.lookups_after ..

end Lookups

namespace Backend

variable (backend : Backend) (token : Token) (hint : OperandKind)

theorem dispatches_resolve : backend.Dispatches token hint (backend.tried token (token.categories hint))
    (backend.resolve token hint).value := by
  have turns := backend.triesInTurn_tried token (token.categories hint)
  have decided := token.category?_eq hint
  constructor
  case single =>
    intro particular category implied
    rw [if_neg particular, implied] at decided
    rw [Token.categories, decided, Option.elim_some, tried_singleton]
  case inTurn =>
    intro undecided
    have nothing : token.category? hint = none := by
      rcases undecided with generic | unnamed
      · rw [decided, if_pos generic]
      · rw [decided, unnamed, ite_self]
    rw [Token.categories, nothing] at turns ⊢
    exact turns
  case once =>
    apply turns.front.sublist.nodup
    unfold Token.categories
    cases token.category? hint with
    | some category => exact List.nodup_singleton category
    | none => decide
  case resolved =>
    intro text
    rw [← findSome?_eq_some_iff, resolve_value]
    cases (token.categories hint).findSome? fun category => (backend.ask category token).toOption <;> simp
  case unresolved =>
    rw [← findSome?_eq_none_iff, resolve_value]
    cases (token.categories hint).findSome? fun category => (backend.ask category token).toOption <;> simp

variable {backend token}

/-- Which lookups are made depends on no more than which of them have an answer. -/
theorem AgreeOutside.lookups_resolve {tokens : Set Token} {other : Backend}
    (agree : backend.AgreeOutside tokens other) (outside : token ∉ tokens) :
    (backend.resolve token hint).lookups = (other.resolve token hint).lookups := by
  have answers (category : Category) :
      (backend.ask category token).toOption = (other.ask category token).toOption :=
    (agree.ask outside category).toOption
  have same (order : List Category) : backend.tried token order = other.tried token order := by
    induction order with
    | nil => rfl
    | cons category rest ih => rw [tried, tried, answers, ih]
  rw [Backend.lookups_resolve, Backend.lookups_resolve, same]

end Backend

theorem Resolution.text_unresolved (token : Token) :
    ∃ digits : List Char, digits.length = 8 ∧ (∀ digit ∈ digits, digit ∈ upperDigits) ∧
      hexValue digits = token.value.toNat ∧
      (unresolved token).text.toList = "[token:0x".toList ++ digits ++ [']'] := by
  refine ⟨(hexUpper 8 token.value.toNat).toList, length_hexUpper (by decide) token.value.toNat_lt,
    fun _ => mem_upperDigits_of_mem_hexUpper, hexValue_hexUpper 8 _, ?_⟩
  rw [text, Token.text]
  simp only [String.toList_append]
  rfl

/-- A token is looked up under the one category that its high byte implies, or else under the
methods, fields and types in turn, and it is shown by the first text found. It stands for itself
only if every lookup made has failed, and it does not matter how they failed. -/
theorem resolve_dispatches (backend : Backend) (token : Token) (hint : OperandKind) :
    (∃ made : List Category,
      (backend.resolve token hint).lookups = made.map (Event.asked · token) ∧
      backend.Dispatches token hint made (backend.resolve token hint).value) ∧
    (∃ digits : List Char, digits.length = 8 ∧ (∀ digit ∈ digits, digit ∈ upperDigits) ∧
      hexValue digits = token.value.toNat ∧
      (Resolution.unresolved token).text.toList = "[token:0x".toList ++ digits ++ [']']) ∧
    ∀ other : Backend, backend.AgreeOutside {token}ᶜ other →
      (backend.resolve token hint).value = (other.resolve token hint).value ∧
        (backend.resolve token hint).lookups = (other.resolve token hint).lookups := by
  refine ⟨⟨_, backend.lookups_resolve token hint, backend.dispatches_resolve token hint⟩,
    Resolution.text_unresolved token, ?_⟩
  intro other agree
  have inside : token ∉ ({token}ᶜ : Set Token) := fun apart => apart rfl
  exact ⟨agree.resolve inside hint, agree.lookups_resolve hint inside⟩

/-- A backend that knows one field by every token, and answers `reply` where a method is asked for. -/
def Backend.oneField (reply : Reply Member) : Backend where
  string _ := .failed .notSupported
  method _ := reply
  field _ := .found ⟨"Point", "x"⟩
  type _ := .crashed "type"

theorem Backend.oneField_agreeOutside (tokens : Set Token) {first second : Reply Member}
    (firstFails : first.Fails) (secondFails : second.Fails) :
    (Backend.oneField first).AgreeOutside tokens (Backend.oneField second) where
  string _ _ := .failing nofun nofun
  method _ _ := .failing firstFails secondFails
  field _ _ := .found _
  type _ _ := .failing nofun nofun

/-- A crash among the methods leads on to the fields, as an error there does, and types are not asked. -/
theorem resolve_dispatches_crashThenField :
    let crashed := (Backend.oneField (.crashed "lost")).resolve ⟨0x06000001⟩ .genericToken
    let failed := (Backend.oneField (.failed .empty)).resolve ⟨0x06000001⟩ .genericToken
    crashed.value = .resolved "Point.x" ∧
      crashed.lookups = [.asked .method ⟨0x06000001⟩, .asked .field ⟨0x06000001⟩] ∧
      crashed.value = failed.value ∧ crashed.lookups = failed.lookups := by
  intro crashed failed
  have agree : (Backend.oneField (.crashed "lost")).AgreeOutside {⟨0x06000001⟩}ᶜ
      (Backend.oneField (.failed .empty)) := Backend.oneField_agreeOutside _ nofun nofun
  exact ⟨by decide, by decide, (resolve_dispatches _ _ .genericToken).2.2 _ agree⟩

end CilListing
