import CilListing.Metadata.Symbols
import Mathlib.Data.Set.Card

namespace CilListing

namespace TokenMap

variable {α : Type} {map : TokenMap α} {token : Token} {value : α}

def tokens (map : TokenMap α) : List Token := map.map Prod.fst

theorem get?_insert (map : TokenMap α) (token : Token) (value : α) (other : Token) :
    (map.insert token value).get? other = if other = token then some value else map.get? other := by
  have kept (different : other ≠ token) :
      (map.filter fun entry => entry.1 != token).lookup other = map.lookup other := by
    induction map with
    | nil => rfl
    | cons entry rest ih =>
      by_cases same : entry.1 = token
      · have passed : (other == entry.1) = false := by
          rw [same]
          exact beq_false_of_ne different
        rw [List.filter_cons_of_neg (by simp [same]), ih, List.lookup_cons, passed]
      · rw [List.filter_cons_of_pos (by simp [same]), List.lookup_cons, List.lookup_cons, ih]
  rw [insert, get?, List.lookup_cons]
  by_cases same : other = token
  · simp [same]
  · rw [if_neg same, beq_false_of_ne same]
    exact kept same

theorem reply_eq_found_iff : map.reply token = .found value ↔ map.get? token = some value := by
  rw [reply]
  cases map.get? token <;> simp

theorem reply_eq_failed_iff : map.reply token = .failed (.tokenNotFound token) ↔ map.get? token = none := by
  rw [reply]
  cases map.get? token <;> simp

theorem mem_tokens_iff : token ∈ map.tokens ↔ map.get? token ≠ none := by
  rw [get?, Ne, List.lookup_eq_none_iff, tokens, List.mem_map]
  simp only [bne_iff_ne, ne_eq, not_forall, not_not]
  constructor
  · rintro ⟨entry, member, rfl⟩
    exact ⟨entry, member, rfl⟩
  · rintro ⟨entry, member, same⟩
    exact ⟨entry, member, same.symm⟩

theorem get?_eq_some_iff (nodup : map.tokens.Nodup) : map.get? token = some value ↔ (token, value) ∈ map := by
  rw [get?, List.lookup_eq_some_iff]
  constructor
  · rintro ⟨before, after, rfl, _⟩
    exact List.mem_append_right _ (List.mem_cons_self ..)
  · intro member
    obtain ⟨before, after, rfl⟩ := List.append_of_mem member
    refine ⟨before, after, rfl, ?_⟩
    intro entry inside
    rw [tokens, List.map_append, List.map_cons, List.nodup_append] at nodup
    rw [bne_iff_ne]
    exact (nodup.2.2 entry.1 (List.mem_map_of_mem inside) token (List.mem_cons_self ..)).symm

/-- Maps that hold the same under every token hold equally much. -/
theorem length_eq_of_get? {other : TokenMap α} (nodup : map.tokens.Nodup) (otherNodup : other.tokens.Nodup)
    (same : ∀ token, map.get? token = other.get? token) : map.length = other.length := by
  have perm : map.tokens.Perm other.tokens := by
    rw [List.perm_ext_iff_of_nodup nodup otherNodup]
    intro token
    rw [mem_tokens_iff, mem_tokens_iff, same]
  have length := perm.length_eq
  rwa [tokens, tokens, List.length_map, List.length_map] at length

theorem nodup_insert (nodup : map.tokens.Nodup) : (map.insert token value).tokens.Nodup := by
  refine List.nodup_cons.mpr ⟨?_, ?_⟩
  · intro member
    obtain ⟨entry, within, same⟩ := List.mem_map.mp member
    simp [same] at within
  · exact nodup.sublist (List.filter_sublist.map Prod.fst)

theorem mem_tokens_insert (other : Token) :
    other ∈ (map.insert token value).tokens ↔ other = token ∨ other ∈ map.tokens := by
  simp only [tokens, insert, List.map_cons, List.mem_cons, List.mem_map, List.mem_filter, bne_iff_ne]
  constructor
  · rintro (same | ⟨entry, ⟨within, _⟩, same⟩)
    · exact Or.inl same
    · exact Or.inr ⟨entry, within, same⟩
  · rintro (same | ⟨entry, within, rfl⟩)
    · exact Or.inl same
    · by_cases same : entry.1 = token
      · exact Or.inl same
      · exact Or.inr ⟨entry, ⟨within, same⟩, rfl⟩

/-- Values put one after the other under tokens. -/
def insertAll (map : TokenMap α) (pairs : List (Token × α)) : TokenMap α :=
  pairs.foldl (fun map pair => map.insert pair.1 pair.2) map

/-- The last value put under a token is the one that stands there. -/
theorem get?_insertAll (map : TokenMap α) (pairs : List (Token × α)) (token : Token) :
    (map.insertAll pairs).get? token = (pairs.reverse.lookup token).or (map.get? token) := by
  induction pairs generalizing map with
  | nil => rfl
  | cons pair rest ih =>
    have next := ih (map.insert pair.1 pair.2)
    rw [insertAll, List.foldl_cons, ← insertAll, next, List.reverse_cons, List.lookup_append, Option.or_assoc,
      get?_insert, List.lookup_cons]
    by_cases same : token = pair.1
    · simp [same]
    · rw [if_neg same, beq_false_of_ne same, List.lookup_nil, Option.none_or]

theorem nodup_insertAll (nodup : map.tokens.Nodup) (pairs : List (Token × α)) :
    (map.insertAll pairs).tokens.Nodup := by
  induction pairs generalizing map with
  | nil => exact nodup
  | cons pair rest ih => exact ih (nodup_insert nodup)

theorem nodup_insertAll_nil (pairs : List (Token × α)) : (insertAll [] pairs).tokens.Nodup := by
  have empty : (tokens ([] : TokenMap α)).Nodup := List.nodup_nil
  exact nodup_insertAll empty pairs

theorem mem_tokens_insertAll (pairs : List (Token × α)) :
    token ∈ (map.insertAll pairs).tokens ↔ token ∈ map.tokens ∨ token ∈ pairs.map Prod.fst := by
  induction pairs generalizing map with
  | nil => simp [insertAll]
  | cons pair rest ih =>
    rw [insertAll, List.foldl_cons, ← insertAll, ih, mem_tokens_insert, List.map_cons, List.mem_cons]
    grind

/-- Of values put into an empty map, the last under a token stands there. -/
theorem get?_insertAll_nil (pairs : List (Token × α)) (token : Token) :
    (insertAll [] pairs).get? token = pairs.reverse.lookup token := by
  rw [get?_insertAll]
  exact Option.or_none

/-- A map holds as many values as there are different tokens that one was put under. -/
theorem length_insertAll (pairs : List (Token × α)) :
    (insertAll [] pairs).length = (pairs.map Prod.fst).toFinset.card := by
  have counted := List.toFinset_card_of_nodup (nodup_insertAll_nil pairs)
  rw [tokens, List.length_map] at counted
  rw [← counted]
  congr 1
  ext token
  have same : token ∈ (insertAll [] pairs).tokens ↔ token ∈ tokens [] ∨ token ∈ pairs.map Prod.fst :=
    mem_tokens_insertAll pairs
  rw [List.mem_toFinset, List.mem_toFinset, ← tokens, same]
  exact or_iff_right List.not_mem_nil

end TokenMap

/-- The kinds of things that a table has names for. -/
inductive SymbolKind
  | string
  | method
  | field
  | type
  | locals
deriving DecidableEq, Repr

def SymbolKind.all : List SymbolKind := [string, method, field, type, locals]

/-- What is known of a thing of some kind. -/
abbrev SymbolKind.Content : SymbolKind → Type
  | string | type => String
  | method | field => Member
  | locals => LocalTypes

/-- The reply to a lookup of some kind. -/
def Backend.reply (backend : Backend) : (kind : SymbolKind) → Token → Reply kind.Content
  | .string => backend.string
  | .method => backend.method
  | .field => backend.field
  | .type => backend.type
  | .locals => backend.locals

theorem Backend.eq_of_reply {first second : Backend} (same : ∀ kind, first.reply kind = second.reply kind) :
    first = second := by
  have string := same .string
  have method := same .method
  have field := same .field
  have type := same .type
  have locals := same .locals
  cases first
  cases second
  simp only [reply] at string method field type locals
  subst string method field type locals
  rfl

namespace Symbols

/-- The map of one kind. -/
def part (symbols : Symbols) : (kind : SymbolKind) → TokenMap kind.Content
  | .string => symbols.strings
  | .method => symbols.methods
  | .field => symbols.fields
  | .type => symbols.types
  | .locals => symbols.locals

theorem reply_backend (symbols : Symbols) (kind : SymbolKind) :
    symbols.backend.reply kind = (symbols.part kind).reply := by
  cases kind <;> rfl

theorem size_eq_sum (symbols : Symbols) :
    symbols.size = (SymbolKind.all.map fun kind => (symbols.part kind).length).sum := by
  simp only [SymbolKind.all, List.map_cons, List.map_nil, List.sum_cons, List.sum_nil, part, size]
  omega

/-- What an entry of some kind puts into its map, and nothing for an entry of another kind. -/
def Entry.under? : Entry → (kind : SymbolKind) → Option (Token × kind.Content)
  | .string token text, .string => some (token, text)
  | .method token member, .method => some (token, member)
  | .field token member, .field => some (token, member)
  | .type token name, .type => some (token, name)
  | .locals token types, .locals => some (token, types)
  | _, _ => none

theorem part_add (symbols : Symbols) (entry : Entry) (kind : SymbolKind) :
    (symbols.add entry).part kind = (symbols.part kind).insertAll (entry.under? kind).toList := by
  cases kind <;> cases entry <;> rfl

theorem part_ofEntries (entries : List Entry) (kind : SymbolKind) :
    (ofEntries entries).part kind = TokenMap.insertAll [] (entries.filterMap (·.under? kind)) := by
  have added (symbols : Symbols) : (entries.foldl add symbols).part kind =
      (symbols.part kind).insertAll (entries.filterMap (·.under? kind)) := by
    induction entries generalizing symbols with
    | nil => rfl
    | cons entry rest ih =>
      rw [List.foldl_cons, ih, part_add, List.filterMap_cons]
      cases entry.under? kind <;> rfl
  have start : empty.part kind = [] := by cases kind <;> rfl
  rw [ofEntries, added, start]

theorem nodup_part_ofEntries (entries : List Entry) (kind : SymbolKind) :
    ((ofEntries entries).part kind).tokens.Nodup := by
  rw [part_ofEntries]
  exact TokenMap.nodup_insertAll_nil _

end Symbols

end CilListing
