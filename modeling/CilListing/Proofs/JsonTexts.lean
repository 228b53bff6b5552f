import CilListing.Json.Reader
import CilListing.Proofs.JsonLexemes

namespace CilListing

namespace Json

/-- The lexemes that a value is written with, its members in the order they stand in. -/
def lexemes : Json → List Lexeme
  | array items =>
    .openArray :: [Lexeme.comma].intercalate (items.attach.map fun ⟨item, _⟩ => item.lexemes) ++
      [.closeArray]
  | object members =>
    .openObject :: [Lexeme.comma].intercalate (members.attach.map fun ⟨(key, value), _⟩ =>
      .string key :: .colon :: value.lexemes) ++ [.closeObject]
  | string text => [.string text]
  | leaf => [.scalar leaf]
termination_by value => sizeOf value
decreasing_by
  · have smaller := List.sizeOf_lt_of_mem ‹_ ∈ items›
    rw [array.sizeOf_spec]
    omega
  · next within =>
    have smaller := List.sizeOf_lt_of_mem within
    rw [Prod.mk.sizeOf_spec] at smaller
    rw [object.sizeOf_spec]
    omega

def memberLexemes (member : String × Json) : List Lexeme := .string member.1 :: .colon :: member.2.lexemes

/-- The ways to write a value. Any spaces may stand between its lexemes. -/
def Spells (value : Json) (text : List Char) : Prop := Lexeme.Spaced value.lexemes text

section Lexemes

variable {items : List Json} {members : List (String × Json)}

theorem lexemes_array (items : List Json) :
    (array items).lexemes = .openArray :: [Lexeme.comma].intercalate (items.map lexemes) ++ [.closeArray] := by
  rw [lexemes, List.map_attach_eq_pmap, List.pmap_eq_map]

theorem lexemes_object (members : List (String × Json)) :
    (object members).lexemes =
      .openObject :: [Lexeme.comma].intercalate (members.map memberLexemes) ++ [.closeObject] := by
  rw [lexemes, List.map_attach_eq_pmap, List.pmap_eq_map]
  rfl

theorem lexemes_scalar {value : Json} (scalar : value.isScalar = true) : value.lexemes = [.scalar value] := by
  cases value with
  | null | bool | integer | float => rw [lexemes] <;> (intro _ same; cases same)
  | string | array | object => cases scalar

/-- No value begins as the end of an array does. -/
theorem head_lexemes (value : Json) : ∃ first later, value.lexemes = first :: later ∧ first ≠ .closeArray := by
  cases value with
  | array items => exact ⟨_, _, lexemes_array items, nofun⟩
  | object members => exact ⟨_, _, lexemes_object members, nofun⟩
  | string text => exact ⟨.string text, [], by rw [lexemes], nofun⟩
  | null | bool | integer | float => exact ⟨_, [], lexemes_scalar rfl, nofun⟩

end Lexemes

end Json

namespace Lexeme

variable {rest : List Lexeme}

theorem apart_cons {lexeme : Lexeme} (other : lexeme.isScalar = false) (apart : Apart rest) :
    Apart (lexeme :: rest) := by
  refine List.isChain_cons.mpr ⟨?_, apart⟩
  intro next _ scalar
  rw [other] at scalar
  cases scalar

/-- A list of lexemes keeps apart from whatever does not begin with a scalar. -/
def Closed (lexemes : List Lexeme) : Prop :=
  ∀ rest, Apart rest → (∀ next ∈ rest.head?, next.isScalar = false) → Apart (lexemes ++ rest)

theorem apart_intercalate {entries : List (List Lexeme)} (closed : ∀ entry ∈ entries, Closed entry)
    (apart : Apart rest) (next : ∀ next ∈ rest.head?, next.isScalar = false) :
    Apart ([comma].intercalate entries ++ rest) := by
  induction entries with
  | nil => exact apart
  | cons entry entries ih =>
    rw [List.forall_mem_cons] at closed
    cases entries with
    | nil =>
      rw [List.intercalate_singleton]
      exact closed.1 rest apart next
    | cons second later =>
      rw [List.intercalate_cons_cons, List.append_assoc, List.append_assoc]
      refine closed.1 _ (apart_cons rfl (ih closed.2)) ?_
      rintro _ ⟨⟩
      rfl

end Lexeme

namespace Json

open Lexeme (Apart Closed)

theorem closed_lexemes (value : Json) : Closed value.lexemes := by
  induction value using induct with
  | null | bool | integer | float =>
    intro rest apart next
    rw [lexemes_scalar rfl]
    exact List.isChain_cons.mpr ⟨fun other head _ => next other head, apart⟩
  | string text =>
    intro rest apart next
    rw [lexemes]
    exact Lexeme.apart_cons rfl apart
  | array items ih =>
    intro rest apart next
    rw [lexemes_array, List.append_assoc, List.cons_append]
    refine Lexeme.apart_cons rfl (Lexeme.apart_intercalate ?_ (Lexeme.apart_cons rfl apart) ?_)
    · rw [List.forall_mem_map]
      exact ih
    · rintro _ ⟨⟩
      rfl
  | object members ih =>
    intro rest apart next
    rw [lexemes_object, List.append_assoc, List.cons_append]
    refine Lexeme.apart_cons rfl (Lexeme.apart_intercalate ?_ (Lexeme.apart_cons rfl apart) ?_)
    · rw [List.forall_mem_map]
      intro member inside rest apart next
      exact Lexeme.apart_cons rfl (Lexeme.apart_cons rfl (ih member inside rest apart next))
    · rintro _ ⟨⟩
      rfl

theorem apart_lexemes (value : Json) : Apart value.lexemes := by
  have closed := closed_lexemes value [] .nil nofun
  rwa [List.append_nil] at closed

end Json

namespace Reading

variable {layers : List Layer} {rest : List Lexeme}

/-- The reader takes a value as a whole: behind its lexemes it holds the sorted value. A value that
does not fit under the layers around it stops the reader. -/
def Takes (value : Json) : Prop :=
  ∀ layers rest, run? ⟨.value, layers⟩ (value.lexemes ++ rest) =
    if value.depth ≤ maxDepth - layers.length then run? ⟨.next value.sorted, layers⟩ rest else none

theorem run?_firstItem {lexeme : Lexeme} (other : lexeme ≠ .closeArray) :
    run? ⟨.firstItem, layers⟩ (lexeme :: rest) = run? ⟨.value, layers⟩ (lexeme :: rest) := by
  have same : step? ⟨.firstItem, layers⟩ lexeme = step? ⟨.value, layers⟩ lexeme := by
    cases lexeme with
    | closeArray => exact absurd rfl other
    | _ => rfl
  rw [run?, run?, same]

/-- From an item on, the reader takes the items up to the end of their array. -/
theorem run?_items {items : List Json} (takes : ∀ item ∈ items, Takes item) (some : items ≠ [])
    (held : List Json) (layers : List Layer) (rest : List Lexeme) :
    run? ⟨.value, .array held :: layers⟩
        ([Lexeme.comma].intercalate (items.map Json.lexemes) ++ .closeArray :: rest) =
      if ∀ item ∈ items, item.depth ≤ maxDepth - (layers.length + 1) then
        run? ⟨.next (.array (held.reverse ++ items.map Json.sorted)), layers⟩ rest
      else none := by
  induction items generalizing held with
  | nil => exact absurd rfl some
  | cons item later ih =>
    rw [List.forall_mem_cons] at takes
    simp only [List.forall_mem_cons]
    cases later with
    | nil =>
      rw [List.map_singleton, List.intercalate_singleton, takes.1]
      simp only [List.length_cons, List.not_mem_nil, false_implies, implies_true, and_true]
      congr 1
      simp only [run?, step?, endValue?, List.reverse_cons, List.map_singleton]
    | cons second others =>
      have remaining := ih takes.2 (List.cons_ne_nil _ _) (item.sorted :: held)
      rw [List.map_cons, List.map_cons, List.intercalate_cons_cons, List.append_assoc, List.append_assoc,
        takes.1, ite_and, List.length_cons]
      congr 1
      rw [List.singleton_append, run?]
      simp only [step?, endValue?]
      rw [← List.map_cons, remaining, List.reverse_cons, List.append_assoc]
      rfl

/-- From a key on, the reader takes the members up to the end of their object. -/
theorem run?_members {members : List (String × Json)} (takes : ∀ member ∈ members, Takes member.2)
    (some : members ≠ []) (held : List (String × Json)) (layers : List Layer) (rest : List Lexeme) :
    run? ⟨.key held, layers⟩
        ([Lexeme.comma].intercalate (members.map Json.memberLexemes) ++ .closeObject :: rest) =
      if ∀ member ∈ members, member.2.depth ≤ maxDepth - (layers.length + 1) then
        run? ⟨.next (.object (Json.sortMembers
          (held.reverse ++ members.map fun member => (member.1, member.2.sorted)))), layers⟩ rest
      else none := by
  induction members generalizing held with
  | nil => exact absurd rfl some
  | cons member later ih =>
    rw [List.forall_mem_cons] at takes
    simp only [List.forall_mem_cons]
    cases later with
    | nil =>
      rw [List.map_singleton, List.intercalate_singleton, Json.memberLexemes, List.cons_append, List.cons_append]
      simp only [run?, step?, takes.1 _ _]
      simp only [List.length_cons, List.not_mem_nil, false_implies, implies_true, and_true]
      congr 1
      simp only [endValue?, List.reverse_cons, List.map_singleton]
    | cons second others =>
      have remaining := ih takes.2 (List.cons_ne_nil _ _) ((member.1, member.2.sorted) :: held)
      rw [List.map_cons, List.map_cons, List.intercalate_cons_cons, Json.memberLexemes, List.append_assoc,
        List.append_assoc, List.cons_append, List.cons_append]
      simp only [run?, step?, takes.1 _ _]
      rw [ite_and, List.length_cons]
      congr 1
      rw [List.singleton_append, run?]
      simp only [step?, endValue?]
      rw [← List.map_cons, remaining, List.reverse_cons, List.append_assoc]
      rfl

theorem run?_allItems {items : List Json} (takes : ∀ item ∈ items, Takes item) :
    run? ⟨.firstItem, .array [] :: layers⟩
        ([Lexeme.comma].intercalate (items.map Json.lexemes) ++ .closeArray :: rest) =
      if ∀ item ∈ items, item.depth ≤ maxDepth - (layers.length + 1) then
        run? ⟨.next (.array (items.map Json.sorted)), layers⟩ rest
      else none := by
  cases items with
  | nil => rw [if_pos (List.forall_mem_nil _)]; rfl
  | cons item later =>
    -- Only the end of the array is taken otherwise than where an item has to come.
    obtain ⟨first, others, head, other⟩ := Json.head_lexemes item
    have whole := run?_items takes (List.cons_ne_nil _ _) [] layers rest
    refine Eq.trans ?_ whole
    rw [List.map_cons]
    cases later.map Json.lexemes with
    | nil =>
      rw [List.intercalate_singleton, head, List.cons_append]
      exact run?_firstItem other
    | cons second after =>
      rw [List.intercalate_cons_cons, head, List.cons_append, List.cons_append, List.cons_append]
      exact run?_firstItem other

theorem run?_allMembers {members : List (String × Json)} (takes : ∀ member ∈ members, Takes member.2) :
    run? ⟨.firstKey, layers⟩
        ([Lexeme.comma].intercalate (members.map Json.memberLexemes) ++ .closeObject :: rest) =
      if ∀ member ∈ members, member.2.depth ≤ maxDepth - (layers.length + 1) then
        run? ⟨.next (.object (Json.sortMembers (members.map fun member => (member.1, member.2.sorted)))),
          layers⟩ rest
      else none := by
  cases members with
  | nil => rw [if_pos (List.forall_mem_nil _)]; rfl
  | cons member later =>
    have whole := run?_members takes (List.cons_ne_nil _ _) [] layers rest
    refine Eq.trans ?_ whole
    rw [List.map_cons]
    cases later.map Json.memberLexemes with
    | nil => rw [List.intercalate_singleton]; rfl
    | cons second after => rw [List.intercalate_cons_cons]; rfl

theorem takes (value : Json) : Takes value := by
  induction value using Json.induct with
  | null | bool | integer | float =>
    intro layers rest
    rw [Json.lexemes_scalar rfl, Json.depth_scalar rfl, Json.sorted_scalar rfl, if_pos (Nat.zero_le _)]
    rfl
  | string text =>
    intro layers rest
    rw [Json.lexemes, Json.depth_string, Json.sorted_string, if_pos (Nat.zero_le _)]
    rfl
  | array items ih =>
    intro layers rest
    have room := Json.depth_array_le items (maxDepth - layers.length)
    rw [Nat.sub_sub, Nat.sub_pos_iff_lt] at room
    rw [Json.lexemes_array, Json.sorted_array, List.append_assoc, List.cons_append, run?]
    simp only [room, ite_and, step?, beginValue?]
    by_cases fits : layers.length < maxDepth
    · simp only [if_pos fits]
      exact run?_allItems ih
    · simp only [if_neg fits]
  | object members ih =>
    intro layers rest
    have room := Json.depth_object_le members (maxDepth - layers.length)
    rw [Nat.sub_sub, Nat.sub_pos_iff_lt] at room
    rw [Json.lexemes_object, Json.sorted_object, List.append_assoc, List.cons_append, run?]
    simp only [room, ite_and, step?, beginValue?]
    by_cases fits : layers.length < maxDepth
    · simp only [if_pos fits]
      exact run?_allMembers ih
    · simp only [if_neg fits]

end Reading

/-- A text that a value is written with denotes the value with its members sorted, unless arrays and
objects lie too deep within each other. -/
theorem Json.parse?_of_spells {value : Json} {text : List Char} (spells : value.Spells text) :
    parse? text = if value.depth ≤ Reading.maxDepth then some value.sorted else none := by
  have read : Lexeme.readAll text = some value.lexemes :=
    Lexeme.readAllFrom_spaced [] spells value.apart_lexemes
  have taken := Reading.takes value [] []
  rw [List.append_nil] at taken
  simp only [parse?, read, Reading.start, taken, List.length_nil, Nat.sub_zero]
  by_cases fits : value.depth ≤ Reading.maxDepth
  · rw [if_pos fits, if_pos fits]
    rfl
  · rw [if_neg fits, if_neg fits]

theorem intercalate_concat {α : Type} (separator : List α) (entries : List (List α)) (last : List α) :
    separator.intercalate (entries ++ [last]) = entries.flatMap (· ++ separator) ++ last := by
  induction entries with
  | nil => rw [List.nil_append, List.intercalate_singleton, List.flatMap_nil, List.nil_append]
  | cons entry rest ih =>
    rw [List.flatMap_cons, List.append_assoc, ← ih]
    cases rest with
    | nil => rw [List.cons_append, List.nil_append, List.intercalate_cons_cons]
    | cons next later => rw [List.cons_append, List.cons_append, List.intercalate_cons_cons]

namespace Reading

/-- The lexemes of an array up to the comma behind some of its items, or up to its first item. -/
def openItems (items : List Json) : List Lexeme :=
  .openArray :: items.flatMap fun item => item.lexemes ++ [.comma]

def openMembers (members : List (String × Json)) : List Lexeme :=
  .openObject :: members.flatMap fun member => Json.memberLexemes member ++ [.comma]

theorem openItems_concat (items : List Json) (item : Json) :
    openItems items ++ item.lexemes ++ [.comma] = openItems (items ++ [item]) := by
  simp only [openItems, List.flatMap_append, List.flatMap_singleton, List.cons_append, List.append_assoc]

theorem openMembers_concat (members : List (String × Json)) (member : String × Json) :
    openMembers members ++ Json.memberLexemes member ++ [.comma] = openMembers (members ++ [member]) := by
  simp only [openMembers, List.flatMap_append, List.flatMap_singleton, List.cons_append, List.append_assoc]

theorem openItems_close (items : List Json) (item : Json) :
    openItems items ++ item.lexemes ++ [.closeArray] = (Json.array (items ++ [item])).lexemes := by
  rw [Json.lexemes_array, List.map_append, List.map_singleton, intercalate_concat, List.flatMap_map]
  rfl

theorem openMembers_close (members : List (String × Json)) (member : String × Json) :
    openMembers members ++ Json.memberLexemes member ++ [.closeObject] =
      (Json.object (members ++ [member])).lexemes := by
  rw [Json.lexemes_object, List.map_append, List.map_singleton, intercalate_concat, List.flatMap_map]
  rfl

/-- The lexemes behind which layers are open. What the layers hold is sorted and does not show the
order it was written in, so that any items and members may have been written. -/
inductive Opened : List Layer → List Lexeme → Prop
  | nil : Opened [] []
  | array {layers taken held} (items : List Json) : Opened layers taken →
      Opened (.array held :: layers) (taken ++ openItems items)
  | object {layers taken held key} (members : List (String × Json)) : Opened layers taken →
      Opened (.object held key :: layers) (taken ++ openMembers members ++ [.string key, .colon])

/-- The lexemes behind which a reader stands. -/
inductive Took : Reading → List Lexeme → Prop
  | value {layers taken} : Opened layers taken → Took ⟨.value, layers⟩ taken
  | firstItem {layers taken held} : Opened layers taken →
      Took ⟨.firstItem, .array held :: layers⟩ (taken ++ openItems [])
  | firstKey {layers taken} : Opened layers taken → Took ⟨.firstKey, layers⟩ (taken ++ openMembers [])
  | key {layers taken held} (members : List (String × Json)) : Opened layers taken →
      Took ⟨.key held, layers⟩ (taken ++ openMembers members)
  | colon {layers taken held key} (members : List (String × Json)) : Opened layers taken →
      Took ⟨.colon held key, layers⟩ (taken ++ openMembers members ++ [.string key])
  | next {layers taken held} (value : Json) : Opened layers taken →
      Took ⟨.next held, layers⟩ (taken ++ value.lexemes)

variable {layers : List Layer} {taken lexemes : List Lexeme} {lexeme : Lexeme} {reading next : Reading}

theorem took_of_beginValue? (opened : Opened layers taken)
    (plain : ∀ value, lexeme = .scalar value → value.isScalar = true)
    (begun : beginValue? layers lexeme = some next) : Took next (taken ++ [lexeme]) := by
  cases lexeme with
  | scalar value =>
    cases begun
    rw [← Json.lexemes_scalar (plain value rfl)]
    exact .next value opened
  | string text =>
    cases begun
    have written : (Json.string text).lexemes = [.string text] := by rw [Json.lexemes]
    rw [← written]
    exact .next (.string text) opened
  | openArray =>
    rw [beginValue?] at begun
    split at begun
    · cases begun
      exact .firstItem opened
    · cases begun
  | openObject =>
    rw [beginValue?] at begun
    split at begun
    · cases begun
      exact .firstKey opened
    · cases begun
  | closeArray | closeObject | comma | colon => cases begun

theorem took_of_endValue? {held : Json} (value : Json) (opened : Opened layers taken)
    (ended : endValue? held layers lexeme = some next) : Took next (taken ++ value.lexemes ++ [lexeme]) := by
  cases opened with
  | nil => cases lexeme <;> cases ended
  | array items opened =>
    cases lexeme with
    | comma =>
      cases ended
      rw [List.append_assoc, List.append_assoc, ← List.append_assoc (openItems items), openItems_concat]
      exact .value (.array _ opened)
    | closeArray =>
      cases ended
      rw [List.append_assoc, List.append_assoc, ← List.append_assoc (openItems items), openItems_close]
      exact .next _ opened
    | _ => cases ended
  | @object _ before _ key members opened =>
    have whole : before ++ openMembers members ++ [.string key, .colon] ++ value.lexemes ++ [lexeme] =
        before ++ (openMembers members ++ Json.memberLexemes (key, value) ++ [lexeme]) := by
      simp only [Json.memberLexemes, List.append_assoc, List.cons_append, List.nil_append]
    rw [whole]
    cases lexeme with
    | comma =>
      cases ended
      rw [openMembers_concat]
      exact .key _ opened
    | closeObject =>
      cases ended
      rw [openMembers_close]
      exact .next _ opened
    | _ => cases ended

/-- One step takes one lexeme more. -/
theorem took_of_step? (took : Took reading taken)
    (plain : ∀ value, lexeme = .scalar value → value.isScalar = true)
    (stepped : reading.step? lexeme = some next) : Took next (taken ++ [lexeme]) := by
  cases took with
  | value opened => exact took_of_beginValue? opened plain stepped
  | @firstItem layers before held opened =>
    cases lexeme with
    | closeArray =>
      cases stepped
      have empty : openItems [] ++ [.closeArray] = (Json.array []).lexemes := by rw [Json.lexemes_array]; rfl
      rw [List.append_assoc, empty]
      exact .next _ opened
    | _ =>
      have within : Opened (.array held :: layers) (before ++ openItems []) := .array [] opened
      exact took_of_beginValue? within plain stepped
  | firstKey opened =>
    cases lexeme with
    | closeObject =>
      cases stepped
      have empty : openMembers [] ++ [.closeObject] = (Json.object []).lexemes := by
        rw [Json.lexemes_object]
        rfl
      rw [List.append_assoc, empty]
      exact .next _ opened
    | string key =>
      cases stepped
      exact .colon [] opened
    | _ => cases stepped
  | key members opened =>
    cases lexeme with
    | string key =>
      cases stepped
      exact .colon members opened
    | _ => cases stepped
  | colon members opened =>
    cases lexeme with
    | colon =>
      cases stepped
      rw [List.append_assoc]
      exact .value (.object members opened)
    | _ => cases stepped
  | next value opened => exact took_of_endValue? value opened stepped

theorem took_of_run? (took : Took reading taken)
    (plain : ∀ value, .scalar value ∈ lexemes → value.isScalar = true)
    (ran : reading.run? lexemes = some next) : Took next (taken ++ lexemes) := by
  induction lexemes generalizing reading taken with
  | nil =>
    cases ran
    rw [List.append_nil]
    exact took
  | cons lexeme later ih =>
    rw [run?] at ran
    split at ran
    · cases ran
    · next stepped =>
      have first := took_of_step? took (fun value same => plain value (same ▸ List.mem_cons_self ..)) stepped
      have whole := ih first (fun value member => plain value (List.mem_cons_of_mem _ member)) ran
      rwa [List.append_assoc] at whole

/-- A reader that has nothing left open has taken a whole value. -/
theorem exists_lexemes_of_result? {value : Json} (took : Took reading taken)
    (found : reading.result? = some value) : ∃ written : Json, taken = written.lexemes := by
  cases took with
  | next written opened =>
    cases opened with
    | nil => exact ⟨written, List.nil_append _⟩
    | array | object => cases found
  | value | firstItem | firstKey | key | colon => cases found

end Reading

/-- Every text that denotes a value is written as some value is. -/
theorem Json.exists_spells_of_parse? {text : List Char} {value : Json} (found : parse? text = some value) :
    ∃ written : Json, written.Spells text := by
  unfold parse? at found
  split at found
  · cases found
  · next lexemes read =>
    obtain ⟨later, rfl, spaced⟩ := Lexeme.spaced_of_readAllFrom read
    split at found
    · cases found
    · next reading ran =>
      have took := Reading.took_of_run? (.value .nil) (fun _ => Lexeme.isScalar_of_spaced spaced) ran
      obtain ⟨written, same⟩ := Reading.exists_lexemes_of_result? took found
      refine ⟨written, ?_⟩
      rw [Spells, ← same]
      exact spaced

/-- What a text denotes has its members by ascending key. -/
theorem Json.ordered_of_parse? {text : List Char} {value : Json} (found : parse? text = some value) :
    value.Ordered := by
  obtain ⟨written, spells⟩ := exists_spells_of_parse? found
  rw [parse?_of_spells spells] at found
  split at found
  · cases found
    exact written.ordered_sorted
  · cases found

end CilListing
