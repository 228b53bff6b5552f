import CilListing.Proofs.JsonMembers
import CilListing.Proofs.SymbolTables
import CilListing.SymbolFile

namespace CilListing

theorem bind_eq_ok_iff {ε α β : Type} {first : Except ε α} {next : α → Except ε β} {result : β} :
    (first >>= next) = .ok result ↔ ∃ held, first = .ok held ∧ next held = .ok result := by
  cases first with
  | error fault =>
    constructor
    · intro found
      cases found
    · rintro ⟨_, wrong, _⟩
      cases wrong
  | ok held =>
    constructor
    · intro found
      exact ⟨held, rfl, found⟩
    · rintro ⟨_, ⟨⟩, found⟩
      exact found

theorem mem_of_forall₂ {α β : Type} {relation : α → β → Prop} {items : List α} {results : List β}
    (each : List.Forall₂ relation items results) : ∀ item ∈ items, ∃ result ∈ results, relation item result := by
  induction each with
  | nil => exact List.forall_mem_nil _
  | @cons item result _ _ here _ ih =>
    rw [List.forall_mem_cons]
    refine ⟨⟨result, List.mem_cons_self .., here⟩, ?_⟩
    intro other member
    obtain ⟨found, inside, holds⟩ := ih other member
    exact ⟨found, List.mem_cons_of_mem _ inside, holds⟩

theorem exists_forall₂ {α β : Type} {relation : α → β → Prop} {items : List α}
    (each : ∀ item ∈ items, ∃ result, relation item result) : ∃ results, List.Forall₂ relation items results := by
  induction items with
  | nil => exact ⟨[], .nil⟩
  | cons item rest ih =>
    rw [List.forall_mem_cons] at each
    obtain ⟨⟨result, here⟩, later⟩ := each
    obtain ⟨results, others⟩ := ih later
    exact ⟨result :: results, .cons here others⟩

theorem forall₂_trans {α β γ : Type} {first : α → β → Prop} {second : β → γ → Prop} {whole : α → γ → Prop}
    {items : List α} {middle : List β} {results : List γ}
    (step : ∀ item ∈ items, ∀ held result, first item held → second held result → whole item result)
    (before : List.Forall₂ first items middle) (after : List.Forall₂ second middle results) :
    List.Forall₂ whole items results := by
  induction before generalizing results with
  | nil =>
    rw [List.forall₂_nil_left_iff] at after
    subst after
    exact .nil
  | cons here _ ih =>
    obtain ⟨result, later, there, others, rfl⟩ := List.forall₂_cons_left_iff.mp after
    rw [List.forall_mem_cons] at step
    exact .cons (step.1 _ _ here there) (ih step.2 others)

/-- A member is an object with a name and perhaps a type, whatever else stands in it, or an array of
its type and its name. -/
inductive MemberEntry : Json → Member → Prop
  | object {fields type name} :
      ("declaring_type", .string type) ∈ fields ∨ "declaring_type" ∉ fields.map Prod.fst ∧ type = "" →
      ("name", .string name) ∈ fields → MemberEntry (.object fields) ⟨type, name⟩
  | array {type name} : MemberEntry (.array [.string type, .string name]) ⟨type, name⟩

/-- The value that stands for the type of one local variable. -/
def localEntry : Option String → Json
  | none => .null
  | some type => .string type

namespace SymbolKind

/-- The name of the section for one kind. -/
def heading : SymbolKind → String
  | string => "strings"
  | method => "methods"
  | field => "fields"
  | type => "types"
  | locals => "locals"

/-- The values that stand for what is known of a thing. -/
def Describes : (kind : SymbolKind) → Json → kind.Content → Prop
  | string, entry, text => entry = .string text
  | method, entry, member => MemberEntry entry member
  | field, entry, member => MemberEntry entry member
  | type, entry, name => entry = .string name
  | locals, entry, types => entry = .array (types.map localEntry)

def decode : (kind : SymbolKind) → Json → Except DecodeFault kind.Content
  | string => SymbolFile.decodeString
  | method => SymbolFile.decodeMember
  | field => SymbolFile.decodeMember
  | type => SymbolFile.decodeString
  | locals => SymbolFile.decodeLocals

/-- A key spells a token, and the value under it stands for what is known of the token. -/
def Reads (kind : SymbolKind) (entry : String × Json) (pair : Token × kind.Content) : Prop :=
  Token.ofText entry.1 = .ok pair.1 ∧ kind.Describes entry.2 pair.2

theorem heading_injective : Function.Injective heading := by
  intro first second same
  cases first <;> cases second <;> first | rfl | exact absurd same (by decide)

end SymbolKind

namespace Json

/-- An object of entries under texts that spell tokens. -/
def IsSection (kind : SymbolKind) (content : Json) : Prop :=
  ∃ entries, content = .object entries ∧ ∀ entry ∈ entries,
    (∃ token, Token.ofText entry.1 = .ok token) ∧ ∃ held, kind.Describes entry.2 held

/-- An object of sections under their headings. -/
def IsSymbolFile (value : Json) : Prop :=
  ∃ sections, value = .object sections ∧
    ∀ part ∈ sections, ∃ kind, SymbolKind.heading kind = part.1 ∧ IsSection kind part.2

/-- The section of a kind has an entry under a key. -/
def Lists (value : Json) (kind : SymbolKind) (key : String) (entry : Json) : Prop :=
  ∃ sections entries, value = .object sections ∧ (kind.heading, .object entries) ∈ sections ∧
    (key, entry) ∈ entries

end Json

namespace SymbolFile

section Entries

theorem decodeString_ok_iff {value : Json} {text : String} :
    decodeString value = .ok text ↔ value = .string text := by
  constructor
  · intro decoded
    unfold decodeString at decoded
    split at decoded
    · cases decoded
      rfl
    · cases decoded
  · rintro rfl
    rfl

theorem decodeLocalItems_ok_iff {items : List Json} {types : LocalTypes} :
    decodeLocalItems items = .ok types ↔ items = types.map localEntry := by
  constructor
  · intro decoded
    fun_induction decodeLocalItems items generalizing types with
    | case1 =>
      cases decoded
      rfl
    | case2 rest ih =>
      obtain ⟨later, items, same⟩ := bind_eq_ok_iff.mp decoded
      cases same
      rw [ih items, List.map_cons, localEntry]
    | case3 item rest _ ih =>
      obtain ⟨type, text, others⟩ := bind_eq_ok_iff.mp decoded
      obtain ⟨later, items, same⟩ := bind_eq_ok_iff.mp others
      cases same
      rw [ih items, decodeString_ok_iff.mp text, List.map_cons, localEntry]
  · rintro rfl
    induction types with
    | nil => rfl
    | cons type rest ih =>
      cases type with
      | none => rw [List.map_cons, localEntry, decodeLocalItems, ih]; rfl
      | some type =>
        rw [List.map_cons, localEntry, decodeLocalItems, ih]
        · rfl
        · exact nofun

/-- Distinct fields are read in any order. What has been read before them counts where they lack a field. -/
theorem decodeFields_ok_iff {fields : List (String × Json)} (distinct : (fields.map Prod.fst).Nodup)
    {type : String} {name : Option String} {member : Member} :
    decodeFields type name fields = .ok member ↔
      (("declaring_type", .string member.declaringType) ∈ fields ∨
        "declaring_type" ∉ fields.map Prod.fst ∧ member.declaringType = type) ∧
      (("name", .string member.name) ∈ fields ∨ "name" ∉ fields.map Prod.fst ∧ name = some member.name) := by
  induction fields generalizing type name with
  | nil =>
    cases name with
    | none => simp [decodeFields]
    | some name =>
      cases member
      simp [decodeFields, eq_comm]
  | cons field rest ih =>
    obtain ⟨key, value⟩ := field
    rw [List.map_cons, List.nodup_cons] at distinct
    obtain ⟨fresh, distinct⟩ := distinct
    rw [decodeFields]
    -- No later field has this key, so that what is read here is not replaced.
    by_cases isType : key = "declaring_type"
    · subst key
      rw [if_pos rfl, bind_eq_ok_iff]
      simp only [decodeString_ok_iff, ih distinct]
      grind
    · rw [if_neg isType]
      by_cases isName : key = "name"
      · subst key
        rw [if_pos rfl, bind_eq_ok_iff]
        simp only [decodeString_ok_iff, ih distinct]
        grind
      · rw [if_neg isName, ih distinct]
        grind

theorem decodeMember_ok_iff {value : Json} (ordered : value.Ordered) {member : Member} :
    decodeMember value = .ok member ↔ MemberEntry value member := by
  obtain ⟨type, name⟩ := member
  constructor
  · intro decoded
    unfold decodeMember at decoded
    split at decoded
    · next fields =>
      rw [decodeFields_ok_iff (ordered fields .self).nodup_keys] at decoded
      obtain ⟨typed, named⟩ := decoded
      exact .object typed (named.resolve_right fun missing => nomatch missing.2)
    · cases decoded
    · obtain ⟨_, _, short⟩ := bind_eq_ok_iff.mp decoded
      cases short
    · obtain ⟨type, typed, later⟩ := bind_eq_ok_iff.mp decoded
      obtain ⟨name, named, last⟩ := bind_eq_ok_iff.mp later
      split at last
      · next nothing =>
        cases last
        rw [decodeString_ok_iff.mp typed, decodeString_ok_iff.mp named, List.isEmpty_iff.mp nothing]
        exact .array
      · cases last
    · cases decoded
  · intro described
    cases described with
    | object typed named =>
      rw [decodeMember, decodeFields_ok_iff (ordered _ .self).nodup_keys]
      exact ⟨typed, Or.inl named⟩
    | array => rfl

theorem decodeLocals_ok_iff {value : Json} {types : LocalTypes} :
    decodeLocals value = .ok types ↔ value = .array (types.map localEntry) := by
  constructor
  · intro decoded
    unfold decodeLocals at decoded
    split at decoded
    · rw [decodeLocalItems_ok_iff.mp decoded]
    · cases decoded
  · rintro rfl
    exact decodeLocalItems_ok_iff.mpr rfl

/-- What is read is what is described, where no object repeats a key. -/
theorem decode_ok_iff (kind : SymbolKind) {value : Json} (ordered : value.Ordered) {content : kind.Content} :
    kind.decode value = .ok content ↔ kind.Describes value content := by
  cases kind with
  | string => exact decodeString_ok_iff
  | method => exact decodeMember_ok_iff ordered
  | field => exact decodeMember_ok_iff ordered
  | type => exact decodeString_ok_iff
  | locals => exact decodeLocals_ok_iff

end Entries

section Sections

variable {α : Type}

theorem decodeEntries_ok_iff {decode : Json → Except DecodeFault α} {entries : List (String × Json)}
    {decoded : List (String × α)} :
    decodeEntries decode entries = .ok decoded ↔
      List.Forall₂ (fun entry held => held.1 = entry.1 ∧ decode entry.2 = .ok held.2) entries decoded := by
  induction entries generalizing decoded with
  | nil =>
    rw [List.forall₂_nil_left_iff]
    exact ⟨fun same => (Except.ok.inj same).symm, fun same => same ▸ rfl⟩
  | cons entry rest ih =>
    obtain ⟨key, value⟩ := entry
    rw [decodeEntries, bind_eq_ok_iff, List.forall₂_cons_left_iff]
    constructor
    · rintro ⟨held, here, others⟩
      obtain ⟨later, found, same⟩ := bind_eq_ok_iff.mp others
      cases same
      exact ⟨(key, held), later, ⟨rfl, here⟩, ih.mp found, rfl⟩
    · rintro ⟨⟨_, held⟩, later, ⟨rfl, here⟩, found, rfl⟩
      exact ⟨held, here, bind_eq_ok_iff.mpr ⟨later, ih.mpr found, rfl⟩⟩

theorem spellEntries_ok_iff {make : Token → α → Symbols.Entry} {entries : List (String × α)}
    {spelled : List Symbols.Entry} :
    spellEntries make entries = .ok spelled ↔
      ∃ pairs : List (Token × α),
        List.Forall₂ (fun entry pair => Token.ofText entry.1 = .ok pair.1 ∧ pair.2 = entry.2) entries pairs ∧
        spelled = pairs.map fun pair => make pair.1 pair.2 := by
  induction entries generalizing spelled with
  | nil =>
    simp only [List.forall₂_nil_left_iff, exists_eq_left, List.map_nil]
    exact ⟨fun same => (Except.ok.inj same).symm, fun same => same ▸ rfl⟩
  | cons entry rest ih =>
    obtain ⟨key, value⟩ := entry
    rw [spellEntries, bind_eq_ok_iff]
    constructor
    · rintro ⟨token, here, others⟩
      obtain ⟨later, found, same⟩ := bind_eq_ok_iff.mp others
      obtain ⟨pairs, each, rfl⟩ := ih.mp found
      cases same
      exact ⟨(token, value) :: pairs, .cons ⟨here, rfl⟩ each, rfl⟩
    · rintro ⟨_, each, rfl⟩
      obtain ⟨⟨token, _⟩, pairs, ⟨here, rfl⟩, later, rfl⟩ := List.forall₂_cons_left_iff.mp each
      exact ⟨token, here, bind_eq_ok_iff.mpr ⟨_, ih.mpr ⟨pairs, later, rfl⟩, rfl⟩⟩

end Sections

/-- The section of one kind. -/
def part (file : SymbolFile) : (kind : SymbolKind) → List (String × kind.Content)
  | .string => file.strings
  | .method => file.methods
  | .field => file.fields
  | .type => file.types
  | .locals => file.locals

/-- The file with another section of one kind. -/
def put (file : SymbolFile) : (kind : SymbolKind) → List (String × kind.Content) → SymbolFile
  | .string, entries => { file with strings := entries }
  | .method, entries => { file with methods := entries }
  | .field, entries => { file with fields := entries }
  | .type, entries => { file with types := entries }
  | .locals, entries => { file with locals := entries }

section Files

variable {file next : SymbolFile} {kind : SymbolKind}

theorem part_put (entries : List (String × kind.Content)) : (file.put kind entries).part kind = entries := by
  cases kind <;> rfl

theorem part_put_of_ne {other : SymbolKind} (different : other ≠ kind) (entries : List (String × kind.Content)) :
    (file.put kind entries).part other = file.part other := by
  cases kind <;> cases other <;> first | rfl | exact absurd rfl different

theorem addSection_heading (file : SymbolFile) (kind : SymbolKind) (content : Json) :
    addSection file kind.heading content =
      decodeSection kind.decode content >>= fun entries => .ok (file.put kind entries) := by
  cases kind <;> rfl

theorem addSection_ok_iff {name : String} {content : Json} :
    addSection file name content = .ok next ↔ ∃ kind entries, SymbolKind.heading kind = name ∧
      decodeSection kind.decode content = .ok entries ∧ next = file.put kind entries := by
  constructor
  · intro added
    have known : ∃ kind, SymbolKind.heading kind = name := by
      unfold addSection at added
      split_ifs at added with isStrings isMethods isFields isTypes isLocals
      · exact ⟨.string, isStrings.symm⟩
      · exact ⟨.method, isMethods.symm⟩
      · exact ⟨.field, isFields.symm⟩
      · exact ⟨.type, isTypes.symm⟩
      · exact ⟨.locals, isLocals.symm⟩
    obtain ⟨kind, rfl⟩ := known
    rw [addSection_heading, bind_eq_ok_iff] at added
    obtain ⟨entries, decoded, same⟩ := added
    cases same
    exact ⟨kind, entries, rfl, decoded, rfl⟩
  · rintro ⟨kind, entries, rfl, decoded, rfl⟩
    rw [addSection_heading, decoded]
    rfl

theorem decodeSection_ok_iff {α : Type} {decode : Json → Except DecodeFault α} {content : Json}
    {decoded : List (String × α)} :
    decodeSection decode content = .ok decoded ↔
      ∃ entries, content = .object entries ∧ decodeEntries decode entries = .ok decoded := by
  constructor
  · intro found
    unfold decodeSection at found
    split at found
    · exact ⟨_, rfl, found⟩
    · cases found
  · rintro ⟨entries, rfl, found⟩
    exact found

variable {sections : List (String × Json)}

theorem exists_addSections (each : ∀ part ∈ sections, ∃ kind entries, SymbolKind.heading kind = part.1 ∧
    decodeSection kind.decode part.2 = .ok entries) (file : SymbolFile) :
    ∃ result, addSections file sections = .ok result := by
  induction sections generalizing file with
  | nil => exact ⟨file, rfl⟩
  | cons first rest ih =>
    rw [List.forall_mem_cons] at each
    obtain ⟨⟨kind, entries, named, decoded⟩, later⟩ := each
    obtain ⟨result, added⟩ := ih later (file.put kind entries)
    refine ⟨result, ?_⟩
    rw [addSections, addSection_ok_iff.mpr ⟨kind, entries, named, decoded, rfl⟩]
    exact added

/-- Every section is read into the part of its kind, and no section that comes later changes it. -/
theorem part_addSections (distinct : (sections.map Prod.fst).Nodup)
    (added : addSections file sections = .ok next) :
    (∀ part ∈ sections, ∃ kind, SymbolKind.heading kind = part.1 ∧
      decodeSection kind.decode part.2 = .ok (next.part kind)) ∧
    ∀ kind, SymbolKind.heading kind ∉ sections.map Prod.fst → next.part kind = file.part kind := by
  induction sections generalizing file with
  | nil =>
    cases added
    exact ⟨List.forall_mem_nil _, fun _ _ => rfl⟩
  | cons first rest ih =>
    obtain ⟨middle, here, others⟩ := bind_eq_ok_iff.mp added
    obtain ⟨kind, entries, named, decoded, rfl⟩ := addSection_ok_iff.mp here
    rw [List.map_cons, List.nodup_cons] at distinct
    obtain ⟨read, kept⟩ := ih distinct.2 others
    constructor
    · rw [List.forall_mem_cons]
      refine ⟨⟨kind, named, ?_⟩, read⟩
      rw [kept kind (named ▸ distinct.1), part_put, decoded]
    · intro other absent
      rw [List.map_cons, List.mem_cons, not_or] at absent
      have different : other ≠ kind := fun same => absent.1 (same ▸ named)
      rw [kept other absent.2, part_put_of_ne different]

/-- The entries of all sections, taken apart again by kind. -/
theorem under?_entries {spelled : List Symbols.Entry} (found : file.entries = .ok spelled) (kind : SymbolKind) :
    ∃ pairs : List (Token × kind.Content),
      List.Forall₂ (fun entry pair => Token.ofText entry.1 = .ok pair.1 ∧ pair.2 = entry.2) (file.part kind) pairs ∧
      spelled.filterMap (·.under? kind) = pairs := by
  obtain ⟨_, stringsSpelled, found⟩ := bind_eq_ok_iff.mp found
  obtain ⟨_, methodsSpelled, found⟩ := bind_eq_ok_iff.mp found
  obtain ⟨_, fieldsSpelled, found⟩ := bind_eq_ok_iff.mp found
  obtain ⟨_, typesSpelled, found⟩ := bind_eq_ok_iff.mp found
  obtain ⟨_, localsSpelled, same⟩ := bind_eq_ok_iff.mp found
  obtain ⟨strings, stringsEach, rfl⟩ := spellEntries_ok_iff.mp stringsSpelled
  obtain ⟨methods, methodsEach, rfl⟩ := spellEntries_ok_iff.mp methodsSpelled
  obtain ⟨fields, fieldsEach, rfl⟩ := spellEntries_ok_iff.mp fieldsSpelled
  obtain ⟨types, typesEach, rfl⟩ := spellEntries_ok_iff.mp typesSpelled
  obtain ⟨locals, localsEach, rfl⟩ := spellEntries_ok_iff.mp localsSpelled
  cases same
  cases kind with
  | string => exact ⟨strings, stringsEach, by simp [Symbols.Entry.under?]⟩
  | method => exact ⟨methods, methodsEach, by simp [Symbols.Entry.under?]⟩
  | field => exact ⟨fields, fieldsEach, by simp [Symbols.Entry.under?]⟩
  | type => exact ⟨types, typesEach, by simp [Symbols.Entry.under?]⟩
  | locals => exact ⟨locals, localsEach, by simp [Symbols.Entry.under?]⟩

theorem exists_entries (each : ∀ kind, ∀ entry ∈ file.part kind, ∃ token, Token.ofText entry.1 = .ok token) :
    ∃ spelled, file.entries = .ok spelled := by
  have spells (kind : SymbolKind) (make : Token → kind.Content → Symbols.Entry) :
      ∃ spelled, spellEntries make (file.part kind) = .ok spelled := by
    have pairs : ∀ entry ∈ file.part kind, ∃ pair : Token × kind.Content,
        Token.ofText entry.1 = .ok pair.1 ∧ pair.2 = entry.2 := by
      intro entry member
      obtain ⟨token, spelled⟩ := each kind entry member
      exact ⟨(token, entry.2), spelled, rfl⟩
    obtain ⟨pairs, spelled⟩ := exists_forall₂ pairs
    exact ⟨_, spellEntries_ok_iff.mpr ⟨pairs, spelled, rfl⟩⟩
  obtain ⟨strings, stringsOk⟩ := spells .string .string
  obtain ⟨methods, methodsOk⟩ := spells .method .method
  obtain ⟨fields, fieldsOk⟩ := spells .field .field
  obtain ⟨types, typesOk⟩ := spells .type .type
  obtain ⟨locals, localsOk⟩ := spells .locals .locals
  simp only [part] at stringsOk methodsOk fieldsOk typesOk localsOk
  refine ⟨strings ++ methods ++ fields ++ types ++ locals, ?_⟩
  rw [entries, stringsOk, methodsOk, fieldsOk, typesOk, localsOk]
  rfl

end Files

section Tables

variable {value : Json} {table : Symbols}

theorem reads_section {kind : SymbolKind} {entries : List (String × Json)}
    (ordered : ∀ entry ∈ entries, entry.2.Ordered) {decoded : List (String × kind.Content)}
    {pairs : List (Token × kind.Content)} (found : decodeEntries kind.decode entries = .ok decoded)
    (spelled : List.Forall₂ (fun entry pair => Token.ofText entry.1 = .ok pair.1 ∧ pair.2 = entry.2)
      decoded pairs) : List.Forall₂ kind.Reads entries pairs := by
  refine forall₂_trans ?_ (decodeEntries_ok_iff.mp found) spelled
  rintro entry member held pair ⟨sameKey, decoded⟩ ⟨token, samePair⟩
  refine ⟨sameKey ▸ token, ?_⟩
  rw [← decode_ok_iff kind (ordered entry member), decoded, samePair]

/-- What a table holds of each kind has been read from the section of the kind, entry by entry. A kind
without a section has nothing. -/
theorem reads_of_symbolsOfJson (ordered : value.Ordered) (found : symbolsOfJson value = .ok table) :
    ∃ sections, value = .object sections ∧
      (∀ part ∈ sections, ∃ kind entries pairs, SymbolKind.heading kind = part.1 ∧ part.2 = .object entries ∧
        List.Forall₂ kind.Reads entries pairs ∧ table.part kind = TokenMap.insertAll [] pairs) ∧
      ∀ kind, SymbolKind.heading kind ∉ sections.map Prod.fst → table.part kind = [] := by
  unfold symbolsOfJson at found
  split at found
  · next sections =>
    split at found
    · cases found
    · next file added =>
      split at found
      · cases found
      · next spelled listed =>
        cases found
        have distinct := (ordered sections .self).nodup_keys
        obtain ⟨read, kept⟩ := part_addSections distinct added
        refine ⟨sections, rfl, ?_, ?_⟩
        · intro part member
          obtain ⟨kind, named, decoded⟩ := read part member
          obtain ⟨entries, content, decoded⟩ := decodeSection_ok_iff.mp decoded
          obtain ⟨pairs, tokens, same⟩ := under?_entries listed kind
          have inner : ∀ entry ∈ entries, entry.2.Ordered := by
            intro entry inside members within
            exact ordered members (.member member (content ▸ .member inside within))
          refine ⟨kind, entries, pairs, named, content, reads_section inner decoded tokens, ?_⟩
          rw [Symbols.part_ofEntries, same]
        · intro kind absent
          obtain ⟨pairs, tokens, same⟩ := under?_entries listed kind
          have nothing : file.part kind = [] := by
            rw [kept kind absent]
            cases kind <;> rfl
          rw [nothing, List.forall₂_nil_left_iff] at tokens
          rw [Symbols.part_ofEntries, same, tokens]
          rfl
  · cases found

theorem exists_decodeSection {kind : SymbolKind} {content : Json} (ordered : content.Ordered)
    (isSection : Json.IsSection kind content) : ∃ decoded, decodeSection kind.decode content = .ok decoded := by
  obtain ⟨entries, rfl, described⟩ := isSection
  have decodes : ∀ entry ∈ entries, ∃ held : String × kind.Content,
      held.1 = entry.1 ∧ kind.decode entry.2 = .ok held.2 := by
    intro entry inside
    obtain ⟨_, held, describes⟩ := described entry inside
    have inner : entry.2.Ordered := fun members within => ordered members (.member inside within)
    exact ⟨(entry.1, held), rfl, (decode_ok_iff kind inner).mpr describes⟩
  obtain ⟨decoded, found⟩ := exists_forall₂ decodes
  exact ⟨decoded, decodeEntries_ok_iff.mpr found⟩

theorem spells_of_isSection {kind : SymbolKind} {content : Json} {decoded : List (String × kind.Content)}
    (isSection : Json.IsSection kind content) (found : decodeSection kind.decode content = .ok decoded) :
    ∀ entry ∈ decoded, ∃ token, Token.ofText entry.1 = .ok token := by
  obtain ⟨entries, rfl, described⟩ := isSection
  intro entry member
  obtain ⟨source, inside, same, _⟩ := mem_of_forall₂ (decodeEntries_ok_iff.mp found).flip entry member
  rw [same]
  exact (described source inside).1

/-- Every key of every section spells a token. -/
theorem spells_of_addSections {sections : List (String × Json)} {file : SymbolFile}
    (distinct : (sections.map Prod.fst).Nodup)
    (each : ∀ part ∈ sections, ∃ kind, SymbolKind.heading kind = part.1 ∧ Json.IsSection kind part.2)
    (added : addSections {} sections = .ok file) (kind : SymbolKind) :
    ∀ entry ∈ file.part kind, ∃ token, Token.ofText entry.1 = .ok token := by
  obtain ⟨read, kept⟩ := part_addSections distinct added
  by_cases present : kind.heading ∈ sections.map Prod.fst
  · obtain ⟨part, member, named⟩ := List.mem_map.mp present
    obtain ⟨reader, readerNamed, decoded⟩ := read part member
    obtain ⟨checker, checkerNamed, isSection⟩ := each part member
    obtain rfl : reader = kind := SymbolKind.heading_injective (readerNamed.trans named)
    obtain rfl : checker = reader := SymbolKind.heading_injective (checkerNamed.trans named)
    exact spells_of_isSection isSection decoded
  · have nothing : file.part kind = [] := by
      rw [kept kind present]
      cases kind <;> rfl
    rw [nothing]
    exact List.forall_mem_nil _

/-- A table can be read from exactly the symbol files. -/
theorem exists_symbolsOfJson_iff (ordered : value.Ordered) :
    (∃ table, symbolsOfJson value = .ok table) ↔ value.IsSymbolFile := by
  constructor
  · rintro ⟨table, found⟩
    obtain ⟨sections, rfl, each, _⟩ := reads_of_symbolsOfJson ordered found
    refine ⟨sections, rfl, ?_⟩
    intro part member
    obtain ⟨kind, entries, pairs, named, content, reads, _⟩ := each part member
    refine ⟨kind, named, entries, content, ?_⟩
    intro entry inside
    obtain ⟨pair, _, token, described⟩ := mem_of_forall₂ reads entry inside
    exact ⟨⟨pair.1, token⟩, pair.2, described⟩
  · rintro ⟨sections, rfl, each⟩
    have decodes : ∀ part ∈ sections, ∃ kind entries, SymbolKind.heading kind = part.1 ∧
        decodeSection kind.decode part.2 = .ok entries := by
      intro part member
      obtain ⟨kind, named, isSection⟩ := each part member
      have inner : part.2.Ordered := fun members within => ordered members (.member member within)
      obtain ⟨entries, decoded⟩ := exists_decodeSection inner isSection
      exact ⟨kind, entries, named, decoded⟩
    obtain ⟨file, added⟩ := exists_addSections decodes {}
    have spells := spells_of_addSections (ordered sections .self).nodup_keys each added
    obtain ⟨spelled, listed⟩ := exists_entries spells
    refine ⟨Symbols.ofEntries spelled, ?_⟩
    simp only [symbolsOfJson, added, listed]

/-- What a table holds of one kind has been read from the entries that the kind has, by ascending key. -/
theorem part_symbolsOfJson (ordered : value.Ordered) (found : symbolsOfJson value = .ok table)
    (kind : SymbolKind) : ∃ entries pairs, Json.Ascending entries ∧
      (∀ key entry, value.Lists kind key entry ↔ (key, entry) ∈ entries) ∧
      List.Forall₂ kind.Reads entries pairs ∧ table.part kind = TokenMap.insertAll [] pairs := by
  obtain ⟨sections, rfl, each, missing⟩ := reads_of_symbolsOfJson ordered found
  by_cases present : kind.heading ∈ sections.map Prod.fst
  · obtain ⟨part, member, named⟩ := List.mem_map.mp present
    obtain ⟨other, entries, pairs, heading, content, reads, held⟩ := each part member
    obtain rfl : other = kind := SymbolKind.heading_injective (heading.trans named)
    refine ⟨entries, pairs, ordered entries (.member member (content ▸ .self)), ?_, reads, held⟩
    intro key entry
    constructor
    · rintro ⟨_, others, ⟨⟩, inside, listed⟩
      have same := List.inj_on_of_nodup_map (ordered sections .self).nodup_keys inside member heading
      rw [← same] at content
      cases content
      exact listed
    · intro listed
      refine ⟨sections, entries, rfl, ?_, listed⟩
      rw [heading, ← content]
      exact member
  · refine ⟨[], [], .nil, ?_, .nil, missing kind present⟩
    intro key entry
    constructor
    · rintro ⟨_, entries, ⟨⟩, inside, _⟩
      exact absurd (List.mem_map_of_mem inside) present
    · intro listed
      cases listed

end Tables

end SymbolFile

end CilListing
