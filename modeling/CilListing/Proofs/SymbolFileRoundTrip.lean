import CilListing.Proofs.SymbolFileFormat

namespace CilListing

/-- The ways to write a member: as an object of its type and its name in either order, without the type
where that is empty, or as an array. -/
inductive WritesMember : Member → Json → Prop
  | object {type name fields} : fields.Perm [("declaring_type", .string type), ("name", .string name)] →
      WritesMember ⟨type, name⟩ (.object fields)
  | untyped {name} : WritesMember ⟨"", name⟩ (.object [("name", .string name)])
  | array {type name} : WritesMember ⟨type, name⟩ (.array [.string type, .string name])

namespace SymbolKind

/-- The ways to write what is known of a thing. -/
def Writes : (kind : SymbolKind) → kind.Content → Json → Prop
  | string, text, written => written = .string text
  | method, member, written => WritesMember member written
  | field, member, written => WritesMember member written
  | type, name, written => written = .string name
  | locals, types, written => written = .array (types.map localEntry)

/-- An entry is written under any text that spells its token. -/
def WritesEntry (kind : SymbolKind) (pair : Token × kind.Content) (entry : String × Json) : Prop :=
  Token.ofText entry.1 = .ok pair.1 ∧ kind.Writes pair.2 entry.2

/-- The entries of a kind are written in any order. -/
def WritesSection (kind : SymbolKind) (map : TokenMap kind.Content) (content : Json) : Prop :=
  ∃ ordered entries, ordered.Perm map ∧ content = .object entries ∧
    List.Forall₂ kind.WritesEntry ordered entries

end SymbolKind

/-- The sections of a table are written in any order, each of them once. A section without entries may
be left out. -/
structure Symbols.WrittenAs (symbols : Symbols) (sections : List (String × Json)) : Prop where
  distinct : (sections.map Prod.fst).Nodup
  known : ∀ part ∈ sections, ∃ kind, SymbolKind.heading kind = part.1 ∧
    kind.WritesSection (symbols.part kind) part.2
  complete : ∀ kind, kind.heading ∈ sections.map Prod.fst ∨ symbols.part kind = []

namespace Json

variable {members : List (String × Json)} {key : String} {entry : Json}

theorem mem_sorted_members (distinct : (members.map Prod.fst).Nodup) :
    (key, entry) ∈ sortMembers (members.map fun member => (member.1, member.2.sorted)) ↔
      ∃ source, (key, source) ∈ members ∧ source.sorted = entry := by
  have keys : ((members.map fun member => (member.1, member.2.sorted)).map Prod.fst).Nodup := by
    rw [List.map_map]
    exact distinct
  rw [(perm_sortMembers keys).mem_iff, List.mem_map]
  constructor
  · rintro ⟨⟨_, source⟩, member, same⟩
    cases same
    exact ⟨source, member, rfl⟩
  · rintro ⟨source, member, rfl⟩
    exact ⟨(key, source), member, rfl⟩

theorem sorted_localEntry (type : Option String) : (localEntry type).sorted = localEntry type := by
  cases type with
  | none => exact sorted_scalar rfl
  | some type => exact sorted_string type

end Json

section Members

variable {member : Member} {written : Json}

theorem describes_sorted_member (writes : WritesMember member written) : MemberEntry written.sorted member := by
  cases writes with
  | @object type name fields perm =>
    have distinct : (fields.map Prod.fst).Nodup := (perm.map Prod.fst).nodup_iff.mpr (by simp)
    rw [Json.sorted_object]
    refine .object (Or.inl ?_) ?_
    · exact (Json.mem_sorted_members distinct).mpr ⟨_, perm.mem_iff.mpr (by simp), Json.sorted_string _⟩
    · exact (Json.mem_sorted_members distinct).mpr ⟨_, perm.mem_iff.mpr (by simp), Json.sorted_string _⟩
  | untyped =>
    rw [Json.sorted_object]
    simp only [List.map_cons, List.map_nil, Json.sorted_string, Json.sortMembers, List.foldl_cons, List.foldl_nil,
      Json.insertMember]
    exact .object (Or.inr ⟨by simp, rfl⟩) (List.mem_cons_self ..)
  | array =>
    rw [Json.sorted_array]
    simp only [List.map_cons, List.map_nil, Json.sorted_string]
    exact .array

theorem depth_writesMember (writes : WritesMember member written) : written.depth ≤ 1 := by
  cases writes with
  | object perm =>
    rw [Json.depth_object_le]
    refine ⟨Nat.one_pos, ?_⟩
    intro field inside
    have listed := perm.mem_iff.mp inside
    simp only [List.mem_cons, List.not_mem_nil, or_false] at listed
    rcases listed with rfl | rfl <;> exact Nat.le_of_eq (Json.depth_string _)
  | untyped => simp [Json.depth_object_le, Json.depth_string]
  | array => simp [Json.depth_array_le, Json.depth_string]

end Members

section Entries

variable {kind : SymbolKind} {held : kind.Content} {written : Json}

/-- What is written is described, also when it has been sorted. -/
theorem describes_sorted (writes : kind.Writes held written) : kind.Describes written.sorted held := by
  cases kind with
  | string | type =>
    cases writes
    exact Json.sorted_string _
  | method | field => exact describes_sorted_member writes
  | locals =>
    obtain rfl : written = .array (held.map localEntry) := writes
    have same : held.map (Json.sorted ∘ localEntry) = held.map localEntry :=
      List.map_congr_left fun type _ => Json.sorted_localEntry type
    rw [Json.sorted_array, List.map_map, same]
    rfl

theorem depth_writes (writes : kind.Writes held written) : written.depth ≤ 1 := by
  cases kind with
  | string | type =>
    cases writes
    rw [Json.depth_string]
    exact Nat.zero_le 1
  | method | field => exact depth_writesMember writes
  | locals =>
    cases writes
    rw [Json.depth_array_le, List.forall_mem_map]
    refine ⟨Nat.one_pos, ?_⟩
    intro type _
    cases type with
    | none => exact Nat.le_of_eq (Json.depth_scalar rfl)
    | some type => exact Nat.le_of_eq (Json.depth_string type)

variable {ordered : List (Token × kind.Content)} {entries : List (String × Json)}

theorem tokens_of_writes (each : List.Forall₂ kind.WritesEntry ordered entries) :
    (entries.map fun entry => Token.ofText entry.1) = ordered.map fun pair => .ok pair.1 := by
  induction each with
  | nil => rfl
  | cons here _ ih => rw [List.map_cons, List.map_cons, ih, here.1]

/-- Each token is spelled only once. -/
theorem nodup_spellings (each : List.Forall₂ kind.WritesEntry ordered entries)
    (nodup : (ordered.map Prod.fst).Nodup) : (entries.map fun entry => Token.ofText entry.1).Nodup := by
  have wrapped := nodup.map (f := (Except.ok : Token → Except SpellingFault Token)) fun _ _ => Except.ok.inj
  rw [tokens_of_writes each]
  rwa [List.map_map] at wrapped

theorem nodup_keys (each : List.Forall₂ kind.WritesEntry ordered entries)
    (nodup : (ordered.map Prod.fst).Nodup) : (entries.map Prod.fst).Nodup := by
  have spellings : ((entries.map Prod.fst).map Token.ofText).Nodup := by
    rw [List.map_map]
    exact nodup_spellings each nodup
  exact spellings.of_map

end Entries

section Sections

variable {symbols : Symbols} {sections : List (String × Json)}

/-- The entries that the written sections have when they have been sorted. -/
theorem lists_sorted (writes : symbols.WrittenAs sections)
    (nodup : ∀ kind, (symbols.part kind).tokens.Nodup) (kind : SymbolKind) :
    ∃ ordered entries, ordered.Perm (symbols.part kind) ∧ List.Forall₂ kind.WritesEntry ordered entries ∧
      ∀ key entry, (Json.object sections).sorted.Lists kind key entry ↔
        ∃ source, (key, source) ∈ entries ∧ source.sorted = entry := by
  by_cases present : kind.heading ∈ sections.map Prod.fst
  · obtain ⟨part, member, named⟩ := List.mem_map.mp present
    obtain ⟨other, heading, ordered, entries, perm, content, each⟩ := writes.known part member
    obtain rfl : other = kind := SymbolKind.heading_injective (heading.trans named)
    have distinct := nodup_keys each ((perm.map Prod.fst).nodup_iff.mpr (nodup other))
    refine ⟨ordered, entries, perm, each, ?_⟩
    intro key entry
    rw [Json.sorted_object]
    constructor
    · rintro ⟨_, inner, ⟨⟩, inside, listed⟩
      obtain ⟨source, written, same⟩ := (Json.mem_sorted_members writes.distinct).mp inside
      have equal : source = part.2 :=
        congrArg Prod.snd (List.inj_on_of_nodup_map writes.distinct written member heading)
      rw [equal, content, Json.sorted_object] at same
      cases same
      exact (Json.mem_sorted_members distinct).mp listed
    · intro listed
      refine ⟨_, _, rfl, ?_, (Json.mem_sorted_members distinct).mpr listed⟩
      refine (Json.mem_sorted_members writes.distinct).mpr ⟨.object entries, ?_, Json.sorted_object entries⟩
      rw [heading, ← content]
      exact member
  · have nothing := (writes.complete kind).resolve_left present
    refine ⟨[], [], nothing ▸ .refl _, .nil, ?_⟩
    intro key entry
    rw [Json.sorted_object]
    constructor
    · rintro ⟨_, inner, ⟨⟩, inside, _⟩
      obtain ⟨source, written, _⟩ := (Json.mem_sorted_members writes.distinct).mp inside
      exact absurd (List.mem_map_of_mem written) present
    · rintro ⟨source, inside, _⟩
      cases inside

theorem isSymbolFile_sorted (writes : symbols.WrittenAs sections)
    (nodup : ∀ kind, (symbols.part kind).tokens.Nodup) : (Json.object sections).sorted.IsSymbolFile := by
  rw [Json.sorted_object]
  refine ⟨_, rfl, ?_⟩
  rintro ⟨name, content⟩ inside
  obtain ⟨source, written, rfl⟩ := (Json.mem_sorted_members writes.distinct).mp inside
  obtain ⟨kind, heading, ordered, entries, perm, rfl, each⟩ := writes.known _ written
  have distinct := nodup_keys each ((perm.map Prod.fst).nodup_iff.mpr (nodup kind))
  refine ⟨kind, heading, _, Json.sorted_object entries, ?_⟩
  rintro ⟨key, entry⟩ listed
  obtain ⟨source, member, rfl⟩ := (Json.mem_sorted_members distinct).mp listed
  obtain ⟨pair, _, spelled, held⟩ := mem_of_forall₂ each.flip _ member
  exact ⟨⟨pair.1, spelled⟩, pair.2, describes_sorted held⟩

theorem depth_written (writes : symbols.WrittenAs sections) : (Json.object sections).depth ≤ 3 := by
  rw [Json.depth_object_le]
  refine ⟨by decide, ?_⟩
  intro part member
  obtain ⟨kind, _, ordered, entries, _, content, each⟩ := writes.known part member
  rw [content, Json.depth_object_le]
  refine ⟨by decide, ?_⟩
  intro entry inside
  obtain ⟨pair, _, _, held⟩ := mem_of_forall₂ each.flip _ inside
  exact depth_writes held

/-- A token is looked up in the table that has been read as in the one that was written. -/
theorem found_iff_of_written (writes : symbols.WrittenAs sections)
    (nodup : ∀ kind, (symbols.part kind).tokens.Nodup) {table : Symbols}
    (tabulates : (Json.object sections).sorted.Tabulates table) (kind : SymbolKind) (token : Token)
    (held : kind.Content) :
    table.backend.reply kind token = .found held ↔ (token, held) ∈ symbols.part kind := by
  obtain ⟨ordered, entries, perm, each, lists⟩ := lists_sorted writes nodup kind
  have once := nodup_spellings each ((perm.map Prod.fst).nodup_iff.mpr (nodup kind))
  rw [tabulates.found, ← perm.mem_iff]
  constructor
  · rintro ⟨key, entry, ⟨listed, spelled⟩, described, _⟩
    obtain ⟨source, inside, rfl⟩ := (lists key entry).mp listed
    obtain ⟨⟨other, content⟩, member, spells, written⟩ := mem_of_forall₂ each.flip _ inside
    obtain rfl : other = token := Except.ok.inj (spells.symm.trans spelled)
    rw [SymbolFile.describes_unique source.ordered_sorted described (describes_sorted written)]
    exact member
  · intro member
    obtain ⟨⟨key, source⟩, inside, spells, written⟩ := mem_of_forall₂ each _ member
    refine ⟨key, source.sorted, ⟨(lists key _).mpr ⟨source, inside, rfl⟩, spells⟩, describes_sorted written, ?_⟩
    rintro other second ⟨listed, spelled⟩
    -- No other key spells the token.
    obtain ⟨another, present, _⟩ := (lists other second).mp listed
    have same := List.inj_on_of_nodup_map once present inside (spelled.trans spells.symm)
    cases same
    exact utf8Bytes_le_iff.mpr (String.le_refl key)

end Sections

namespace SymbolFile

theorem symbolsOfJson_written {symbols : Symbols} {sections : List (String × Json)}
    (writes : symbols.WrittenAs sections) (nodup : ∀ kind, (symbols.part kind).tokens.Nodup) :
    ∃ table, symbolsOfJson (Json.object sections).sorted = .ok table ∧ table.backend = symbols.backend ∧
      table.size = symbols.size := by
  have ordered := Json.ordered_sorted (.object sections)
  obtain ⟨table, found⟩ := (exists_symbolsOfJson_iff ordered).mpr (isSymbolFile_sorted writes nodup)
  have tabulates := tabulates_of_symbolsOfJson ordered found
  have same (kind : SymbolKind) (token : Token) :
      (table.part kind).get? token = (symbols.part kind).get? token := by
    ext held
    rw [TokenMap.get?_eq_some_iff (nodup kind), ← found_iff_of_written writes nodup tabulates,
      Symbols.reply_backend, TokenMap.reply_eq_found_iff]
  refine ⟨table, found, ?_, ?_⟩
  · apply Backend.eq_of_reply
    intro kind
    ext token
    rw [Symbols.reply_backend, Symbols.reply_backend, TokenMap.reply, TokenMap.reply, same]
  · rw [Symbols.size_eq_sum, Symbols.size_eq_sum]
    congr 1
    apply List.map_congr_left
    intro kind _
    obtain ⟨entries, pairs, _, _, _, part⟩ := part_symbolsOfJson ordered found kind
    apply TokenMap.length_eq_of_get? _ (nodup kind) (same kind)
    rw [part]
    exact TokenMap.nodup_insertAll_nil pairs

/-- A text is read by the sorted value alone. -/
theorem parse_of_spells {value : Json} {text : List Char} (spells : value.Spells text) :
    parse text = if value.depth ≤ Reading.maxDepth then symbolsOfJson value.sorted else .error .notJson := by
  rw [parse, Json.parse?_of_spells spells]
  by_cases shallow : value.depth ≤ Reading.maxDepth
  · rw [if_pos shallow, if_pos shallow]
  · rw [if_neg shallow, if_neg shallow]

/-- Symbol files lose nothing: a table is read back from any text that it is written with. The order of
members decides nothing, neither what is read nor what is found wrong. -/
theorem parse_written_shuffled :
    (∀ (added : List Symbols.Entry) (sections : List (String × Json)) (text : List Char),
      (Symbols.ofEntries added).WrittenAs sections → (Json.object sections).Spells text →
      ∃ table, parse text = .ok table ∧ table.backend = (Symbols.ofEntries added).backend ∧
        table.size = (Symbols.ofEntries added).size) ∧
    ∀ (text : List Char) (value : Json), Json.parse? text = some value →
      (∃ written : Json, written.Spells text) ∧
      ∀ (written other : Json) (otherText : List Char), written.Spells text → written.Distinct →
        Json.Shuffled written other → other.Spells otherText → parse otherText = parse text := by
  refine ⟨?_, ?_⟩
  · intro added sections text writes spells
    have shallow : (Json.object sections).depth ≤ Reading.maxDepth := Nat.le_trans (depth_written writes) (by decide)
    rw [parse_of_spells spells, if_pos shallow]
    exact symbolsOfJson_written writes (Symbols.nodup_part_ofEntries added)
  · intro text value denoted
    refine ⟨Json.exists_spells_of_parse? denoted, ?_⟩
    intro written other otherText spells distinct shuffled otherSpells
    have sameValue := (shuffled.sorted_eq distinct).2
    have sameDepth := shuffled.depth_le_iff Reading.maxDepth
    rw [parse_of_spells spells, parse_of_spells otherSpells, sameValue]
    exact if_congr sameDepth.symm rfl rfl

/-- A file with the name of one type and a section without entries. -/
def oneType : List (String × Json) := [("types", .object [("0x10", .string "A")]), ("strings", .object [])]

theorem writtenAs_oneType : (Symbols.ofEntries [.type ⟨16⟩ "A"]).WrittenAs oneType where
  distinct := by decide
  known := by
    intro part member
    simp only [oneType, List.mem_cons, List.not_mem_nil, or_false] at member
    rcases member with rfl | rfl
    · exact ⟨.type, rfl, [(⟨16⟩, "A")], _, .refl _, rfl, .cons ⟨by decide, rfl⟩ .nil⟩
    · exact ⟨.string, rfl, [], _, .refl _, rfl, .nil⟩
  complete := by
    intro kind
    cases kind with
    | string | type => exact Or.inl (by decide)
    | method | field | locals => exact Or.inr rfl

theorem distinct_oneType : (Json.object oneType).Distinct := by
  simp only [oneType, Json.distinct_object, List.forall_mem_cons]
  refine ⟨by decide, ⟨by decide, ?_, List.forall_mem_nil _⟩, ⟨List.nodup_nil, List.forall_mem_nil _⟩,
    List.forall_mem_nil _⟩
  intro members within
  cases within

/-- The text of the file with spaces and an escape, and another with its sections in the other order. -/
def oneTypeText : List Char := "\x7b\"types\": \x7b\"0x10\": \"\\u0041\"\x7d, \"strings\": \x7b\x7d\x7d".toList

def oneTypeTurned : List Char := "\x7b \"strings\":\x7b\x7d,\"types\":\x7b\"0x10\":\"A\"\x7d\x7d".toList

theorem spells_oneType : (Json.object oneType).Spells oneTypeText := by
  have types : Lexeme.SpellsText "types".toList "types".toList := Lexeme.spellsText_self (by decide)
  have strings : Lexeme.SpellsText "strings".toList "strings".toList := Lexeme.spellsText_self (by decide)
  have token : Lexeme.SpellsText "0x10".toList "0x10".toList := Lexeme.spellsText_self (by decide)
  have letter : Lexeme.SpellsText "A".toList "\\u0041".toList := .cons (.unit rfl) .nil
  simp only [Json.Spells, oneType, Json.lexemes_object, List.map_cons, List.map_nil, Json.memberLexemes,
    Json.lexemes, List.intercalate_singleton, List.intercalate_cons_cons, List.intercalate_nil]
  exact Lexeme.Spaced.cons .openObject <| .cons (.string types) <| .cons .colon <| .space rfl <|
    .cons .openObject <| .cons (.string token) <| .cons .colon <| .space rfl <| .cons (.string letter) <|
    .cons .closeObject <| .cons .comma <| .space rfl <| .cons (.string strings) <| .cons .colon <| .space rfl <|
    .cons .openObject <| .cons .closeObject <| .cons .closeObject .nil

theorem spells_oneTypeTurned : (Json.object oneType.reverse).Spells oneTypeTurned := by
  have types : Lexeme.SpellsText "types".toList "types".toList := Lexeme.spellsText_self (by decide)
  have strings : Lexeme.SpellsText "strings".toList "strings".toList := Lexeme.spellsText_self (by decide)
  have token : Lexeme.SpellsText "0x10".toList "0x10".toList := Lexeme.spellsText_self (by decide)
  have letter : Lexeme.SpellsText "A".toList "A".toList := Lexeme.spellsText_self (by decide)
  simp only [Json.Spells, oneType, List.reverse_cons, List.reverse_nil, List.nil_append, List.cons_append,
    Json.lexemes_object, List.map_cons, List.map_nil, Json.memberLexemes,
    Json.lexemes, List.intercalate_singleton, List.intercalate_cons_cons, List.intercalate_nil]
  exact Lexeme.Spaced.cons .openObject <| .space rfl <| .cons (.string strings) <| .cons .colon <|
    .cons .openObject <| .cons .closeObject <| .cons .comma <| .cons (.string types) <| .cons .colon <|
    .cons .openObject <| .cons (.string token) <| .cons .colon <| .cons (.string letter) <|
    .cons .closeObject <| .cons .closeObject .nil

theorem parse_written_shuffled_oneType :
    (∃ table, parse oneTypeText = .ok table ∧
      table.backend = (Symbols.ofEntries [.type ⟨16⟩ "A"]).backend ∧
      table.size = (Symbols.ofEntries [.type ⟨16⟩ "A"]).size) ∧
    parse oneTypeTurned = parse oneTypeText := by
  have denoted : (Json.parse? oneTypeText).isSome = true := by decide +kernel
  obtain ⟨value, denoted⟩ := Option.isSome_iff_exists.mp denoted
  have turned : Json.Shuffled (.object oneType) (.object oneType.reverse) := .members (List.reverse_perm _).symm
  refine ⟨parse_written_shuffled.1 _ oneType oneTypeText writtenAs_oneType spells_oneType, ?_⟩
  exact (parse_written_shuffled.2 oneTypeText value denoted).2 _ _ oneTypeTurned spells_oneType distinct_oneType
    turned spells_oneTypeTurned

end SymbolFile

end CilListing
