import CilListing.Proofs.ByteOrder
import CilListing.Proofs.JsonTexts
import CilListing.Proofs.SymbolSections

namespace CilListing

namespace Json

/-- The section of a kind has an entry under a text that spells a token. -/
def Spelled (value : Json) (kind : SymbolKind) (token : Token) (key : String) (entry : Json) : Prop :=
  value.Lists kind key entry ∧ Token.ofText key = .ok token

/-- A table answers with what stands under the greatest key that spells a token, by the bytes of the
keys. It fails where no key does, and counts tokens and not keys. -/
structure Tabulates (value : Json) (table : Symbols) : Prop where
  found : ∀ kind token held, table.backend.reply kind token = .found held ↔
    ∃ key entry, value.Spelled kind token key entry ∧ kind.Describes entry held ∧
      ∀ other second, value.Spelled kind token other second → utf8Bytes other ≤ utf8Bytes key
  missing : ∀ kind token, table.backend.reply kind token = .failed (.tokenNotFound token) ↔
    ¬∃ key entry, value.Spelled kind token key entry
  counted : table.size =
    (SymbolKind.all.map fun kind => {token | ∃ key entry, value.Spelled kind token key entry}.ncard).sum

end Json

section Entries

variable {kind : SymbolKind} {entries : List (String × Json)} {pairs : List (Token × kind.Content)}
  {token : Token}

theorem mem_tokens_reads (reads : List.Forall₂ kind.Reads entries pairs) :
    token ∈ pairs.map Prod.fst ↔ ∃ key entry, (key, entry) ∈ entries ∧ Token.ofText key = .ok token := by
  constructor
  · intro member
    obtain ⟨pair, inside, rfl⟩ := List.mem_map.mp member
    obtain ⟨⟨key, entry⟩, listed, spelled, _⟩ := mem_of_forall₂ reads.flip pair inside
    exact ⟨key, entry, listed, spelled⟩
  · rintro ⟨key, entry, listed, spelled⟩
    obtain ⟨pair, inside, spells, _⟩ := mem_of_forall₂ reads _ listed
    rw [Except.ok.inj (spelled.symm.trans spells)]
    exact List.mem_map_of_mem inside

theorem lookup_reverse_eq_none_iff {α : Type} {pairs : List (Token × α)} :
    pairs.reverse.lookup token = none ↔ token ∉ pairs.map Prod.fst := by
  have held : token ∈ TokenMap.tokens pairs.reverse ↔ pairs.reverse.lookup token ≠ none :=
    TokenMap.mem_tokens_iff
  rw [TokenMap.tokens, List.map_reverse, List.mem_reverse] at held
  rw [held, not_not]

/-- Keys ascend, so that the last one that spells a token is the greatest. -/
theorem greatest_of_lookup (ascending : Json.Ascending entries) (reads : List.Forall₂ kind.Reads entries pairs)
    {held : kind.Content} (found : pairs.reverse.lookup token = some held) :
    ∃ key entry, (key, entry) ∈ entries ∧ Token.ofText key = .ok token ∧ kind.Describes entry held ∧
      ∀ other second, (other, second) ∈ entries → Token.ofText other = .ok token → other ≤ key := by
  induction reads with
  | nil => cases found
  | @cons first pair later others here reads ih =>
    obtain ⟨above, ascending⟩ := List.pairwise_cons.mp ascending
    rw [List.reverse_cons, List.lookup_append] at found
    cases behind : others.reverse.lookup token with
    | some last =>
      rw [behind] at found
      cases found
      obtain ⟨key, entry, member, spelled, described, greatest⟩ := ih ascending behind
      refine ⟨key, entry, List.mem_cons_of_mem _ member, spelled, described, ?_⟩
      intro other second inside spells
      rcases List.mem_cons.mp inside with rfl | inside
      · exact Std.le_of_lt (above _ member)
      · exact greatest other second inside spells
    | none =>
      rw [behind, Option.none_or, List.lookup_cons] at found
      split at found
      · next same =>
        cases found
        obtain rfl : token = pair.1 := beq_iff_eq.mp same
        refine ⟨first.1, first.2, List.mem_cons_self .., here.1, here.2, ?_⟩
        intro other second inside spells
        rcases List.mem_cons.mp inside with rfl | inside
        · exact String.le_refl _
        · have listed := (mem_tokens_reads reads).mpr ⟨other, second, inside, spells⟩
          exact absurd listed (lookup_reverse_eq_none_iff.mp behind)
      · cases found

end Entries

namespace SymbolFile

variable {value : Json} {table : Symbols}

theorem describes_unique {kind : SymbolKind} {entry : Json} (ordered : entry.Ordered)
    {first second : kind.Content} (described : kind.Describes entry first)
    (again : kind.Describes entry second) : first = second := by
  rw [← decode_ok_iff kind ordered] at described again
  exact Except.ok.inj (described.symm.trans again)

theorem ordered_of_lists (ordered : value.Ordered) {kind : SymbolKind} {key : String} {entry : Json}
    (lists : value.Lists kind key entry) : entry.Ordered := by
  obtain ⟨sections, entries, rfl, isPart, listed⟩ := lists
  exact fun members within => ordered members (.member isPart (.member listed within))

theorem reply_found_iff (ordered : value.Ordered) (read : symbolsOfJson value = .ok table)
    (kind : SymbolKind) (token : Token) (held : kind.Content) :
    table.backend.reply kind token = .found held ↔
      ∃ key entry, value.Spelled kind token key entry ∧ kind.Describes entry held ∧
        ∀ other second, value.Spelled kind token other second → utf8Bytes other ≤ utf8Bytes key := by
  obtain ⟨entries, pairs, ascending, lists, reads, part⟩ := part_symbolsOfJson ordered read kind
  rw [Symbols.reply_backend, TokenMap.reply_eq_found_iff, part, TokenMap.get?_insertAll_nil]
  constructor
  · intro looked
    obtain ⟨key, entry, member, spelled, described, greatest⟩ := greatest_of_lookup ascending reads looked
    refine ⟨key, entry, ⟨(lists key entry).mpr member, spelled⟩, described, ?_⟩
    rintro other second ⟨listed, spells⟩
    exact utf8Bytes_le_iff.mpr (greatest other second ((lists other second).mp listed) spells)
  · rintro ⟨key, entry, ⟨listed, spelled⟩, described, greatest⟩
    have member := (lists key entry).mp listed
    cases looked : pairs.reverse.lookup token with
    | none =>
      have present := (mem_tokens_reads reads).mpr ⟨key, entry, member, spelled⟩
      exact absurd present (lookup_reverse_eq_none_iff.mp looked)
    | some other =>
      -- The entry that was found has the greatest key too, and it is the same entry.
      obtain ⟨last, second, inside, spells, describes, atMost⟩ := greatest_of_lookup ascending reads looked
      have below := utf8Bytes_le_iff.mp (greatest last second ⟨(lists last second).mpr inside, spells⟩)
      obtain rfl : last = key := String.le_antisymm below (atMost key entry member spelled)
      have same := List.inj_on_of_nodup_map ascending.nodup_keys inside member rfl
      cases same
      rw [describes_unique (ordered_of_lists ordered listed) describes described]

theorem reply_failed_iff (ordered : value.Ordered) (read : symbolsOfJson value = .ok table)
    (kind : SymbolKind) (token : Token) :
    table.backend.reply kind token = .failed (.tokenNotFound token) ↔
      ¬∃ key entry, value.Spelled kind token key entry := by
  obtain ⟨entries, pairs, _, lists, reads, part⟩ := part_symbolsOfJson ordered read kind
  rw [Symbols.reply_backend, TokenMap.reply_eq_failed_iff, part, TokenMap.get?_insertAll_nil,
    lookup_reverse_eq_none_iff, mem_tokens_reads reads]
  simp only [Json.Spelled, lists]

theorem length_part (ordered : value.Ordered) (read : symbolsOfJson value = .ok table) (kind : SymbolKind) :
    (table.part kind).length = {token | ∃ key entry, value.Spelled kind token key entry}.ncard := by
  obtain ⟨entries, pairs, _, lists, reads, part⟩ := part_symbolsOfJson ordered read kind
  have tokens : {token | ∃ key entry, value.Spelled kind token key entry} =
      ((pairs.map Prod.fst).toFinset : Set Token) := by
    ext token
    simp only [Set.mem_ofPred_eq, List.coe_toFinset, mem_tokens_reads reads, Json.Spelled, lists]
  rw [part, TokenMap.length_insertAll, tokens, Set.ncard_coe_finset]

theorem tabulates_of_symbolsOfJson (ordered : value.Ordered) (read : symbolsOfJson value = .ok table) :
    value.Tabulates table where
  found := reply_found_iff ordered read
  missing := reply_failed_iff ordered read
  counted := by
    rw [Symbols.size_eq_sum]
    simp only [length_part ordered read]

/-- A text is accepted just where it denotes a symbol file, and gives the table that the symbol
file describes. -/
theorem parse_exactly_described (text : List Char) :
    ((∃ table, parse text = .ok table) ↔ ∃ value, Json.parse? text = some value ∧ value.IsSymbolFile) ∧
    ∀ value table, Json.parse? text = some value → parse text = .ok table → value.Tabulates table := by
  constructor
  · cases denoted : Json.parse? text with
    | none => simp [parse, denoted]
    | some value =>
      have ordered := Json.ordered_of_parse? denoted
      simp only [parse, denoted, exists_symbolsOfJson_iff ordered, Option.some.injEq, exists_eq_left']
  · intro value table denoted accepted
    simp only [parse, denoted] at accepted
    exact tabulates_of_symbolsOfJson (Json.ordered_of_parse? denoted) accepted

/-- Two keys that spell one token. The one that stands first in the text is the greater one. -/
def twoSpellings : List Char :=
  "\x7b\"methods\": \x7b\"16\": \x7b\"name\": \"b\"\x7d, \" 0x10\": [\"A\", \"c\"]\x7d\x7d".toList

theorem parse_exactly_described_twoSpellings :
    ∃ value table, Json.parse? twoSpellings = some value ∧ parse twoSpellings = .ok table ∧
      value.Tabulates table ∧ table.backend.method ⟨16⟩ = .found ⟨"", "b"⟩ ∧ table.size = 1 := by
  have denoted : (Json.parse? twoSpellings).isSome = true := by decide +kernel
  obtain ⟨value, denoted⟩ := Option.isSome_iff_exists.mp denoted
  have read : (parse twoSpellings).toOption.any (fun table =>
      table.backend.method ⟨16⟩ = .found ⟨"", "b"⟩ ∧ table.size = 1) = true := by decide +kernel
  cases accepted : parse twoSpellings with
  | error fault =>
    rw [accepted] at read
    cases read
  | ok table =>
    rw [accepted] at read
    obtain ⟨method, size⟩ := of_decide_eq_true read
    exact ⟨value, table, denoted, rfl, (parse_exactly_described twoSpellings).2 value table denoted accepted,
      method, size⟩

end SymbolFile

end CilListing
