import CilListing.Proofs.SymbolTables
import CilListing.Report

namespace CilListing

namespace Symbols

namespace Entry

/-- The entry that puts content of some kind under a token. -/
def of : (kind : SymbolKind) → Token → kind.Content → Entry
  | .string => string
  | .method => method
  | .field => field
  | .type => type
  | .locals => locals

/-- Where an entry goes. A token may stand for things of several kinds. -/
def key : Entry → SymbolKind × Token
  | string token _ => (.string, token)
  | method token _ => (.method, token)
  | field token _ => (.field, token)
  | type token _ => (.type, token)
  | locals token _ => (.locals, token)

variable {entry : Entry} {kind : SymbolKind} {token : Token}

theorem key_of (value : kind.Content) : (of kind token value).key = (kind, token) := by
  cases kind <;> rfl

theorem under?_of (value : kind.Content) : (of kind token value).under? kind = some (token, value) := by
  cases kind <;> rfl

theorem exists_eq_of (same : entry.key = (kind, token)) : ∃ value, entry = of kind token value := by
  cases entry <;> cases same <;> exact ⟨_, rfl⟩

theorem content_eq {value held : kind.Content} (same : of kind token value = of kind token held) :
    value = held := by
  have under := congrArg (under? · kind) same
  simp only [under?_of] at under
  cases under
  rfl

theorem key_of_under? {value : kind.Content} (found : entry.under? kind = some (token, value)) :
    entry.key = (kind, token) := by
  cases kind <;> cases entry <;> cases found <;> rfl

end Entry

section Runs

variable {symbols : Symbols} {entries : List Entry} {kind : SymbolKind} {token : Token}

theorem reply_add_of (value : kind.Content) :
    (symbols.add (.of kind token value)).backend.reply kind token = .found value := by
  rw [reply_backend, TokenMap.reply_eq_found_iff, part_add, Entry.under?_of]
  exact (TokenMap.get?_insert ..).trans (if_pos rfl)

/-- An entry leaves alone what stands under other keys, be it the kind or the token that differs. -/
theorem reply_add_of_ne {entry : Entry} (other : entry.key ≠ (kind, token)) :
    (symbols.add entry).backend.reply kind token = symbols.backend.reply kind token := by
  rw [reply_backend, reply_backend, part_add]
  cases found : entry.under? kind with
  | none => rfl
  | some pair =>
    have apart : token ≠ pair.1 := by
      rintro rfl
      exact other (Entry.key_of_under? found)
    have kept : ((symbols.part kind).insert pair.1 pair.2).get? token = (symbols.part kind).get? token := by
      rw [TokenMap.get?_insert, if_neg apart]
    show ((symbols.part kind).insert pair.1 pair.2).reply token = _
    rw [TokenMap.reply, kept]
    rfl

theorem reply_foldl_add (absent : (kind, token) ∉ entries.map Entry.key) :
    (entries.foldl add symbols).backend.reply kind token = symbols.backend.reply kind token := by
  induction entries generalizing symbols with
  | nil => rfl
  | cons entry rest ih =>
    rw [List.map_cons, List.mem_cons, not_or] at absent
    rw [List.foldl_cons, ih absent.2, reply_add_of_ne (Ne.symm absent.1)]

theorem reply_ofEntries_of_last {before after : List Entry} {value : kind.Content}
    (last : (kind, token) ∉ after.map Entry.key) :
    (ofEntries (before ++ .of kind token value :: after)).backend.reply kind token = .found value := by
  rw [ofEntries, List.foldl_append, List.foldl_cons, reply_foldl_add last, reply_add_of]

theorem reply_ofEntries_of_absent (absent : (kind, token) ∉ entries.map Entry.key) :
    (ofEntries entries).backend.reply kind token = .failed (.tokenNotFound token) := by
  rw [ofEntries, reply_foldl_add absent]
  cases kind <;> rfl

/-- Where there are entries under a key at all, one of them is the last. -/
theorem exists_last (present : (kind, token) ∈ entries.map Entry.key) :
    ∃ before value after, entries = before ++ .of kind token value :: after ∧
      (kind, token) ∉ after.map Entry.key := by
  induction entries with
  | nil => cases present
  | cons entry rest ih =>
    by_cases later : (kind, token) ∈ rest.map Entry.key
    · obtain ⟨before, value, after, rfl, last⟩ := ih later
      exact ⟨entry :: before, value, after, rfl, last⟩
    · rw [List.map_cons, List.mem_cons, or_iff_left later] at present
      obtain ⟨value, rfl⟩ := Entry.exists_eq_of present.symm
      exact ⟨[], value, rest, rfl, later⟩

/-- Behind the last entry under a key there is no other to be kept. -/
theorem getLast?_filter_key {before after : List Entry} {value : kind.Content}
    (last : (kind, token) ∉ after.map Entry.key) :
    ((before ++ .of kind token value :: after).filter (·.key = (kind, token))).getLast? =
      some (.of kind token value) := by
  have none : after.filter (·.key = (kind, token)) = [] := by
    rw [List.filter_eq_nil_iff]
    intro entry inside same
    exact last (List.mem_map.mpr ⟨entry, inside, of_decide_eq_true same⟩)
  rw [List.filter_append, List.filter_cons, none, if_pos (decide_eq_true (Entry.key_of value)),
    List.getLast?_concat]

theorem reply_ofEntries_eq_found_iff (value : kind.Content) :
    (ofEntries entries).backend.reply kind token = .found value ↔
      ∃ before after, entries = before ++ .of kind token value :: after ∧
        (kind, token) ∉ after.map Entry.key := by
  constructor
  · intro found
    by_cases present : (kind, token) ∈ entries.map Entry.key
    · obtain ⟨before, held, after, rfl, last⟩ := exists_last present
      rw [reply_ofEntries_of_last last] at found
      cases found
      exact ⟨before, after, rfl, last⟩
    · rw [reply_ofEntries_of_absent present] at found
      cases found
  · rintro ⟨before, after, rfl, last⟩
    exact reply_ofEntries_of_last last

theorem reply_ofEntries_eq_failed_iff :
    (ofEntries entries).backend.reply kind token = .failed (.tokenNotFound token) ↔
      (kind, token) ∉ entries.map Entry.key := by
  constructor
  · intro failed present
    obtain ⟨before, value, after, rfl, last⟩ := exists_last present
    rw [reply_ofEntries_of_last last] at failed
    cases failed
  · exact reply_ofEntries_of_absent

end Runs

section Counting

/-- Everything that a table has something under. -/
def keys (symbols : Symbols) : List (SymbolKind × Token) :=
  SymbolKind.all.flatMap fun kind => (symbols.part kind).tokens.map (kind, ·)

theorem length_keys (symbols : Symbols) : symbols.keys.length = symbols.size := by
  simp only [size_eq_sum, keys, List.length_flatMap, TokenMap.tokens, List.length_map]

theorem mem_keys_iff {symbols : Symbols} {kind : SymbolKind} {token : Token} :
    (kind, token) ∈ symbols.keys ↔
      symbols.backend.reply kind token ≠ .failed (.tokenNotFound token) := by
  have listed : kind ∈ SymbolKind.all := by cases kind <;> decide
  rw [reply_backend, Ne, TokenMap.reply_eq_failed_iff, ← Ne, ← TokenMap.mem_tokens_iff, keys]
  simp only [List.mem_flatMap, List.mem_map, Prod.mk.injEq]
  constructor
  · rintro ⟨_, _, _, member, rfl, rfl⟩
    exact member
  · intro member
    exact ⟨kind, listed, token, member, rfl, rfl⟩

theorem nodup_keys {symbols : Symbols} (distinct : ∀ kind, (symbols.part kind).tokens.Nodup) :
    symbols.keys.Nodup := by
  rw [keys, List.nodup_flatMap]
  constructor
  · intro kind _
    exact (distinct kind).map fun _ _ same => (Prod.mk.inj same).2
  · have apart : SymbolKind.all.Nodup := by decide
    refine apart.imp fun different key first second => ?_
    obtain ⟨_, _, rfl⟩ := List.mem_map.mp first
    obtain ⟨_, _, same⟩ := List.mem_map.mp second
    exact different (Prod.mk.inj same).1.symm

theorem size_ofEntries (entries : List Entry) :
    (ofEntries entries).size = (entries.map Entry.key).toFinset.card := by
  rw [← length_keys, ← List.toFinset_card_of_nodup (nodup_keys (nodup_part_ofEntries entries))]
  congr 1
  ext ⟨kind, token⟩
  rw [List.mem_toFinset, List.mem_toFinset, mem_keys_iff, Ne, reply_ofEntries_eq_failed_iff, not_not]

theorem isEmpty_ofEntries_iff (entries : List Entry) : (ofEntries entries).isEmpty = true ↔ entries = [] := by
  rw [isEmpty, beq_iff_eq, size_ofEntries, Finset.card_eq_zero, List.toFinset_eq_empty_iff, List.map_eq_nil_iff]

end Counting

/-- Two sequences have the same entries under each key, in the same order. -/
def OrderedAlike (first second : List Entry) : Prop :=
  ∀ key, first.filter (·.key = key) = second.filter (·.key = key)

/-- Nothing that is asked of two tables, and no method that is taken apart with them, tells them apart. -/
structure AnswerAlike (first second : Symbols) : Prop where
  reply : ∀ kind token, first.backend.reply kind token = second.backend.reply kind token
  size : first.size = second.size
  isEmpty : first.isEmpty = second.isEmpty
  header : ∀ body, MethodHeader.ofBody first.backend body = MethodHeader.ofBody second.backend body
  listing : ∀ code header options,
    disassemble code header first.backend options = disassemble code header second.backend options
  report : ∀ code header options,
    Report.build code header first.backend options = Report.build code header second.backend options

namespace OrderedAlike

variable {first second : List Entry}

theorem map_key_subset (alike : OrderedAlike first second) : first.map Entry.key ⊆ second.map Entry.key := by
  intro key member
  obtain ⟨entry, inside, rfl⟩ := List.mem_map.mp member
  have kept : entry ∈ second.filter (·.key = entry.key) := by
    rw [← alike]
    exact List.mem_filter.mpr ⟨inside, decide_eq_true rfl⟩
  exact List.mem_map_of_mem (List.mem_filter.mp kept).1

theorem mem_map_key_iff (alike : OrderedAlike first second) (key : SymbolKind × Token) :
    key ∈ first.map Entry.key ↔ key ∈ second.map Entry.key :=
  ⟨fun member => alike.map_key_subset member,
    fun member => map_key_subset (fun key => (alike key).symm) member⟩

theorem reply_eq (alike : OrderedAlike first second) (kind : SymbolKind) (token : Token) :
    (ofEntries first).backend.reply kind token = (ofEntries second).backend.reply kind token := by
  by_cases present : (kind, token) ∈ first.map Entry.key
  · obtain ⟨before, value, after, rfl, last⟩ := exists_last present
    obtain ⟨front, held, back, rfl, latest⟩ := exists_last ((alike.mem_map_key_iff _).mp present)
    -- Both last entries are the last of what the two sequences share under the key.
    have kept := congrArg List.getLast? (alike (kind, token))
    rw [getLast?_filter_key last, getLast?_filter_key latest] at kept
    obtain rfl := Entry.content_eq (Option.some.inj kept)
    rw [reply_ofEntries_of_last last, reply_ofEntries_of_last latest]
  · have absent := mt (alike.mem_map_key_iff (kind, token)).mpr present
    rw [reply_ofEntries_of_absent present, reply_ofEntries_of_absent absent]

theorem answerAlike (alike : OrderedAlike first second) : AnswerAlike (ofEntries first) (ofEntries second) := by
  have backend : (ofEntries first).backend = (ofEntries second).backend :=
    Backend.eq_of_reply fun kind => funext (alike.reply_eq kind)
  have size : (ofEntries first).size = (ofEntries second).size := by
    rw [size_ofEntries, size_ofEntries]
    congr 1
    ext key
    rw [List.mem_toFinset, List.mem_toFinset, alike.mem_map_key_iff]
  constructor
  case reply => exact alike.reply_eq
  case size => exact size
  case isEmpty => rw [isEmpty, isEmpty, size]
  case header => exact fun body => by rw [backend]
  case listing => exact fun code header options => by rw [backend]
  case report => exact fun code header options => by rw [backend]

end OrderedAlike

/-- A table answers with the last entry under each kind and token, and knows nothing else about the order
in which the entries came. -/
theorem last_entries_stand (entries : List Entry) :
    (∀ kind token,
      (∀ value, (ofEntries entries).backend.reply kind token = .found value ↔
        ∃ before after, entries = before ++ .of kind token value :: after ∧
          (kind, token) ∉ after.map Entry.key) ∧
      ((ofEntries entries).backend.reply kind token = .failed (.tokenNotFound token) ↔
        (kind, token) ∉ entries.map Entry.key)) ∧
    (ofEntries entries).size = (entries.map Entry.key).toFinset.card ∧
    ((ofEntries entries).isEmpty = true ↔ entries = []) ∧
    ∀ others, OrderedAlike entries others → AnswerAlike (ofEntries entries) (ofEntries others) := by
  refine ⟨?_, size_ofEntries entries, isEmpty_ofEntries_iff entries, fun _ alike => alike.answerAlike⟩
  intro kind token
  exact ⟨reply_ofEntries_eq_found_iff, reply_ofEntries_eq_failed_iff⟩

/-- A method that is renamed, with a field and a string under its token between and behind. -/
theorem last_entries_stand_renamed :
    let token : Token := ⟨0x0A000001⟩
    let entries : List Entry :=
      [.method token ⟨"A", "old"⟩, .field token ⟨"A", "f"⟩, .method token ⟨"A", "new"⟩, .string token "s"]
    let others : List Entry :=
      [.string token "s", .method token ⟨"A", "old"⟩, .method token ⟨"A", "new"⟩, .field token ⟨"A", "f"⟩]
    (ofEntries entries).backend.method token = .found ⟨"A", "new"⟩ ∧
      (ofEntries entries).backend.type token = .failed (.tokenNotFound token) ∧
      (ofEntries entries).size = 3 ∧
      OrderedAlike entries others ∧ AnswerAlike (ofEntries entries) (ofEntries others) := by
  intro token entries others
  obtain ⟨lookups, size, _, ordered⟩ := last_entries_stand entries
  have found := ((lookups .method token).1 ⟨"A", "new"⟩).mpr
    ⟨entries.take 2, entries.drop 3, rfl, by decide⟩
  have missing := (lookups .type token).2.mpr (by decide)
  have alike : OrderedAlike entries others := by
    rintro ⟨kind, other⟩
    cases kind <;> simp [entries, others, List.filter_cons, Entry.key]
  exact ⟨found, missing, size.trans (by decide), alike, ordered others alike⟩

end Symbols

end CilListing
