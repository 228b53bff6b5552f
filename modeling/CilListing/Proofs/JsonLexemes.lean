import CilListing.Proofs.JsonMembers
import CilListing.Proofs.JsonNumbers
import CilListing.Proofs.JsonStrings
import Mathlib.Data.List.Chain

namespace CilListing

theorem NumberText.isScalar_of_value? {number : NumberText} {value : Json}
    (found : number.value? = some value) : value.isScalar = true := by
  have floats {negative : Bool} {significand : Nat} {exponent : Int}
      (float : float? negative significand exponent = some value) : value.isScalar = true := by
    obtain ⟨pattern, _, rfl⟩ := Option.map_eq_some_iff.mp float
    rfl
  simp only [value?] at found
  split at found
  · unfold integer? at found
    split at found
    · split at found
      · cases found
        rfl
      · exact floats found
    · cases found
      rfl
  · exact floats found

namespace Lexeme

/-- The ways to write a lexeme. -/
inductive Spells : Lexeme → List Char → Prop
  | openArray : Spells .openArray ['[']
  | closeArray : Spells .closeArray [']']
  | openObject : Spells .openObject ['\x7b']
  | closeObject : Spells .closeObject ['\x7d']
  | comma : Spells .comma [',']
  | colon : Spells .colon [':']
  | string {text written} : SpellsText text.toList written → Spells (.string text) ('"' :: written ++ ['"'])
  | null : Spells (.scalar .null) ['n', 'u', 'l', 'l']
  | yes : Spells (.scalar (.bool true)) ['t', 'r', 'u', 'e']
  | no : Spells (.scalar (.bool false)) ['f', 'a', 'l', 's', 'e']
  | number {number : NumberText} {written value} : number.Spells written →
      number.value? = some value → Spells (.scalar value) written

/-- Lexemes one behind the other, with any number of spaces before, between and behind them. -/
inductive Spaced : List Lexeme → List Char → Prop
  | nil : Spaced [] []
  | space {lexemes char chars} : isSpace char = true → Spaced lexemes chars →
      Spaced lexemes (char :: chars)
  | cons {lexeme lexemes written chars} : Spells lexeme written → Spaced lexemes chars →
      Spaced (lexeme :: lexemes) (written ++ chars)

def isScalar : Lexeme → Bool
  | scalar _ => true
  | _ => false

/-- No two scalars stand side by side, so that one number cannot run on into another. -/
def Apart (lexemes : List Lexeme) : Prop :=
  lexemes.IsChain fun first second => first.isScalar = true → second.isScalar = false

section Reading

variable {lexeme : Lexeme} {written rest : List Char}

theorem number_head {number : NumberText} (spells : number.Spells written) :
    ∃ first later, written = first :: later ∧ (isDigit first = true ∨ first = '-') := by
  cases spells with
  | negative => exact ⟨_, _, rfl, Or.inr rfl⟩
  | @positive whole _ _ fractionText exponentText spellsWhole =>
    cases spellsWhole with
    | zero => exact ⟨_, _, rfl, Or.inl rfl⟩
    | digits isDigits =>
      cases whole with
      | nil => exact absurd rfl isDigits.1
      | cons first later => exact ⟨first, _, rfl, Or.inl (isDigits.2 first (List.mem_cons_self ..))⟩

theorem read?_number {number : NumberText} {value : Json} (spells : number.Spells written)
    (denotes : number.value? = some value) (ends : NumberText.Ends rest) :
    read? (written ++ rest) = some (.scalar value, rest) := by
  have numeral := NumberText.read?_spells spells ends
  obtain ⟨first, later, rfl, isHead⟩ := number_head spells
  rw [read?.eq_def]
  split
  case h_11 => simp only [numeral, denotes, Option.map_some]
  all_goals
    next same =>
      obtain ⟨rfl, _⟩ := List.cons.inj same
      exact absurd isHead (by decide)

/-- A lexeme is read back however it is written, a number only up to where it cannot go on. -/
theorem read?_spells (spells : Spells lexeme written)
    (ends : lexeme.isScalar = true → NumberText.Ends rest) :
    read? (written ++ rest) = some (lexeme, rest) := by
  cases spells with
  | string text =>
    have inside := readString?_spellsText [] text rest
    rw [List.append_assoc, List.cons_append, List.singleton_append, read?, inside]
    simp only [Option.map_some, List.reverse_nil, List.nil_append, String.ofList_toList]
  | number spells denotes => exact read?_number spells denotes (ends rfl)
  | _ => rfl

theorem spells_head (spells : Spells lexeme written) :
    ∃ first later, written = first :: later ∧ isSpace first = false ∧
      (lexeme.isScalar = false → NumberText.goesOn first = false) := by
  cases spells with
  | number spells =>
    obtain ⟨first, later, rfl, isHead⟩ := number_head spells
    refine ⟨first, later, rfl, ?_, nofun⟩
    rw [← Bool.not_eq_true]
    intro space
    simp only [isSpace, Bool.or_eq_true, beq_iff_eq] at space
    rcases space with ((rfl | rfl) | rfl) | rfl <;> exact absurd isHead (by decide)
  | null | yes | no => exact ⟨_, _, rfl, rfl, nofun⟩
  | _ => exact ⟨_, _, rfl, rfl, fun _ => rfl⟩

theorem goesOn_of_isSpace {char : Char} (space : isSpace char = true) : NumberText.goesOn char = false := by
  simp only [isSpace, Bool.or_eq_true, beq_iff_eq] at space
  rcases space with ((rfl | rfl) | rfl) | rfl <;> decide

/-- In front of spaces and punctuation a number ends. -/
theorem ends_of_spaced {lexemes : List Lexeme} {chars : List Char} (spaced : Spaced lexemes chars)
    (next : ∀ lexeme ∈ lexemes.head?, lexeme.isScalar = false) : NumberText.Ends chars := by
  cases spaced with
  | nil => exact nofun
  | space space =>
    intro char head
    cases head
    exact goesOn_of_isSpace space
  | @cons lexeme _ _ _ spells =>
    obtain ⟨first, later, rfl, _, other⟩ := spells_head spells
    intro char head
    cases head
    exact other (next lexeme rfl)

theorem readAllFrom_space (done : List Lexeme) {char : Char} (space : isSpace char = true)
    (chars : List Char) : readAllFrom done (char :: chars) = readAllFrom done chars := by
  rw [readAllFrom, if_pos space]

theorem readAllFrom_read? (done : List Lexeme) {char : Char} {chars : List Char}
    (solid : isSpace char = false) (found : read? (char :: chars) = some (lexeme, rest)) :
    readAllFrom done (char :: chars) = readAllFrom (lexeme :: done) rest := by
  rw [readAllFrom.eq_def]
  simp only [solid, Bool.false_eq_true, if_false]
  split
  · next failed => rw [found] at failed; cases failed
  · next other =>
    rw [found] at other
    cases other
    rfl

/-- Lexemes are read back from any text that they are written out to. -/
theorem readAllFrom_spaced (done : List Lexeme) {lexemes : List Lexeme} {chars : List Char}
    (spaced : Spaced lexemes chars) (apart : Apart lexemes) :
    readAllFrom done chars = some (done.reverse ++ lexemes) := by
  induction spaced generalizing done with
  | nil => rw [readAllFrom, List.append_nil]
  | space space _ ih => rw [readAllFrom_space done space, ih done apart]
  | @cons lexeme lexemes written chars spells spaced ih =>
    have later : Apart lexemes := List.IsChain.tail apart
    have ends : lexeme.isScalar = true → NumberText.Ends chars := by
      intro scalar
      apply ends_of_spaced spaced
      intro next head
      cases lexemes with
      | nil => cases head
      | cons second others =>
        cases head
        exact (List.isChain_cons_cons.mp apart).1 scalar
    have found := read?_spells spells ends
    obtain ⟨first, _, rfl, solid, _⟩ := spells_head spells
    rw [List.cons_append] at found ⊢
    rw [readAllFrom_read? done solid found, ih (lexeme :: done) later, List.reverse_cons, List.append_assoc]
    rfl

end Reading

section Spelling

variable {chars rest : List Char}

theorem spells_of_read? {lexeme : Lexeme} (found : read? chars = some (lexeme, rest)) :
    ∃ written, Spells lexeme written ∧ chars = written ++ rest := by
  unfold read? at found
  split at found
  case h_1 => cases found; exact ⟨_, .openArray, rfl⟩
  case h_2 => cases found; exact ⟨_, .closeArray, rfl⟩
  case h_3 => cases found; exact ⟨_, .openObject, rfl⟩
  case h_4 => cases found; exact ⟨_, .closeObject, rfl⟩
  case h_5 => cases found; exact ⟨_, .comma, rfl⟩
  case h_6 => cases found; exact ⟨_, .colon, rfl⟩
  case h_7 =>
    obtain ⟨⟨result, later⟩, inside, same⟩ := Option.map_eq_some_iff.mp found
    obtain ⟨text, written, rfl, spells, rfl⟩ := spellsText_of_readString? inside
    cases same
    refine ⟨'"' :: written ++ ['"'], .string ?_, ?_⟩
    · rw [String.toList_ofList]
      exact spells
    · simp only [List.cons_append, List.append_assoc, List.nil_append]
  case h_8 => cases found; exact ⟨_, .null, rfl⟩
  case h_9 => cases found; exact ⟨_, .yes, rfl⟩
  case h_10 => cases found; exact ⟨_, .no, rfl⟩
  case h_11 =>
    split at found
    · cases found
    · next numeral =>
      obtain ⟨value, denotes, same⟩ := Option.map_eq_some_iff.mp found
      obtain ⟨written, spells, rfl⟩ := NumberText.spells_of_read? numeral
      cases same
      exact ⟨written, .number spells denotes, rfl⟩

theorem spaced_of_readAllFrom {done lexemes : List Lexeme}
    (found : readAllFrom done chars = some lexemes) :
    ∃ later, lexemes = done.reverse ++ later ∧ Spaced later chars := by
  fun_induction readAllFrom done chars with
  | case1 done =>
    cases found
    exact ⟨[], (List.append_nil _).symm, .nil⟩
  | case2 done char rest space ih =>
    obtain ⟨later, same, spaced⟩ := ih found
    exact ⟨later, same, .space space spaced⟩
  | case3 => cases found
  | case4 done char rest solid lexeme later read ih =>
    obtain ⟨others, rfl, spaced⟩ := ih found
    obtain ⟨written, spells, split⟩ := spells_of_read? read
    refine ⟨lexeme :: others, ?_, ?_⟩
    · rw [List.reverse_cons, List.append_assoc]
      rfl
    · rw [split]
      exact .cons spells spaced

theorem isScalar_of_spells {value : Json} (spells : Spells (.scalar value) chars) : value.isScalar = true := by
  cases spells with
  | number _ denotes => exact NumberText.isScalar_of_value? denotes
  | _ => rfl

/-- A scalar in a text denotes neither an array nor an object. -/
theorem isScalar_of_spaced {lexemes : List Lexeme} {value : Json} (spaced : Spaced lexemes chars)
    (member : .scalar value ∈ lexemes) : value.isScalar = true := by
  induction spaced with
  | nil => cases member
  | space _ _ ih => exact ih member
  | cons spells _ ih =>
    rcases List.mem_cons.mp member with rfl | later
    · exact isScalar_of_spells spells
    · exact ih later

end Spelling

end Lexeme

end CilListing
