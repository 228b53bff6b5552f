import CilListing.Proofs.NumeralReading
import CilListing.Token.Spelling
import Mathlib.Data.List.DropRight

namespace CilListing

/-- The characters that count as white space in any script, by their code points. -/
def IsWhiteSpace (char : Char) : Prop :=
  (0x09 ≤ char.toNat ∧ char.toNat ≤ 0x0D) ∨ (0x2000 ≤ char.toNat ∧ char.toNat ≤ 0x200A) ∨
    char.toNat ∈ [0x20, 0x85, 0xA0, 0x1680, 0x2028, 0x2029, 0x202F, 0x205F, 0x3000]

instance (char : Char) : Decidable (IsWhiteSpace char) := inferInstanceAs (Decidable (_ ∨ _))

/-- What some characters are without the white space at both ends. -/
structure Trims (chars core : List Char) : Prop where
  around : ∃ front back, chars = front ++ core ++ back ∧ (∀ char ∈ front, IsWhiteSpace char) ∧
    ∀ char ∈ back, IsWhiteSpace char
  first : ∀ char ∈ core.head?, ¬ IsWhiteSpace char
  last : ∀ char ∈ core.getLast?, ¬ IsWhiteSpace char

namespace Token

/-- The base that a spelling announces, and the numeral behind the announcement. -/
inductive Announces : List Char → Nat → List Char → Prop
  | lower {rest : List Char} : Announces ('0' :: 'x' :: rest) 16 rest
  | upper {rest : List Char} : Announces ('0' :: 'X' :: rest) 16 rest
  | plain {chars : List Char} : (∀ rest, chars ≠ '0' :: 'x' :: rest) →
      (∀ rest, chars ≠ '0' :: 'X' :: rest) → Announces chars 10 chars

/-- The parts of a text that may spell a token. -/
structure Parts (text : String) (core : List Char) (base : Nat) (numeral digits : List Char) : Prop where
  trims : Trims text.toList core
  announces : Announces core base numeral
  unsigned : Unsigned numeral digits

/-- The cause of a failure to read a numeral, by what stands in it. -/
structure Blames (base : Nat) (numeral digits : List Char) (cause : NumeralFault) : Prop where
  empty : cause = .empty ↔ numeral = []
  overflow : cause = .overflow ↔ ∃ number rest, LeadingRun base digits number rest ∧ 2 ^ 32 ≤ number
  invalidDigit : cause = .invalidDigit ↔
    numeral ≠ [] ∧ ∃ number rest, LeadingRun base digits number rest ∧ number < 2 ^ 32
  signs : numeral = ['+'] ∨ digits.head? = some '-' → cause = .invalidDigit

end Token

section Trimming

variable {chars core : List Char}

theorem isBlank_iff {char : Char} : isBlank char = true ↔ IsWhiteSpace char := by
  rw [isBlank, List.contains_iff_mem]
  constructor
  · have each : blanks.all (IsWhiteSpace ·) = true := by decide
    exact fun member => of_decide_eq_true (List.all_eq_true.mp each char member)
  · have tabs : ∀ code, 0x09 ≤ code → code ≤ 0x0D → Char.ofNat code ∈ blanks := by decide
    have spaces : ∀ code, 0x2000 ≤ code → code ≤ 0x200A → Char.ofNat code ∈ blanks := by decide
    have others : ∀ code ∈ [0x20, 0x85, 0xA0, 0x1680, 0x2028, 0x2029, 0x202F, 0x205F, 0x3000],
        Char.ofNat code ∈ blanks := by decide
    intro space
    rw [← Char.ofNat_toNat char]
    rcases space with ⟨lower, upper⟩ | ⟨lower, upper⟩ | single
    · exact tabs _ lower upper
    · exact spaces _ lower upper
    · exact others _ single

theorem dropWhile_isBlank_of_head (first : ∀ char ∈ chars.head?, ¬ IsWhiteSpace char) :
    chars.dropWhile isBlank = chars := by
  cases chars with
  | nil => rfl
  | cons char rest => exact List.dropWhile_cons_of_neg (mt isBlank_iff.mp (first char rfl))

theorem head_dropWhile_isBlank (chars : List Char) :
    ∀ char ∈ (chars.dropWhile isBlank).head?, ¬ IsWhiteSpace char := by
  intro char member
  have kept := List.head?_dropWhile_not isBlank chars
  rw [Option.mem_def.mp member] at kept
  rw [← isBlank_iff]
  simpa using kept

theorem trims_trimBlanks (chars : List Char) : Trims chars (trimBlanks chars) where
  around := by
    have blank (chars : List Char) : ∀ char ∈ chars.takeWhile isBlank, IsWhiteSpace char :=
      fun char member => isBlank_iff.mp (List.mem_takeWhile_imp member)
    refine ⟨chars.takeWhile isBlank, ((chars.dropWhile isBlank).reverse.takeWhile isBlank).reverse, ?_,
      blank chars, fun char member => blank _ char (List.mem_reverse.mp member)⟩
    rw [trimBlanks, List.append_assoc, ← List.reverse_append, List.takeWhile_append_dropWhile,
      List.reverse_reverse, List.takeWhile_append_dropWhile]
  first := by
    intro char member
    have front : trimBlanks chars <+: chars.dropWhile isBlank := List.rdropWhile_prefix ..
    obtain ⟨back, whole⟩ := front
    apply head_dropWhile_isBlank chars
    rw [← whole, List.head?_append, Option.mem_def.mp member]
    rfl
  last := by
    intro char member
    rw [trimBlanks, List.getLast?_reverse] at member
    exact head_dropWhile_isBlank _ char member

theorem Trims.eq_trimBlanks (trims : Trims chars core) : trimBlanks chars = core := by
  obtain ⟨⟨front, back, rfl, frontBlank, backBlank⟩, first, last⟩ := trims
  have lastFirst : ∀ char ∈ core.reverse.head?, ¬ IsWhiteSpace char := by
    rwa [List.head?_reverse]
  rw [trimBlanks, List.append_assoc,
    List.dropWhile_append_of_pos fun char member => isBlank_iff.mpr (frontBlank char member)]
  cases core with
  | nil =>
    have all : back.dropWhile isBlank = [] :=
      List.dropWhile_eq_nil_iff.mpr fun char member => isBlank_iff.mpr (backBlank char member)
    rw [List.nil_append, all]
    rfl
  | cons char rest =>
    have kept : (char :: rest ++ back).dropWhile isBlank = char :: rest ++ back :=
      dropWhile_isBlank_of_head first
    rw [kept, List.reverse_append, List.dropWhile_append_of_pos ?_, dropWhile_isBlank_of_head lastFirst,
      List.reverse_reverse]
    intro other member
    exact isBlank_iff.mpr (backBlank other (List.mem_reverse.mp member))

theorem trims_self (none : ∀ char ∈ chars, ¬ IsWhiteSpace char) : Trims chars chars where
  around := ⟨[], [], by simp, by simp, by simp⟩
  first char member := none char (List.mem_of_mem_head? member)
  last char member := none char (List.mem_of_mem_getLast? member)

end Trimming

namespace Token

variable {text : String} {core numeral digits rest : List Char} {base number : Nat}

theorem Announces.readNumber_eq (announces : Announces core base numeral) :
    readNumber core = readNumeral base limit numeral := by
  cases announces with
  | lower => rfl
  | upper => rfl
  | plain notLower notUpper =>
    unfold readNumber
    split
    · exact absurd rfl (notLower _)
    · exact absurd rfl (notUpper _)
    · rfl

theorem Announces.base_eq (announces : Announces core base numeral) : base = 10 ∨ base = 16 := by
  cases announces with
  | lower | upper => exact Or.inr rfl
  | plain => exact Or.inl rfl

theorem exists_announces (core : List Char) : ∃ base numeral, Announces core base numeral := by
  by_cases lower : ∃ rest, core = '0' :: 'x' :: rest
  · obtain ⟨rest, rfl⟩ := lower
    exact ⟨16, rest, .lower⟩
  by_cases upper : ∃ rest, core = '0' :: 'X' :: rest
  · obtain ⟨rest, rfl⟩ := upper
    exact ⟨16, rest, .upper⟩
  exact ⟨10, core, .plain (not_exists.mp lower) (not_exists.mp upper)⟩

theorem exists_parts (text : String) : ∃ core base numeral digits, Parts text core base numeral digits := by
  obtain ⟨base, numeral, announces⟩ := exists_announces (trimBlanks text.toList)
  obtain ⟨digits, unsigned⟩ := exists_unsigned numeral
  exact ⟨_, base, numeral, digits, trims_trimBlanks _, announces, unsigned⟩

/-- The parts of a text and its leading run of digits decide what it is read as. -/
theorem Parts.ofText_eq (parts : Parts text core base numeral digits)
    (run : LeadingRun base digits number rest) :
    ofText text =
      if numeral = [] then .error ⟨String.ofList core, .empty⟩
      else if 2 ^ 32 ≤ number then .error ⟨String.ofList core, .overflow⟩
      else if rest = [] then .ok ⟨UInt32.ofNat number⟩
      else .error ⟨String.ofList core, .invalidDigit⟩ := by
  obtain ⟨trims, announces, unsigned⟩ := parts
  have bases := announces.base_eq
  have outcome : readNumber core =
      if numeral = [] then .error .empty
      else if 2 ^ 32 ≤ number then .error .overflow
      else if rest = [] then .ok number else .error .invalidDigit := by
    rw [announces.readNumber_eq, unsigned.readNumeral_eq, run.readDigits_eq (by omega) (by omega) (by decide)]
    rfl
  rw [ofText, trims.eq_trimBlanks, outcome]
  split_ifs <;> rfl

theorem Parts.ok_iff (parts : Parts text core base numeral digits) (token : Token) :
    ofText text = .ok token ↔ digits ≠ [] ∧
      ∃ number, Denotes base digits number ∧ number < 2 ^ 32 ∧ token = ⟨UInt32.ofNat number⟩ := by
  constructor
  · intro read
    obtain ⟨number, rest, run⟩ := exists_leadingRun base digits
    rw [parts.ofText_eq run] at read
    split_ifs at read with empty high all
    obtain ⟨⟨digits, rfl, denotes⟩, -⟩ := run
    rw [all, List.append_nil] at parts ⊢
    exact ⟨mt parts.unsigned.eq_nil_iff.mpr empty, number, denotes, by omega, (Except.ok.inj read).symm⟩
  · rintro ⟨some, number, denotes, low, rfl⟩
    rw [parts.ofText_eq denotes.leadingRun, if_neg (mt parts.unsigned.eq_nil_iff.mp some),
      if_neg (by omega), if_pos rfl]

/-- Without a digit in front there is no run of digits, and so no number to overflow. -/
theorem leadingRun_of_sign {sign : Char} (other : sign ∉ lowerDigits ++ upperDigits)
    (first : digits.head? = some sign) : LeadingRun base digits 0 digits := by
  refine ⟨⟨[], rfl, .nil⟩, ?_⟩
  intro char member value digit
  cases first.symm.trans member
  rw [List.mem_append] at other
  exact other digit.mem

theorem Parts.blames (parts : Parts text core base numeral digits) {fault : SpellingFault}
    (failed : ofText text = .error fault) :
    fault.text = String.ofList core ∧ Blames base numeral digits fault.cause := by
  have outcome {number : Nat} {rest : List Char} (run : LeadingRun base digits number rest) :
      fault = ⟨String.ofList core, if numeral = [] then .empty
        else if 2 ^ 32 ≤ number then .overflow else .invalidDigit⟩ := by
    rw [parts.ofText_eq run] at failed
    split_ifs at failed ⊢ <;> exact (Except.error.inj failed).symm
  have nonempty {number : Nat} {rest : List Char} (run : LeadingRun base digits number rest)
      (high : 2 ^ 32 ≤ number) : numeral ≠ [] := by
    intro empty
    rw [parts.unsigned.eq_nil_iff.mp empty] at run
    have zero := run.number_of_nil
    omega
  obtain ⟨number, rest, run⟩ := exists_leadingRun base digits
  refine ⟨by rw [outcome run], ?_⟩
  constructor
  case empty =>
    rw [outcome run]
    by_cases empty : numeral = []
    · simp only [empty, if_true]
    · simp only [empty, if_false, iff_false]
      split_ifs <;> decide
  case overflow =>
    constructor
    · intro overflow
      refine ⟨number, rest, run, ?_⟩
      rw [outcome run] at overflow
      dsimp only at overflow
      split_ifs at overflow with _ high
      exact high
    · rintro ⟨number, rest, run, high⟩
      rw [outcome run]
      simp only [nonempty run high, high, if_true, if_false]
  case invalidDigit =>
    constructor
    · intro invalid
      rw [outcome run] at invalid
      dsimp only at invalid
      split_ifs at invalid with empty high
      exact ⟨empty, number, rest, run, by omega⟩
    · rintro ⟨some, number, rest, run, low⟩
      rw [outcome run]
      simp only [some, Nat.not_le.mpr low, if_false]
  case signs =>
    have unread (sign : Char) (other : sign ∉ lowerDigits ++ upperDigits) (first : digits.head? = some sign) :
        fault.cause = .invalidDigit := by
      have some : numeral ≠ [] := by
        rw [Ne, parts.unsigned.eq_nil_iff]
        rintro rfl
        cases first
      rw [outcome (leadingRun_of_sign other first)]
      simp only [some, Nat.reducePow, Nat.reduceLeDiff, if_false]
    rintro (rfl | minus)
    · cases parts.unsigned with
      | plain => exact unread '+' (by decide) rfl
    · exact unread '-' (by decide) minus

theorem not_isWhiteSpace_of_denotes (denotes : Denotes base digits number) :
    ∀ char ∈ digits, ¬ IsWhiteSpace char := by
  have solid : (lowerDigits ++ upperDigits).all (¬ IsWhiteSpace ·) = true := by decide
  intro char member
  obtain ⟨value, digit⟩ := denotes.exists_isDigit member
  exact of_decide_eq_true (List.all_eq_true.mp solid char (List.mem_append.mpr digit.mem))

theorem ofText_of_denotes {chars : List Char} (announces : Announces chars base digits)
    (solid : ∀ char ∈ chars, ¬ IsWhiteSpace char) (denotes : Denotes base digits number)
    (some : digits ≠ []) (low : number < 2 ^ 32) :
    ofText (String.ofList chars) = .ok ⟨UInt32.ofNat number⟩ := by
  have trims : Trims (String.ofList chars).toList chars := by
    rw [String.toList_ofList]
    exact trims_self solid
  have parts : Parts (String.ofList chars) chars base digits digits := ⟨trims, announces, denotes.unsigned⟩
  exact (parts.ok_iff _).mpr ⟨some, number, denotes, low, rfl⟩

/-- A token is read back from the text that listings show for it. -/
theorem ofText_text (token : Token) : ofText token.text = .ok token := by
  have denotes := denotes_hexUpper 8 token.value.toNat
  have length : (hexUpper 8 token.value.toNat).toList.length = 8 :=
    length_hexUpper (by decide) token.value.toNat_lt
  have chars : token.text = String.ofList ('0' :: 'x' :: (hexUpper 8 token.value.toNat).toList) := by
    rw [← String.toList_inj, text, String.toList_append]
    exact String.toList_ofList.symm
  have solid : ∀ char ∈ '0' :: 'x' :: (hexUpper 8 token.value.toNat).toList, ¬ IsWhiteSpace char := by
    simp only [List.forall_mem_cons]
    exact ⟨by decide, by decide, not_isWhiteSpace_of_denotes denotes⟩
  have some : (hexUpper 8 token.value.toNat).toList ≠ [] := by
    intro empty
    rw [empty] at length
    cases length
  rw [chars, ofText_of_denotes .lower solid denotes some token.value.toNat_lt, UInt32.ofNat_toNat]

/-- A token is read back from its value in decimal. -/
theorem ofText_decimal (token : Token) : ofText (toString token.value.toNat) = .ok token := by
  have denotes := denotes_toDigits_ten token.value.toNat
  have plain (letter : Char) (other : letter ∉ lowerDigits ++ upperDigits) (rest : List Char) :
      Nat.toDigits 10 token.value.toNat ≠ '0' :: letter :: rest := by
    intro same
    rw [same] at denotes
    obtain ⟨value, digit⟩ := denotes.exists_isDigit (List.mem_cons_of_mem _ (List.mem_cons_self ..))
    rw [List.mem_append] at other
    exact other digit.mem
  have chars : toString token.value.toNat = String.ofList (Nat.toDigits 10 token.value.toNat) := by
    rw [← String.toList_inj, Nat.toString_eq_repr, Nat.toList_repr, String.toList_ofList]
  have announces := Announces.plain (plain 'x' (by decide)) (plain 'X' (by decide))
  rw [chars, ofText_of_denotes announces (not_isWhiteSpace_of_denotes denotes) denotes Nat.toDigits_ne_nil
    token.value.toNat_lt, UInt32.ofNat_toNat]

end Token

/-- A text is read as a token exactly if it is a numeral below the limit between white space, in the base
that it announces. Otherwise what stands in the numeral says why, and what is shown is read back. -/
theorem token_exactly_spelled (text : String) :
    (∃ core base numeral digits, Token.Parts text core base numeral digits) ∧
    (∀ core base numeral digits, Token.Parts text core base numeral digits →
      (∀ token, Token.ofText text = .ok token ↔ digits ≠ [] ∧
        ∃ number, Denotes base digits number ∧ number < 2 ^ 32 ∧ token = ⟨UInt32.ofNat number⟩) ∧
      ∀ fault, Token.ofText text = .error fault →
        fault.text = String.ofList core ∧ Token.Blames base numeral digits fault.cause) ∧
    ∀ token : Token, Token.ofText token.text = .ok token ∧
      Token.ofText (toString token.value.toNat) = .ok token := by
  refine ⟨Token.exists_parts text, ?_, fun token => ⟨token.ofText_text, token.ofText_decimal⟩⟩
  intro core base numeral digits parts
  exact ⟨parts.ok_iff, fun fault failed => parts.blames failed⟩

/-- A number that is too great is blamed before the letter behind it, which is no digit. -/
theorem token_exactly_spelled_overflowFirst :
    let text := "\t0X+1FFFFFFFFg\u3000"
    let digits := ['1', 'F', 'F', 'F', 'F', 'F', 'F', 'F', 'F', 'g']
    Token.Parts text ('0' :: 'X' :: '+' :: digits) 16 ('+' :: digits) digits ∧
      Token.ofText text = .error ⟨"0X+1FFFFFFFFg", .overflow⟩ ∧
      ∃ number rest, LeadingRun 16 digits number rest ∧ 2 ^ 32 ≤ number := by
  intro text digits
  have trims : Trims text.toList ('0' :: 'X' :: '+' :: digits) := by
    refine ⟨⟨['\t'], ['\u3000'], by decide, ?_, ?_⟩, ?_, ?_⟩
    · simp only [List.mem_singleton, forall_eq]
      decide
    · simp only [List.mem_singleton, forall_eq]
      decide
    · rintro _ ⟨⟩
      decide
    · rintro _ ⟨⟩
      decide
  have parts : Token.Parts text ('0' :: 'X' :: '+' :: digits) 16 ('+' :: digits) digits :=
    ⟨trims, .upper, .plus⟩
  have failed : Token.ofText text = .error ⟨"0X+1FFFFFFFFg", .overflow⟩ := by decide +kernel
  obtain ⟨-, blames⟩ := ((token_exactly_spelled text).2.1 _ _ _ _ parts).2 _ failed
  exact ⟨parts, failed, blames.overflow.mp rfl⟩

end CilListing
