import CilListing.Json.Number
import Mathlib.Data.List.TakeWhile

namespace CilListing

/-- One digit or more, and nothing else. -/
def IsDigits (chars : List Char) : Prop := chars ≠ [] ∧ ∀ char ∈ chars, isDigit char = true

namespace NumberText

/-- The whole part is a zero alone or does not begin with one. -/
inductive SpellsWhole : List Char → Prop
  | zero : SpellsWhole ['0']
  | digits {digits} : IsDigits digits → digits.head? ≠ some '0' → SpellsWhole digits

inductive SpellsFraction : Option (List Char) → List Char → Prop
  | absent : SpellsFraction none []
  | digits {digits} : IsDigits digits → SpellsFraction (some digits) ('.' :: digits)

inductive SpellsExponent : Option (Bool × List Char) → List Char → Prop
  | absent : SpellsExponent none []
  | bare {mark digits} : mark = 'e' ∨ mark = 'E' → IsDigits digits →
      SpellsExponent (some (false, digits)) (mark :: digits)
  | plus {mark digits} : mark = 'e' ∨ mark = 'E' → IsDigits digits →
      SpellsExponent (some (false, digits)) (mark :: '+' :: digits)
  | minus {mark digits} : mark = 'e' ∨ mark = 'E' → IsDigits digits →
      SpellsExponent (some (true, digits)) (mark :: '-' :: digits)

/-- The ways to write a number. -/
inductive Spells : NumberText → List Char → Prop
  | positive {whole fraction exponent fractionText exponentText} : SpellsWhole whole →
      SpellsFraction fraction fractionText → SpellsExponent exponent exponentText →
      Spells ⟨false, whole, fraction, exponent⟩ (whole ++ (fractionText ++ exponentText))
  | negative {whole fraction exponent fractionText exponentText} : SpellsWhole whole →
      SpellsFraction fraction fractionText → SpellsExponent exponent exponentText →
      Spells ⟨true, whole, fraction, exponent⟩ ('-' :: (whole ++ (fractionText ++ exponentText)))

/-- The characters with which a number can go on. -/
def goesOn (char : Char) : Bool := isDigit char || char == '.' || char == 'e' || char == 'E'

/-- A number ends in front of these characters. -/
def Ends (rest : List Char) : Prop := ∀ char ∈ rest.head?, goesOn char = false

section Digits

variable {digits rest : List Char}

theorem splitDigits_append (isDigits : ∀ char ∈ digits, isDigit char = true)
    (stop : ∀ char ∈ rest.head?, isDigit char = false) : splitDigits (digits ++ rest) = (digits, rest) := by
  have front : rest.takeWhile isDigit = [] ∧ rest.dropWhile isDigit = rest := by
    cases rest with
    | nil => exact ⟨rfl, rfl⟩
    | cons char later =>
      have other := stop char rfl
      rw [List.takeWhile_cons, List.dropWhile_cons, other]
      exact ⟨rfl, rfl⟩
  rw [splitDigits, List.takeWhile_append_of_pos isDigits, List.dropWhile_append_of_pos isDigits, front.1,
    front.2, List.append_nil]

theorem isDigits_of_splitDigits {chars : List Char} (split : splitDigits chars = (digits, rest))
    (nonempty : digits ≠ []) : IsDigits digits ∧ chars = digits ++ rest := by
  rw [splitDigits, Prod.mk.injEq] at split
  obtain ⟨rfl, rfl⟩ := split
  refine ⟨⟨nonempty, fun char member => List.mem_takeWhile_imp member⟩, ?_⟩
  rw [List.takeWhile_append_dropWhile]

theorem goesOn_eq_false_iff {char : Char} :
    goesOn char = false ↔ isDigit char = false ∧ char ≠ '.' ∧ char ≠ 'e' ∧ char ≠ 'E' := by
  simp only [goesOn, Bool.or_eq_false_iff, beq_eq_false_iff_ne, and_assoc]

end Digits

section Reading

variable {rest : List Char}

theorem readWhole?_spells {whole : List Char} (spells : SpellsWhole whole)
    (stop : ∀ char ∈ rest.head?, isDigit char = false) : readWhole? (whole ++ rest) = some (whole, rest) := by
  cases spells with
  | zero => rfl
  | digits isDigits noZero =>
    have split := splitDigits_append isDigits.2 stop
    cases whole with
    | nil => exact absurd rfl isDigits.1
    | cons first later =>
      rw [readWhole?.eq_def]
      split
      · next same =>
        cases same
        exact absurd rfl noZero
      · rw [split]

theorem readFraction?_spells {fraction : Option (List Char)} {written : List Char}
    (spells : SpellsFraction fraction written)
    (stop : ∀ char ∈ rest.head?, isDigit char = false ∧ char ≠ '.') :
    readFraction? (written ++ rest) = some (fraction, rest) := by
  cases spells with
  | absent =>
    rw [List.nil_append, readFraction?.eq_def]
    split
    · exact absurd rfl (stop '.' rfl).2
    · rfl
  | @digits digits isDigits =>
    have split := splitDigits_append isDigits.2 fun char head => (stop char head).1
    cases digits with
    | nil => exact absurd rfl isDigits.1
    | cons first later =>
      show readFraction? ('.' :: (first :: later ++ rest)) = _
      rw [readFraction?, split]

theorem readExponent?_digits {mark : Char} {digits chars : List Char} {negative : Bool}
    (isMark : mark = 'e' ∨ mark = 'E') (isDigits : IsDigits digits)
    (stop : ∀ char ∈ rest.head?, isDigit char = false)
    (signed : readSign chars = (negative, digits ++ rest)) :
    readExponent? (mark :: chars) = some (some (negative, digits), rest) := by
  have split := splitDigits_append isDigits.2 stop
  cases digits with
  | nil => exact absurd rfl isDigits.1
  | cons first later =>
    rw [readExponent?, if_pos isMark, signed]
    simp only [split]

theorem readSign_of_digit {char : Char} (digit : isDigit char = true) (rest : List Char) :
    readSign (char :: rest) = (false, char :: rest) := by
  rw [readSign.eq_def]
  split
  · next same => cases same; cases digit
  · next same => cases same; cases digit
  · rfl

theorem readExponent?_spells {exponent : Option (Bool × List Char)} {written : List Char}
    (spells : SpellsExponent exponent written) (ends : Ends rest) :
    readExponent? (written ++ rest) = some (exponent, rest) := by
  have stop : ∀ char ∈ rest.head?, isDigit char = false :=
    fun char head => (goesOn_eq_false_iff.mp (ends char head)).1
  cases spells with
  | absent =>
    cases rest with
    | nil => rfl
    | cons char later =>
      obtain ⟨_, _, noLower, noUpper⟩ := goesOn_eq_false_iff.mp (ends char rfl)
      exact if_neg (not_or.mpr ⟨noLower, noUpper⟩)
  | @bare mark digits isMark isDigits =>
    refine readExponent?_digits isMark isDigits stop ?_
    cases digits with
    | nil => exact absurd rfl isDigits.1
    | cons first later => exact readSign_of_digit (isDigits.2 first (List.mem_cons_self ..)) _
  | plus isMark isDigits => exact readExponent?_digits isMark isDigits stop rfl
  | minus isMark isDigits => exact readExponent?_digits isMark isDigits stop rfl

/-- An exponent goes on from digits, and does not begin with one or with a point. -/
theorem stop_of_exponent {exponent : Option (Bool × List Char)} {written : List Char}
    (spells : SpellsExponent exponent written) (ends : Ends rest) :
    ∀ char ∈ (written ++ rest).head?, isDigit char = false ∧ char ≠ '.' := by
  have marks {mark : Char} (isMark : mark = 'e' ∨ mark = 'E') (later : List Char) :
      ∀ char ∈ (mark :: later).head?, isDigit char = false ∧ char ≠ '.' := by
    intro char head
    cases head
    rcases isMark with rfl | rfl <;> decide
  cases spells with
  | absent =>
    intro char head
    obtain ⟨noDigit, noPoint, _⟩ := goesOn_eq_false_iff.mp (ends char head)
    exact ⟨noDigit, noPoint⟩
  | bare isMark => exact marks isMark _
  | plus isMark => exact marks isMark _
  | minus isMark => exact marks isMark _

theorem stop_of_fraction {fraction : Option (List Char)} {written : List Char}
    (spells : SpellsFraction fraction written)
    (stop : ∀ char ∈ rest.head?, isDigit char = false ∧ char ≠ '.') :
    ∀ char ∈ (written ++ rest).head?, isDigit char = false := by
  intro char head
  cases spells with
  | absent => exact (stop char head).1
  | digits =>
    cases head
    rfl

theorem readUnsigned?_spells {whole fractionText exponentText : List Char}
    {fraction : Option (List Char)} {exponent : Option (Bool × List Char)}
    (wholeSpells : SpellsWhole whole) (fractionSpells : SpellsFraction fraction fractionText)
    (exponentSpells : SpellsExponent exponent exponentText) (ends : Ends rest) (negative : Bool) :
    readUnsigned? negative (whole ++ (fractionText ++ exponentText) ++ rest) =
      some (⟨negative, whole, fraction, exponent⟩, rest) := by
  have behindFraction := stop_of_exponent exponentSpells ends
  have behindWhole := stop_of_fraction fractionSpells behindFraction
  rw [List.append_assoc, List.append_assoc, readUnsigned?, readWhole?_spells wholeSpells behindWhole]
  simp only [readFraction?_spells fractionSpells behindFraction, readExponent?_spells exponentSpells ends]

/-- A number is read back however it is written, up to where it cannot go on. -/
theorem read?_spells {number : NumberText} {written : List Char} (spells : number.Spells written)
    (ends : Ends rest) : read? (written ++ rest) = some (number, rest) := by
  cases spells with
  | negative wholeSpells fractionSpells exponentSpells =>
    exact readUnsigned?_spells wholeSpells fractionSpells exponentSpells ends true
  | @positive whole _ _ fractionText exponentText wholeSpells fractionSpells exponentSpells =>
    have unsigned := readUnsigned?_spells wholeSpells fractionSpells exponentSpells ends false
    rw [read?.eq_def]
    split
    · next later same =>
      cases wholeSpells with
      | zero => cases same
      | digits isDigits =>
        cases whole with
        | nil => exact absurd rfl isDigits.1
        | cons first others =>
          cases same
          cases isDigits.2 '-' (List.mem_cons_self ..)
    · exact unsigned

end Reading

section Spelling

variable {chars rest : List Char}

theorem spellsWhole_of_readWhole? {whole : List Char} (found : readWhole? chars = some (whole, rest)) :
    SpellsWhole whole ∧ chars = whole ++ rest := by
  unfold readWhole? at found
  split at found
  · cases found
    exact ⟨.zero, rfl⟩
  · next noZero =>
    split at found
    · cases found
    · next nonempty split =>
      cases found
      obtain ⟨isDigits, rfl⟩ := isDigits_of_splitDigits split nonempty
      refine ⟨.digits isDigits ?_, rfl⟩
      intro head
      cases whole with
      | nil => cases head
      | cons first later =>
        cases head
        exact noZero (later ++ rest) rfl

theorem spellsFraction_of_readFraction? {fraction : Option (List Char)}
    (found : readFraction? chars = some (fraction, rest)) :
    ∃ written, SpellsFraction fraction written ∧ chars = written ++ rest := by
  unfold readFraction? at found
  split at found
  · split at found
    · cases found
    · next nonempty split =>
      cases found
      obtain ⟨isDigits, rfl⟩ := isDigits_of_splitDigits split nonempty
      exact ⟨_, .digits isDigits, rfl⟩
  · cases found
    exact ⟨[], .absent, rfl⟩

theorem spellsExponent_of_readExponent? {exponent : Option (Bool × List Char)}
    (found : readExponent? chars = some (exponent, rest)) :
    ∃ written, SpellsExponent exponent written ∧ chars = written ++ rest := by
  unfold readExponent? at found
  split at found
  · next mark chars =>
    split at found
    · next isMark =>
      simp only at found
      split at found
      · cases found
      · next nonempty split =>
        cases found
        obtain ⟨isDigits, signed⟩ := isDigits_of_splitDigits split nonempty
        unfold readSign at signed ⊢
        split at signed
        · exact ⟨_, .minus isMark isDigits, congrArg (mark :: '-' :: ·) signed⟩
        · exact ⟨_, .plus isMark isDigits, congrArg (mark :: '+' :: ·) signed⟩
        · exact ⟨_, .bare isMark isDigits, congrArg (mark :: ·) signed⟩
    · cases found
      exact ⟨[], .absent, rfl⟩
  · cases found
    exact ⟨[], .absent, rfl⟩

theorem spells_of_readUnsigned? {negative : Bool} {number : NumberText}
    (found : readUnsigned? negative chars = some (number, rest)) :
    ∃ whole fraction exponent fractionText exponentText, number = ⟨negative, whole, fraction, exponent⟩ ∧
      SpellsWhole whole ∧ SpellsFraction fraction fractionText ∧ SpellsExponent exponent exponentText ∧
      chars = whole ++ (fractionText ++ exponentText) ++ rest := by
  unfold readUnsigned? at found
  split at found
  · cases found
  · next whole _ wholeRead =>
    obtain ⟨wholeSpells, rfl⟩ := spellsWhole_of_readWhole? wholeRead
    split at found
    · cases found
    · next fraction _ fractionRead =>
      obtain ⟨fractionText, fractionSpells, rfl⟩ := spellsFraction_of_readFraction? fractionRead
      split at found
      · cases found
      · next exponent _ exponentRead =>
        obtain ⟨exponentText, exponentSpells, rfl⟩ := spellsExponent_of_readExponent? exponentRead
        cases found
        refine ⟨whole, fraction, exponent, fractionText, exponentText, rfl, wholeSpells, fractionSpells,
          exponentSpells, ?_⟩
        simp only [List.append_assoc]

/-- What is read as a number is written in one of these ways. -/
theorem spells_of_read? {number : NumberText} (found : read? chars = some (number, rest)) :
    ∃ written, number.Spells written ∧ chars = written ++ rest := by
  unfold read? at found
  split at found
  · obtain ⟨_, _, _, _, _, rfl, wholeSpells, fractionSpells, exponentSpells, rfl⟩ :=
      spells_of_readUnsigned? found
    exact ⟨_, .negative wholeSpells fractionSpells exponentSpells, rfl⟩
  · obtain ⟨_, _, _, _, _, rfl, wholeSpells, fractionSpells, exponentSpells, rfl⟩ :=
      spells_of_readUnsigned? found
    exact ⟨_, .positive wholeSpells fractionSpells exponentSpells, rfl⟩

end Spelling

end NumberText

end CilListing
