import CilListing.Proofs.NumeralText
import Mathlib.Data.List.Forall2
import Mathlib.Data.List.Induction

namespace CilListing

def lowerDigits : List Char :=
  ['0', '1', '2', '3', '4', '5', '6', '7', '8', '9', 'a', 'b', 'c', 'd', 'e', 'f']

/-- A character that stands for a value as a digit of some base. Letters may be of either case. -/
def IsDigit (base : Nat) (char : Char) (value : Nat) : Prop :=
  value < base ∧ (lowerDigits[value]? = some char ∨ upperDigits[value]? = some char)

/-- Digits of some base that stand for a number together, the last of them for the units. -/
def Denotes (base : Nat) (chars : List Char) (number : Nat) : Prop :=
  ∃ digits : List Nat, List.Forall₂ (IsDigit base) chars digits ∧ Nat.ofDigits base digits.reverse = number

/-- The number of the longest run of digits that some characters begin with, and what follows the run. -/
structure LeadingRun (base : Nat) (chars : List Char) (number : Nat) (rest : List Char) : Prop where
  split : ∃ run, chars = run ++ rest ∧ Denotes base run number
  longest : ∀ char ∈ rest.head?, ∀ value, ¬ IsDigit base char value

/-- What a numeral is without its sign. A plus sign with nothing behind it is not taken for one. -/
inductive Unsigned : List Char → List Char → Prop
  | plus {char : Char} {rest : List Char} : Unsigned ('+' :: char :: rest) (char :: rest)
  | plain {chars : List Char} : (∀ char rest, chars ≠ '+' :: char :: rest) → Unsigned chars chars

section Digits

variable {base : Nat} {char : Char} {value : Nat}

theorem digitValue?_sixteen_iff :
    digitValue? 16 char = some value ↔ lowerDigits[value]? = some char ∨ upperDigits[value]? = some char := by
  constructor
  · intro held
    have ascii : char.toNat < 128 := by
      by_contra! high
      have beyond (last : Char) (low : last.toNat < 128) : ¬ char ≤ last := by
        intro below
        have codes : char.toNat ≤ last.toNat := below
        omega
      simp [digitValue?, beyond '9' (by decide), beyond 'f' (by decide), beyond 'F' (by decide)] at held
    have table : ∀ code < 128, ∀ value ∈ digitValue? 16 (Char.ofNat code),
        lowerDigits[value]? = some (Char.ofNat code) ∨ upperDigits[value]? = some (Char.ofNat code) := by
      decide +kernel
    have entry := table char.toNat ascii value
    rw [Char.ofNat_toNat] at entry
    exact entry held
  · have lower : ∀ value < 16, lowerDigits[value]?.bind (digitValue? 16) = some value := by decide
    have upper : ∀ value < 16, upperDigits[value]?.bind (digitValue? 16) = some value := by decide
    rintro (place | place)
    · have read := lower value (List.getElem?_eq_some_iff.mp place).1
      rwa [place] at read
    · have read := upper value (List.getElem?_eq_some_iff.mp place).1
      rwa [place] at read

/-- A smaller base has the first of the sixteen digits. -/
theorem digitValue?_eq_some_iff (small : base ≤ 16) :
    digitValue? base char = some value ↔ IsDigit base char value := by
  rw [IsDigit, ← digitValue?_sixteen_iff]
  simp only [digitValue?, Option.ite_none_right_eq_some, Option.some_inj]
  split_ifs <;> omega

theorem digitValue?_eq_none (small : base ≤ 16) (other : ∀ value, ¬ IsDigit base char value) :
    digitValue? base char = none := by
  rw [Option.eq_none_iff_forall_ne_some]
  intro value held
  exact other value ((digitValue?_eq_some_iff small).mp held)

theorem IsDigit.mem (digit : IsDigit base char value) : char ∈ lowerDigits ∨ char ∈ upperDigits :=
  digit.2.imp List.mem_of_getElem? List.mem_of_getElem?

end Digits

namespace Denotes

variable {base number value : Nat} {chars rest : List Char} {char : Char}

theorem nil : Denotes base [] 0 := ⟨[], .nil, rfl⟩

theorem cons_iff {total : Nat} : Denotes base (char :: rest) total ↔
    ∃ value number, IsDigit base char value ∧ Denotes base rest number ∧
      value * base ^ rest.length + number = total := by
  have front (value : Nat) {digits : List Nat} (later : List.Forall₂ (IsDigit base) rest digits) :
      Nat.ofDigits base (value :: digits).reverse =
        value * base ^ rest.length + Nat.ofDigits base digits.reverse := by
    rw [List.reverse_cons, Nat.ofDigits_append, Nat.ofDigits_singleton, List.length_reverse, later.length_eq,
      Nat.mul_comm, Nat.add_comm]
  constructor
  · rintro ⟨_ | ⟨value, digits⟩, each, sum⟩
    · cases each
    · obtain ⟨digit, later⟩ := List.forall₂_cons.mp each
      exact ⟨value, _, digit, ⟨digits, later, rfl⟩, (front value later).symm.trans sum⟩
  · rintro ⟨value, _, digit, ⟨digits, later, rfl⟩, sum⟩
    exact ⟨value :: digits, .cons digit later, (front value later).trans sum⟩

theorem concat (denotes : Denotes base chars number) (digit : IsDigit base char value) :
    Denotes base (chars ++ [char]) (base * number + value) := by
  obtain ⟨digits, each, rfl⟩ := denotes
  refine ⟨digits ++ [value], List.rel_append each (.cons digit .nil), ?_⟩
  rw [List.reverse_append, List.reverse_singleton, List.singleton_append, Nat.ofDigits_cons, Nat.add_comm]

theorem zeros (positive : 0 < base) (denotes : Denotes base chars number) (count : Nat) :
    Denotes base (List.replicate count '0' ++ chars) number := by
  induction count with
  | zero => exact denotes
  | succ count ih =>
    have zero : IsDigit base '0' 0 := ⟨positive, Or.inl rfl⟩
    rw [List.replicate_succ, List.cons_append, cons_iff]
    exact ⟨0, number, zero, ih, by rw [Nat.zero_mul, Nat.zero_add]⟩

theorem exists_isDigit (denotes : Denotes base chars number) (member : char ∈ chars) :
    ∃ value, IsDigit base char value := by
  obtain ⟨digits, each, -⟩ := denotes
  induction each with
  | nil => cases member
  | cons digit _ ih =>
    rcases List.mem_cons.mp member with rfl | later
    · exact ⟨_, digit⟩
    · exact ih later

theorem leadingRun (denotes : Denotes base chars number) : LeadingRun base chars number [] :=
  ⟨⟨chars, (List.append_nil chars).symm, denotes⟩, by simp⟩

/-- Digits have no sign in front. -/
theorem unsigned (denotes : Denotes base chars number) : Unsigned chars chars := by
  refine .plain ?_
  rintro char rest rfl
  obtain ⟨value, digit⟩ := denotes.exists_isDigit (List.mem_cons_self ..)
  have absent : '+' ∉ lowerDigits ∧ '+' ∉ upperDigits := by decide
  exact digit.mem.elim absent.1 absent.2

end Denotes

section Written

theorem denotes_toDigits_ten (n : Nat) : Denotes 10 (Nat.toDigits 10 n) n := by
  have digit {value : Nat} (small : value < 10) : IsDigit 10 value.digitChar value := by
    rw [← digitValue?_eq_some_iff (by decide)]
    interval_cases value <;> decide
  induction n using Nat.strongRecOn with
  | _ n ih =>
    rw [Nat.toDigits_eq_if (by decide)]
    split
    · next small =>
      have single := Denotes.nil.concat (digit small)
      rwa [Nat.mul_zero, Nat.zero_add] at single
    · have longer := (ih (n / 10) (by omega)).concat (digit (Nat.mod_lt n (by decide)))
      rwa [Nat.div_add_mod] at longer

theorem denotes_hexValue {chars : List Char} (each : ∀ char ∈ chars, (digitValue? 16 char).isSome = true) :
    Denotes 16 chars (hexValue chars) := by
  induction chars using List.reverseRecOn with
  | nil => exact .nil
  | append_singleton chars char ih =>
    have front := ih fun other member => each other (List.mem_append_left _ member)
    obtain ⟨value, held⟩ := Option.isSome_iff_exists.mp (each char (by simp))
    rw [hexValue_concat, held]
    exact front.concat ((digitValue?_eq_some_iff le_rfl).mp held)

theorem denotes_hexUpper (width n : Nat) : Denotes 16 (hexUpper width n).toList n := by
  have digits := denotes_hexValue fun _ => isHex_of_mem_toDigits (n := n)
  rw [hexValue_toDigits] at digits
  rw [hexUpper_toList]
  exact digits.zeros (by decide) _

end Written

section Reading

variable {base limit number : Nat} {chars rest : List Char}

/-- Reading passes over a run of digits unless its number reaches the limit. It may stop before the end
of the run then, since more digits make no number smaller. -/
theorem readDigits_append (small : base ≤ 16) (positive : 0 < base) (denotes : Denotes base chars number)
    {before : Nat} (low : before < limit) (rest : List Char) :
    readDigits base limit before (chars ++ rest) =
      if before * base ^ chars.length + number < limit then
        readDigits base limit (before * base ^ chars.length + number) rest
      else .error .overflow := by
  induction chars generalizing before number with
  | nil =>
    obtain ⟨digits, each, rfl⟩ := denotes
    cases each
    simp [low]
  | cons char chars ih =>
    obtain ⟨value, later, digit, run, rfl⟩ := Denotes.cons_iff.mp denotes
    have held : digitValue? base char = some value := (digitValue?_eq_some_iff small).mpr digit
    have total : before * base ^ (char :: chars).length + (value * base ^ chars.length + later) =
        (before * base + value) * base ^ chars.length + later := by
      rw [List.length_cons]
      ring
    simp only [List.cons_append, readDigits, held]
    rw [total]
    by_cases within : before * base + value < limit
    · rw [if_pos within, ih run within]
    · have grows : before * base + value ≤ (before * base + value) * base ^ chars.length :=
        Nat.le_mul_of_pos_right _ (Nat.pow_pos positive)
      rw [if_neg within, if_neg (by omega)]

/-- The longest run of digits decides how reading ends. -/
theorem LeadingRun.readDigits_eq (run : LeadingRun base chars number rest) (small : base ≤ 16)
    (positive : 0 < base) (some : 0 < limit) :
    readDigits base limit 0 chars =
      if limit ≤ number then .error .overflow
      else if rest = [] then .ok number else .error .invalidDigit := by
  obtain ⟨⟨digits, rfl, denotes⟩, longest⟩ := run
  rw [readDigits_append small positive denotes some, Nat.zero_mul, Nat.zero_add]
  by_cases reached : limit ≤ number
  · rw [if_pos reached, if_neg (by omega)]
  rw [if_neg reached, if_pos (by omega)]
  cases rest with
  | nil => rfl
  | cons char later =>
    have stop : digitValue? base char = none := digitValue?_eq_none small (longest char rfl)
    simp only [readDigits, stop, reduceCtorEq, if_false]

theorem LeadingRun.number_of_nil (run : LeadingRun base [] number rest) : number = 0 := by
  obtain ⟨⟨digits, split, values, each, rfl⟩, -⟩ := run
  rw [(List.nil_eq_append_iff.mp split).1] at each
  cases each
  rfl

theorem exists_leadingRun (base : Nat) (chars : List Char) : ∃ number rest, LeadingRun base chars number rest := by
  induction chars with
  | nil => exact ⟨0, [], ⟨[], rfl, .nil⟩, by simp⟩
  | cons char chars ih =>
    by_cases digit : ∃ value, IsDigit base char value
    · obtain ⟨value, isDigit⟩ := digit
      obtain ⟨number, rest, ⟨run, rfl, denotes⟩, longest⟩ := ih
      exact ⟨_, rest, ⟨char :: run, rfl, Denotes.cons_iff.mpr ⟨value, number, isDigit, denotes, rfl⟩⟩, longest⟩
    · refine ⟨0, char :: chars, ⟨[], rfl, .nil⟩, ?_⟩
      rintro _ ⟨⟩ value isDigit
      exact digit ⟨value, isDigit⟩

theorem Unsigned.readNumeral_eq {numeral : List Char} (unsigned : Unsigned numeral chars) :
    readNumeral base limit numeral =
      if numeral = [] then .error .empty else readDigits base limit 0 chars := by
  cases unsigned with
  | plus => rfl
  | plain bare =>
    unfold readNumeral
    split
    · rfl
    · next char rest => exact absurd rfl (bare char rest)
    · next nonempty _ => rw [if_neg nonempty]

theorem Unsigned.eq_nil_iff {numeral : List Char} (unsigned : Unsigned numeral chars) :
    numeral = [] ↔ chars = [] := by
  cases unsigned <;> simp

theorem exists_unsigned (numeral : List Char) : ∃ chars, Unsigned numeral chars := by
  by_cases signed : ∃ char rest, numeral = '+' :: char :: rest
  · obtain ⟨char, rest, rfl⟩ := signed
    exact ⟨char :: rest, .plus⟩
  · refine ⟨numeral, .plain ?_⟩
    intro char rest same
    exact signed ⟨char, rest, same⟩

end Reading

end CilListing
