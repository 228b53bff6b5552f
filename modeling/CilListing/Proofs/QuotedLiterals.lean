import CilListing.Text.Quoted
import Mathlib.Algebra.Ring.Parity
import Mathlib.Data.List.Induction

namespace CilListing

/-- The characters that would break a line or not be seen in it. -/
def brokenChars : List Char := ['\n', '\r', '\t', '\x00']

/-- How a character may stand inside a literal: behind a backslash as the letter that is read as it, or
as itself if it has no other part there. -/
inductive StandsAs (char : Char) : List Char → Prop
  | escaped {letter : Char} : unescapeChar letter = char → letter ∉ brokenChars →
      StandsAs char ['\\', letter]
  | plain : char ≠ '"' → char ≠ '\\' → char ∉ brokenChars → StandsAs char [char]

/-- The number of backslashes at the end. A character behind them is escaped if it is odd. -/
def trailingBackslashes (chars : List Char) : Nat := (chars.reverse.takeWhile (· == '\\')).length

theorem standsAs_escapeChar (char : Char) : StandsAs char (escapeChar char) := by
  rw [escapeChar.eq_def]
  split
  · exact .escaped rfl (by decide)
  · exact .escaped rfl (by decide)
  · exact .escaped rfl (by decide)
  · exact .escaped rfl (by decide)
  · exact .escaped rfl (by decide)
  · exact .escaped rfl (by decide)
  · next quote backslash feed ret tab zero =>
    refine .plain quote backslash ?_
    simp only [brokenChars, List.mem_cons, List.not_mem_nil, or_false, not_or]
    exact ⟨feed, ret, tab, zero⟩

section Reading

theorem StandsAs.readQuoted?_append {char : Char} {chars : List Char} (stands : StandsAs char chars)
    (rest : List Char) :
    readQuoted? (chars ++ rest) = (readQuoted? rest).map fun (text, rest) => (char :: text, rest) := by
  cases stands with
  | escaped read => rw [← read]; rfl
  | plain quote backslash =>
    rw [List.singleton_append, readQuoted?.eq_def]
    split
    · next same => cases same
    · next same => exact absurd (List.cons.inj same).1 quote
    · next same => exact absurd (List.cons.inj same).1 backslash
    · next same => cases same; rfl

/-- The inside of a literal is read up to its closing quote, whatever follows that. -/
theorem readQuoted?_escaped (chars rest : List Char) :
    readQuoted? (chars.flatMap escapeChar ++ '"' :: rest) = some (chars, rest) := by
  induction chars with
  | nil => rfl
  | cons char chars ih =>
    rw [List.flatMap_cons, List.append_assoc, (standsAs_escapeChar char).readQuoted?_append, ih]
    rfl

theorem unquote?_quote_append (text : String) (rest : List Char) :
    unquote? ((quote text).toList ++ rest) = some (text, rest) := by
  have inside := readQuoted?_escaped text.toList rest
  rw [quote_toList, List.cons_append, List.append_assoc, List.singleton_append, unquote?, inside]
  simp

end Reading

section Quotes

variable {chars : List Char}

theorem trailingBackslashes_backslash (chars : List Char) :
    trailingBackslashes (chars ++ ['\\']) = trailingBackslashes chars + 1 := by
  simp [trailingBackslashes]

theorem trailingBackslashes_other {char : Char} (other : char ≠ '\\') (chars : List Char) :
    trailingBackslashes (chars ++ [char]) = 0 := by
  simp [trailingBackslashes, other]

/-- What stands for a character escapes nothing behind it. -/
theorem StandsAs.even_append {char : Char} {shown : List Char} (stands : StandsAs char shown)
    (even : Even (trailingBackslashes chars)) : Even (trailingBackslashes (chars ++ shown)) := by
  cases stands with
  | @escaped letter =>
    rw [← List.singleton_append, ← List.append_assoc]
    by_cases backslash : letter = '\\'
    · rw [backslash, trailingBackslashes_backslash, trailingBackslashes_backslash]
      exact even.add even_two
    · rw [trailingBackslashes_other backslash]
      exact .zero
  | plain _ backslash =>
    rw [trailingBackslashes_other backslash]
    exact .zero

/-- A quote in what stands for a character has a backslash of its own before it. -/
theorem StandsAs.eq_of_quote {char : Char} {shown before after : List Char} (stands : StandsAs char shown)
    (split : shown = before ++ '"' :: after) : before = ['\\'] := by
  cases stands with
  | escaped =>
    rcases before with _ | ⟨first, _ | ⟨second, later⟩⟩
    · simp at split
    · simp only [List.cons_append, List.cons.injEq] at split
      rw [split.1]
    · simp at split
  | plain quote =>
    rcases before with _ | ⟨first, later⟩
    · exact absurd (List.cons.inj split).1 quote
    · simp at split

theorem even_escaped (chars : List Char) : Even (trailingBackslashes (chars.flatMap escapeChar)) := by
  induction chars using List.reverseRecOn with
  | nil => exact .zero
  | append_singleton chars char ih =>
    rw [List.flatMap_append, List.flatMap_singleton]
    exact (standsAs_escapeChar char).even_append ih

/-- Every quote inside of a literal is escaped. -/
theorem odd_before_quote {before after : List Char}
    (split : chars.flatMap escapeChar = before ++ '"' :: after) : Odd (trailingBackslashes before) := by
  induction chars using List.reverseRecOn generalizing after with
  | nil => simp at split
  | append_singleton chars char ih =>
    rw [List.flatMap_append, List.flatMap_singleton, List.append_eq_append_iff] at split
    rcases split with ⟨middle, rfl, shown⟩ | ⟨middle, inside, shown⟩
    · -- The quote stands in what is shown for the last character.
      rw [(standsAs_escapeChar char).eq_of_quote shown, trailingBackslashes_backslash]
      exact (even_escaped chars).add_one
    · cases middle with
      | nil =>
        have first : escapeChar char = [] ++ '"' :: after := shown.symm
        cases (standsAs_escapeChar char).eq_of_quote first
      | cons first middle =>
        obtain ⟨rfl, -⟩ := List.cons.inj shown
        exact ih inside

end Quotes

theorem notMem_quote {char : Char} (broken : char ∈ brokenChars) (text : String) : char ∉ (quote text).toList := by
  have noQuote : char ≠ '"' := ne_of_mem_of_not_mem broken (by decide)
  have noBackslash : char ≠ '\\' := ne_of_mem_of_not_mem broken (by decide)
  rw [quote_toList]
  simp only [List.mem_cons, List.mem_append, List.mem_flatMap, List.not_mem_nil, or_false, noQuote, false_or]
  rintro ⟨other, -, member⟩
  have stands := standsAs_escapeChar other
  generalize escapeChar other = shown at stands member
  cases stands with
  | @escaped letter _ solid =>
    simp only [List.mem_cons, List.not_mem_nil, or_false, noBackslash, false_or] at member
    exact solid (member ▸ broken)
  | plain _ _ solid => exact solid (List.mem_singleton.mp member ▸ broken)

/-- A quoted literal says where it ends and what it stands for. Reading it stops at its closing quote
whatever follows, so literals of different texts differ and none begins another. It stays on one line, and
no quote between the first and the last is free of a backslash. -/
theorem quote_read_back :
    (∀ (text : String) (rest : List Char), unquote? ((quote text).toList ++ rest) = some (text, rest)) ∧
    Function.Injective quote ∧
    (∀ first second : String, (quote first).toList <+: (quote second).toList → first = second) ∧
    ∀ text : String, (∀ char ∈ ['\n', '\r', '\t', '\x00'], char ∉ (quote text).toList) ∧
      ∃ inside, (quote text).toList = '"' :: (inside ++ ['"']) ∧ Even (trailingBackslashes inside) ∧
        ∀ before after, inside = before ++ '"' :: after → Odd (trailingBackslashes before) := by
  have front (first second : String) (begins : (quote first).toList <+: (quote second).toList) :
      first = second := by
    obtain ⟨rest, whole⟩ := begins
    have read := unquote?_quote_append second []
    rw [List.append_nil, ← whole, unquote?_quote_append] at read
    exact (Prod.mk.inj (Option.some.inj read)).1
  refine ⟨unquote?_quote_append, ?_, front, ?_⟩
  · intro first second same
    exact front first second (same ▸ List.prefix_refl _)
  · intro text
    exact ⟨fun char broken => notMem_quote broken text, _, quote_toList text, even_escaped text.toList,
      fun before after split => odd_before_quote split⟩

/-- A backslash before a quote takes four places, and a quote and a letter may follow the literal. -/
theorem quote_read_back_backslashQuote :
    let literal := ['"', '\\', '\\', '\\', '"', '"']
    (quote "\\\"").toList = literal ∧ Odd (trailingBackslashes ['\\', '\\', '\\']) ∧
      unquote? (literal ++ ['"', 'n']) = some ("\\\"", ['"', 'n']) := by
  intro literal
  have shown : (quote "\\\"").toList = literal := by decide
  obtain ⟨read, -, -, each⟩ := quote_read_back
  obtain ⟨-, inside, split, -, odd⟩ := each "\\\""
  have inner : inside = ['\\', '\\', '\\'] ++ '"' :: [] := by
    rw [shown] at split
    exact (List.append_cancel_right (List.cons.inj split).2).symm
  exact ⟨shown, odd _ [] inner, shown ▸ read "\\\"" ['"', 'n']⟩

end CilListing
