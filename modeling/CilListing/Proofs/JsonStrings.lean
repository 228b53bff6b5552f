import CilListing.Json.Lexeme

namespace CilListing

namespace Lexeme

/-- The letters that stand for a character behind a backslash. -/
def shortEscapes : List (Char × Char) :=
  [('"', '"'), ('\\', '\\'), ('/', '/'), ('b', '\x08'), ('f', '\x0C'), ('n', '\n'), ('r', '\r'),
    ('t', '\t')]

/-- The ways to write one character inside a string: as itself, by a letter behind a backslash, by its
code point in four digits, or by the two units that a greater code point falls into. -/
inductive SpellsChar : Char → List Char → Prop
  | plain {char} : ' ' ≤ char → char ≠ '"' → char ≠ '\\' → SpellsChar char [char]
  | short {letter char} : (letter, char) ∈ shortEscapes → SpellsChar char ['\\', letter]
  | unit {a b c d char} : hexUnit? a b c d = some char.toNat →
      SpellsChar char ['\\', 'u', a, b, c, d]
  | pair {a b c d e f g h leading trailing char} : hexUnit? a b c d = some leading →
      hexUnit? e f g h = some trailing → 0xD800 ≤ leading → leading < 0xDC00 →
      0xDC00 ≤ trailing → trailing < 0xE000 →
      char.toNat = 0x10000 + (leading - 0xD800) * 0x400 + (trailing - 0xDC00) →
      SpellsChar char ['\\', 'u', a, b, c, d, '\\', 'u', e, f, g, h]

/-- The ways to write the characters of a string, each in its own way. -/
inductive SpellsText : List Char → List Char → Prop
  | nil : SpellsText [] []
  | cons {char text spelling written} : SpellsChar char spelling → SpellsText text written →
      SpellsText (char :: text) (spelling ++ written)

/-- The characters that need no escape. -/
def isPlain (char : Char) : Bool := decide (' ' ≤ char) && char != '"' && char != '\\'

/-- A text of such characters may be written as it is. -/
theorem spellsText_self {text : List Char} (plain : text.all isPlain = true) : SpellsText text text := by
  induction text with
  | nil => exact .nil
  | cons char rest ih =>
    simp only [List.all_cons, isPlain, Bool.and_eq_true, decide_eq_true_eq, bne_iff_ne] at plain
    obtain ⟨⟨⟨visible, noQuote⟩, noBackslash⟩, later⟩ := plain
    exact .cons (.plain visible noQuote noBackslash) (ih later)

section Units

variable {a b c d : Char} {unit : Nat}

theorem digitValue?_lt {char : Char} {digit : Nat} (found : digitValue? 16 char = some digit) :
    digit < 16 := by
  simp only [digitValue?] at found
  generalize (if '0' ≤ char ∧ char ≤ '9' then char.toNat - '0'.toNat
    else if 'a' ≤ char ∧ char ≤ 'f' then char.toNat - 'a'.toNat + 10
    else if 'A' ≤ char ∧ char ≤ 'F' then char.toNat - 'A'.toNat + 10 else 16) = value at found
  split at found
  · next small =>
    cases found
    exact small
  · cases found

theorem hexUnit?_lt (found : hexUnit? a b c d = some unit) : unit < 0x10000 := by
  unfold hexUnit? at found
  split at found
  · next first second third fourth =>
    have boundA := digitValue?_lt first
    have boundB := digitValue?_lt second
    have boundC := digitValue?_lt third
    have boundD := digitValue?_lt fourth
    cases found
    omega
  · cases found

theorem toNat_ofNat {code : Nat} (valid : code.isValidChar) : (Char.ofNat code).toNat = code := by
  rw [Char.ofNat, dif_pos valid]
  rfl

/-- A character is never one half of a pair. -/
theorem not_half (char : Char) : isTrailing char.toNat = false ∧ isLeading char.toNat = false := by
  have valid : char.toNat < 0xD800 ∨ 0xDFFF < char.toNat ∧ char.toNat < 0x110000 := char.valid
  simp only [isTrailing, isLeading, Bool.and_eq_false_iff, decide_eq_false_iff_not]
  omega

theorem isHalf_iff : (isLeading unit = true ↔ 0xD800 ≤ unit ∧ unit < 0xDC00) ∧
    (isTrailing unit = true ↔ 0xDC00 ≤ unit ∧ unit < 0xE000) := by
  simp only [isLeading, isTrailing, Bool.and_eq_true, decide_eq_true_eq]
  omega

theorem shortEscape?_eq_some_iff {letter char : Char} :
    shortEscape? letter = some char ↔ (letter, char) ∈ shortEscapes := by
  constructor
  · intro found
    unfold shortEscape? at found
    split at found <;> cases found <;> decide
  · intro member
    simp only [shortEscapes, List.mem_cons, Prod.mk.injEq, List.not_mem_nil, or_false] at member
    rcases member with ⟨rfl, rfl⟩ | ⟨rfl, rfl⟩ | ⟨rfl, rfl⟩ | ⟨rfl, rfl⟩ | ⟨rfl, rfl⟩ | ⟨rfl, rfl⟩ |
      ⟨rfl, rfl⟩ | ⟨rfl, rfl⟩ <;> rfl

end Units

section Escapes

theorem readEscape?_short {letter char : Char} (member : (letter, char) ∈ shortEscapes)
    (rest : List Char) : readEscape? (letter :: rest) = some (char, rest) := by
  have found := shortEscape?_eq_some_iff.mpr member
  have other : letter ≠ 'u' := by
    rintro rfl
    cases found
  rw [readEscape?.eq_def]
  split
  · next same =>
    cases same
    exact absurd rfl other
  · next same =>
    cases same
    rw [found]
    rfl
  · next same => cases same

theorem readEscape?_unit {a b c d char : Char} (found : hexUnit? a b c d = some char.toNat)
    (rest : List Char) : readEscape? ('u' :: a :: b :: c :: d :: rest) = some (char, rest) := by
  obtain ⟨trailing, leading⟩ := not_half char
  rw [readEscape?, found]
  simp only [trailing, leading, Bool.false_eq_true, if_false, Char.ofNat_toNat]

theorem readEscape?_pair {a b c d e f g h char : Char} {leading trailing : Nat}
    (first : hexUnit? a b c d = some leading) (second : hexUnit? e f g h = some trailing)
    (leadingLow : 0xD800 ≤ leading) (leadingHigh : leading < 0xDC00)
    (trailingLow : 0xDC00 ≤ trailing) (trailingHigh : trailing < 0xE000)
    (code : char.toNat = 0x10000 + (leading - 0xD800) * 0x400 + (trailing - 0xDC00)) (rest : List Char) :
    readEscape? ('u' :: a :: b :: c :: d :: '\\' :: 'u' :: e :: f :: g :: h :: rest) =
      some (char, rest) := by
  have isLead : isLeading leading = true := isHalf_iff.1.mpr ⟨leadingLow, leadingHigh⟩
  have isTrail : isTrailing trailing = true := isHalf_iff.2.mpr ⟨trailingLow, trailingHigh⟩
  have notTrail : isTrailing leading = false := by
    rw [← Bool.not_eq_true, isHalf_iff.2]
    omega
  have whole : pairChar leading trailing = char := by
    rw [pairChar, ← code, Char.ofNat_toNat]
  rw [readEscape?, first]
  simp only [notTrail, isLead, second, isTrail, whole, Bool.false_eq_true, if_false, if_true]

/-- Whatever is read as an escape is one of the ways to write its character. -/
theorem spellsChar_of_readEscape? {chars rest : List Char} {char : Char}
    (found : readEscape? chars = some (char, rest)) :
    ∃ spelling, SpellsChar char ('\\' :: spelling) ∧ chars = spelling ++ rest := by
  unfold readEscape? at found
  split at found
  · next a b c d rest =>
    split at found
    · cases found
    · next unit digits =>
      have bound := hexUnit?_lt digits
      split at found
      · cases found
      · next notTrail =>
        rw [isHalf_iff.2] at notTrail
        split at found
        · next isLead =>
          rw [isHalf_iff.1] at isLead
          split at found
          · next e f g h rest =>
            split at found
            · next second digitsSecond =>
              split at found
              · next isTrail =>
                rw [isHalf_iff.2] at isTrail
                simp only [Option.some.injEq, Prod.mk.injEq] at found
                obtain ⟨rfl, rfl⟩ := found
                have code : (pairChar unit second).toNat =
                    0x10000 + (unit - 0xD800) * 0x400 + (second - 0xDC00) :=
                  toNat_ofNat (Or.inr (by omega))
                exact ⟨['u', a, b, c, d, '\\', 'u', e, f, g, h],
                  .pair digits digitsSecond isLead.1 isLead.2 isTrail.1 isTrail.2 code, rfl⟩
              · cases found
            · cases found
          · cases found
        · next notLead =>
          rw [isHalf_iff.1] at notLead
          cases found
          have code : (Char.ofNat unit).toNat = unit := by
            apply toNat_ofNat
            by_cases low : unit < 0xD800
            · exact Or.inl low
            · exact Or.inr (by omega)
          exact ⟨['u', a, b, c, d], .unit (by rw [code, digits]), rfl⟩
  · next letter rest _ =>
    obtain ⟨_, short, same⟩ := Option.map_eq_some_iff.mp found
    cases same
    exact ⟨[letter], .short (shortEscape?_eq_some_iff.mp short), rfl⟩
  · cases found

end Escapes

section Strings

theorem readString?_plain (done : List Char) {char : Char} (low : ' ' ≤ char) (noQuote : char ≠ '"')
    (noSlash : char ≠ '\\') (rest : List Char) :
    readString? done (char :: rest) = readString? (char :: done) rest := by
  rw [readString?.eq_def]
  split
  · next same => cases same
  · next same => cases same; exact absurd rfl noQuote
  · next same => cases same; exact absurd rfl noSlash
  · next same =>
    cases same
    exact if_neg (Char.not_lt.mpr low)

theorem readString?_escape (done : List Char) {char : Char} {chars rest : List Char}
    (found : readEscape? chars = some (char, rest)) :
    readString? done ('\\' :: chars) = readString? (char :: done) rest := by
  rw [readString?.eq_def]
  split
  · next same => cases same
  · next same => cases same
  · next same =>
    cases same
    split
    · next failed => rw [found] at failed; cases failed
    · next other =>
      rw [found] at other
      cases other
      rfl
  · next noSlash same =>
    cases same
    exact (noSlash rfl).elim

/-- A character is read back however it is written. -/
theorem readString?_spellsChar (done : List Char) {char : Char} {spelling : List Char}
    (spells : SpellsChar char spelling) (rest : List Char) :
    readString? done (spelling ++ rest) = readString? (char :: done) rest := by
  cases spells with
  | plain low noQuote noSlash => exact readString?_plain done low noQuote noSlash rest
  | short member => exact readString?_escape done (readEscape?_short member rest)
  | unit digits => exact readString?_escape done (readEscape?_unit digits rest)
  | pair first second leadingLow leadingHigh trailingLow trailingHigh code =>
    exact readString?_escape done
      (readEscape?_pair first second leadingLow leadingHigh trailingLow trailingHigh code rest)

theorem readString?_spellsText (done : List Char) {text written : List Char}
    (spells : SpellsText text written) (rest : List Char) :
    readString? done (written ++ '"' :: rest) = some (done.reverse ++ text, rest) := by
  induction spells generalizing done with
  | nil =>
    rw [List.nil_append, readString?, List.append_nil]
  | cons first _ ih =>
    rw [List.append_assoc, readString?_spellsChar done first, ih, List.reverse_cons, List.append_assoc]
    rfl

/-- What is read as a string is written in one of these ways, up to the first bare quote. -/
theorem spellsText_of_readString? {done chars result rest : List Char}
    (found : readString? done chars = some (result, rest)) :
    ∃ text written, result = done.reverse ++ text ∧ SpellsText text written ∧
      chars = written ++ '"' :: rest := by
  fun_induction readString? done chars with
  | case1 => cases found
  | case2 done rest =>
    cases found
    exact ⟨[], [], (List.append_nil _).symm, .nil, rfl⟩
  | case3 => cases found
  | case4 done chars char later escaped ih =>
    obtain ⟨text, written, rfl, spells, rfl⟩ := ih found
    obtain ⟨spelling, first, rfl⟩ := spellsChar_of_readEscape? escaped
    refine ⟨char :: text, '\\' :: spelling ++ written, ?_, .cons first spells, ?_⟩
    · rw [List.reverse_cons, List.append_assoc]
      rfl
    · simp only [List.cons_append, List.append_assoc]
  | case5 => cases found
  | case6 done char later noQuote noSlash low ih =>
    obtain ⟨text, written, rfl, spells, rfl⟩ := ih found
    have first : SpellsChar char [char] := by
      refine .plain (Char.not_lt.mp low) ?_ ?_
      · rintro rfl
        exact noQuote rfl
      · rintro rfl
        exact noSlash rfl
    refine ⟨char :: text, [char] ++ written, ?_, .cons first spells, rfl⟩
    rw [List.reverse_cons, List.append_assoc]
    rfl

end Strings

end Lexeme

end CilListing
