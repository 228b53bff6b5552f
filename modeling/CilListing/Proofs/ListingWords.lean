import CilListing.Instruction
import CilListing.Proofs.FloatText
import CilListing.Proofs.QuotedLiterals
import CilListing.Proofs.SeparatedText
import Mathlib

namespace CilListing

attribute [ext] Token

section Words

theorem label_toList (offset : Nat) : (label offset).toList = 'I' :: 'L' :: '_' :: (hexUpper 4 offset).toList :=
  String.toList_append ..

theorem label_injective {first second : Nat} (same : (label first).toList = (label second).toList) :
    first = second := by
  rw [label_toList, label_toList] at same
  simp only [List.cons.injEq, true_and] at same
  exact hexUpper_injective same

theorem notMem_label {char : Char} (noDigit : digitValue? 16 char = none) (other : char ∉ ['I', 'L', '_'])
    (offset : Nat) : char ∉ (label offset).toList := by
  rw [label_toList]
  simp only [List.mem_cons, List.not_mem_nil, or_false, not_or] at other ⊢
  exact ⟨other.1, other.2.1, other.2.2, notMem_hexUpper noDigit 4 offset⟩

theorem codeBytesText_toList (code : UInt16) : (codeBytesText code).toList =
    '0' :: 'x' :: if code > 0xFF then (hexUpper 2 (code.toNat / 256)).toList ++
        ' ' :: '0' :: 'x' :: (hexUpper 2 (code.toNat % 256)).toList
      else (hexUpper 2 code.toNat).toList := by
  rw [codeBytesText]
  split
  · simp only [String.toList_append]
    simp
  · simp only [String.toList_append]
    rfl

/-- An escaped opcode shows a blank between its bytes, which tells it from one of a single byte. -/
theorem codeBytesText_injective {first second : UInt16}
    (same : (codeBytesText first).toList = (codeBytesText second).toList) : first = second := by
  have blankless (width n : Nat) : ' ' ∉ (hexUpper width n).toList := notMem_hexUpper (by decide) width n
  rw [codeBytesText_toList, codeBytesText_toList] at same
  simp only [List.cons.injEq, true_and] at same
  apply UInt16.toNat_inj.mp
  split at same
  · split at same
    · obtain ⟨high, low⟩ := append_stop_inj (blankless _ _) (blankless _ _) same
      simp only [List.cons.injEq, true_and] at low
      have highs := hexUpper_injective high
      have lows := hexUpper_injective low
      omega
    · exact absurd (same ▸ List.mem_append_right _ (List.mem_cons_self ..)) (blankless 2 second.toNat)
  · split at same
    · exact absurd (same ▸ List.mem_append_right _ (List.mem_cons_self ..)) (blankless 2 first.toNat)
    · exact hexUpper_injective same

/-- The token behind a line. -/
def tokenNote (token : Token) : List Char := (" /* " ++ token.text ++ " */").toList

theorem tokenNote_eq (token : Token) : tokenNote token =
    [' ', '/', '*', ' ', '0', 'x'] ++ ((hexUpper 8 token.value.toNat).toList ++ [' ', '*', '/']) := by
  rw [tokenNote, Token.text]
  simp only [String.toList_append]
  simp

/-- Whatever stands in front of it, a token is read from the end of its line. -/
theorem append_tokenNote_inj {first second : Token} {front other : List Char}
    (same : front ++ tokenNote first = other ++ tokenNote second) : first = second := by
  have note (front : List Char) (token : Token) : front ++ tokenNote token =
      (front ++ [' ', '/', '*', ' ', '0']) ++
        'x' :: ((hexUpper 8 token.value.toNat).toList ++ [' ', '*', '/']) := by
    rw [tokenNote_eq]
    simp
  have free (token : Token) : 'x' ∉ (hexUpper 8 token.value.toNat).toList ++ [' ', '*', '/'] := by
    rw [List.mem_append, not_or]
    exact ⟨notMem_hexUpper (by decide) 8 _, by decide⟩
  rw [note, note] at same
  have digits := hexUpper_injective (List.append_cancel_right (stop_append_inj (free first) (free second) same))
  exact Token.ext (UInt32.toNat_inj.mp digits)

theorem int_text_injective {first second : Int}
    (same : (toString first).toList = (toString second).toList) : first = second :=
  Int.repr_injective (String.toList_inj.mp same)

end Words

section OneLine

/-- No line feed stands in the text. -/
def OneLine (text : String) : Prop := '\n' ∉ text.toList

instance (text : String) : Decidable (OneLine text) := inferInstanceAs (Decidable ('\n' ∉ text.toList))

theorem oneLine_append {first second : String} :
    OneLine (first ++ second) ↔ OneLine first ∧ OneLine second := by
  rw [OneLine, String.toList_append, List.mem_append, not_or]
  rfl

theorem oneLine_nat (n : Nat) : OneLine (toString n) := by
  rw [OneLine, Nat.toString_eq_repr, Nat.toList_repr]
  exact Decimal.notMem_toDigits (by decide) n

theorem oneLine_int (number : Int) : OneLine (toString number) := by
  cases number with
  | ofNat n => exact oneLine_nat n
  | negSucc n => exact oneLine_append.mpr ⟨by decide, oneLine_nat (n + 1)⟩

theorem oneLine_hexUpper (width n : Nat) : OneLine (hexUpper width n) := notMem_hexUpper (by decide) width n

theorem oneLine_label (offset : Nat) : OneLine (label offset) :=
  notMem_label (by decide) (by decide) offset

theorem oneLine_token (token : Token) : OneLine token.text :=
  oneLine_append.mpr ⟨by decide, oneLine_hexUpper 8 _⟩

theorem oneLine_codeBytesText (code : UInt16) : OneLine (codeBytesText code) := by
  rw [codeBytesText]
  split
  · simp only [oneLine_append, oneLine_hexUpper, and_true]
    decide
  · exact oneLine_append.mpr ⟨by decide, oneLine_hexUpper 2 _⟩

theorem oneLine_float (format : BinaryFormat) (bits : Nat) : OneLine (format.text bits) := by
  have magnitude (pattern : Nat) : OneLine (format.magnitudeText pattern) :=
    format.notMem_magnitudeText (by decide) (by decide) pattern
  rw [BinaryFormat.text]
  split
  · decide
  · split
    · exact magnitude _
    · exact oneLine_append.mpr ⟨by decide, magnitude _⟩

/-- A quoted literal stays on its line whatever it holds. -/
theorem oneLine_quote (text : String) : OneLine (quote text) := notMem_quote (by decide) text

theorem oneLine_intercalate {separator : String} {entries : List String} (solid : OneLine separator)
    (each : ∀ entry ∈ entries, OneLine entry) : OneLine (separator.intercalate entries) := by
  induction entries with
  | nil => exact List.not_mem_nil
  | cons entry rest ih =>
    have first := each entry (List.mem_cons_self ..)
    have later := ih fun other member => each other (List.mem_cons_of_mem _ member)
    cases rest with
    | nil => rwa [String.intercalate_singleton]
    | cons next after =>
      rw [String.intercalate_cons_cons, oneLine_append, oneLine_append]
      exact ⟨⟨first, solid⟩, later⟩

end OneLine

end CilListing
