import Mathlib.Data.String.Basic

namespace CilListing

/-- The bytes of a text in UTF-8. -/
def utf8Bytes (text : String) : List UInt8 := text.toUTF8.data.toList

theorem utf8Bytes_eq (text : String) : utf8Bytes text = text.toList.flatMap String.utf8EncodeChar := by
  have encoded : text.toUTF8 = text.toList.utf8Encode := String.utf8Encode_toList.symm
  rw [utf8Bytes, encoded, List.utf8Encode, List.toList_data_toByteArray]

section Characters

variable {first second : Char} {restFirst restSecond : List UInt8}

theorem cons_lt_of_le {byte other : Nat} (bound : other < 256) (atMost : byte ≤ other)
    (later : byte = other → restFirst < restSecond) :
    UInt8.ofNat byte :: restFirst < UInt8.ofNat other :: restSecond := by
  rw [List.cons_lt_cons_iff]
  rcases Nat.lt_or_eq_of_le atMost with less | rfl
  · left
    rw [UInt8.lt_iff_toNat_lt, UInt8.toNat_ofNat_of_lt' (Nat.lt_trans less bound), UInt8.toNat_ofNat_of_lt' bound]
    exact less
  · exact Or.inr ⟨rfl, later rfl⟩

/-- The bytes of a smaller character are smaller, whatever stands behind the characters. Its first
byte is smaller where it takes fewer bytes. -/
theorem utf8EncodeChar_append_lt (less : first < second) :
    String.utf8EncodeChar first ++ restFirst < String.utf8EncodeChar second ++ restSecond := by
  have codes : first.val.toNat < second.val.toNat := less
  have valid : second.val.toNat < 0xD800 ∨ 0xDFFF < second.val.toNat ∧ second.val.toNat < 0x110000 :=
    second.valid
  simp only [String.utf8EncodeChar]
  generalize first.val.toNat = low at codes
  generalize second.val.toNat = high at codes valid
  split
  · split
    · exact cons_lt_of_le (by omega) (by omega) (by omega)
    · split
      · exact cons_lt_of_le (by omega) (by omega) (by omega)
      · split <;> exact cons_lt_of_le (by omega) (by omega) (by omega)
  · rw [if_neg (by omega : ¬high ≤ 127)]
    split
    · split
      · refine cons_lt_of_le (by omega) (by omega) fun lead => ?_
        exact cons_lt_of_le (by omega) (by omega) (by omega)
      · split <;> exact cons_lt_of_le (by omega) (by omega) (by omega)
    · rw [if_neg (by omega : ¬high ≤ 2047)]
      split
      · split
        · refine cons_lt_of_le (by omega) (by omega) fun lead => ?_
          refine cons_lt_of_le (by omega) (by omega) fun middle => ?_
          exact cons_lt_of_le (by omega) (by omega) (by omega)
        · exact cons_lt_of_le (by omega) (by omega) (by omega)
      · rw [if_neg (by omega : ¬high ≤ 65535)]
        refine cons_lt_of_le (by omega) (by omega) fun lead => ?_
        refine cons_lt_of_le (by omega) (by omega) fun upper => ?_
        refine cons_lt_of_le (by omega) (by omega) fun lower => ?_
        exact cons_lt_of_le (by omega) (by omega) (by omega)

end Characters

theorem flatMap_utf8EncodeChar_lt {first second : List Char} (less : first < second) :
    first.flatMap String.utf8EncodeChar < second.flatMap String.utf8EncodeChar := by
  induction less with
  | @nil char rest =>
    obtain ⟨byte, later, encoded⟩ := List.exists_cons_of_ne_nil (String.utf8EncodeChar_ne_nil (c := char))
    rw [List.flatMap_nil, List.flatMap_cons, encoded]
    exact List.nil_lt_cons _ _
  | @cons char _ _ _ ih =>
    rw [List.flatMap_cons, List.flatMap_cons]
    exact List.lex_lt.mp (List.Lex.append_left _ (List.lex_lt.mpr ih) _)
  | rel less =>
    rw [List.flatMap_cons, List.flatMap_cons]
    exact utf8EncodeChar_append_lt less

theorem utf8Bytes_lt {first second : String} (less : first < second) : utf8Bytes first < utf8Bytes second := by
  rw [utf8Bytes_eq, utf8Bytes_eq]
  exact flatMap_utf8EncodeChar_lt (String.lt_iff_toList_lt.mp less)

/-- Texts are in the order of their bytes. -/
theorem utf8Bytes_le_iff {first second : String} : utf8Bytes first ≤ utf8Bytes second ↔ first ≤ second := by
  constructor
  · intro atMost
    rw [← String.not_lt]
    intro greater
    exact atMost (utf8Bytes_lt greater)
  · intro atMost greater
    rcases Decidable.em (first = second) with rfl | different
    · exact List.lt_irrefl _ greater
    · exact List.lt_asymm greater (utf8Bytes_lt (Std.lt_of_le_of_ne atMost different))

end CilListing
