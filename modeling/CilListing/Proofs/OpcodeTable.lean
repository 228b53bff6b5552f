import CilListing.Opcode.Table
import Mathlib.Data.List.Nodup
import Mathlib.Tactic.Ring

namespace CilListing

namespace Opcode

section Codes

/-- The codes that can stand in code bytes: one byte other than the escape, or a byte
behind the escape. -/
def IsCode (code : UInt16) : Prop :=
  (∃ byte : UInt8, byte ≠ escape ∧ code = byte.toUInt16) ∨ ∃ byte, code = escapedCode byte

theorem escapedCode_toNat (byte : UInt8) : (escapedCode byte).toNat = 0xFE00 + byte.toNat := by
  have joined := Nat.two_pow_add_eq_or_of_lt (i := 8) byte.toNat_lt 0xFE
  rw [escapedCode, UInt16.toNat_or, UInt8.toNat_toUInt16]
  exact joined.symm

theorem escapedCode_gt (byte : UInt8) : escapedCode byte > 0xFF := by
  have value := escapedCode_toNat byte
  rw [gt_iff_lt, UInt16.lt_iff_toNat_lt, value]
  exact Nat.lt_of_lt_of_le (by decide) (Nat.le_add_right ..)

theorem not_toUInt16_gt (byte : UInt8) : ¬ byte.toUInt16 > 0xFF := by
  have bound := byte.toNat_lt
  rw [gt_iff_lt, UInt16.lt_iff_toNat_lt, UInt8.toNat_toUInt16]
  exact Nat.not_lt.mpr (Nat.le_of_lt_succ bound)

theorem escapedCode_toUInt8 (byte : UInt8) : (escapedCode byte).toUInt8 = byte := by
  have bound := byte.toNat_lt
  apply UInt8.toNat_inj.mp
  rw [UInt16.toNat_toUInt8, escapedCode_toNat]
  omega

end Codes

section Lookup

theorem lookup_of_mem {table : List (UInt8 × Opcode)} {byte : UInt8} {opcode : Opcode}
    (ascending : (table.map fun entry => entry.1.toNat).Pairwise (· < ·))
    (member : (byte, opcode) ∈ table) : table.lookup byte = some opcode := by
  induction table with
  | nil => cases member
  | cons entry rest ih =>
    rw [List.map_cons, List.pairwise_cons] at ascending
    rcases List.mem_cons.mp member with same | later
    · subst entry
      exact List.lookup_cons_self
    · have above := ascending.1 byte.toNat (List.mem_map.mpr ⟨_, later, rfl⟩)
      have different : (byte == entry.1) = false := by
        rw [beq_eq_false_iff_ne]
        rintro rfl
        exact Nat.lt_irrefl _ above
      rw [List.lookup_cons, different]
      exact ih ascending.2 later

theorem mem_of_lookup {table : List (UInt8 × Opcode)} {byte : UInt8} {opcode : Opcode}
    (found : table.lookup byte = some opcode) : (byte, opcode) ∈ table := by
  obtain ⟨before, after, split, _⟩ := List.lookup_eq_some_iff.mp found
  rw [split]
  exact List.mem_append_right before (List.mem_cons_self ..)

theorem singles_ascending : (singles.map fun entry => entry.1.toNat).Pairwise (· < ·) :=
  List.isChain_iff_pairwise.mp (by decide +kernel)

theorem escaped_ascending : (escaped.map fun entry => entry.1.toNat).Pairwise (· < ·) :=
  List.isChain_iff_pairwise.mp (by decide +kernel)

theorem escape_not_single : ∀ entry ∈ singles, entry.1 ≠ escape := by decide +kernel

/-- An entry of the table of all opcodes stands in one of the two tables. -/
theorem mem_defined_iff {code : UInt16} {opcode : Opcode} :
    (code, opcode) ∈ defined ↔
      (∃ byte, (byte, opcode) ∈ singles ∧ code = byte.toUInt16) ∨
        ∃ byte, (byte, opcode) ∈ escaped ∧ code = escapedCode byte := by
  simp only [defined, List.mem_append, List.mem_map, Prod.mk.injEq, Prod.exists]
  constructor
  · rintro (⟨byte, _, member, rfl, rfl⟩ | ⟨byte, _, member, rfl, rfl⟩)
    · exact Or.inl ⟨byte, member, rfl⟩
    · exact Or.inr ⟨byte, member, rfl⟩
  · rintro (⟨byte, member, rfl⟩ | ⟨byte, member, rfl⟩)
    · exact Or.inl ⟨byte, opcode, member, rfl, rfl⟩
    · exact Or.inr ⟨byte, opcode, member, rfl, rfl⟩

theorem isCode_of_mem_defined {code : UInt16} {opcode : Opcode} (listed : (code, opcode) ∈ defined) :
    IsCode code := by
  rcases mem_defined_iff.mp listed with ⟨byte, member, rfl⟩ | ⟨byte, _, rfl⟩
  · exact Or.inl ⟨byte, escape_not_single _ member, rfl⟩
  · exact Or.inr ⟨byte, rfl⟩

theorem ofCode_toUInt16 (byte : UInt8) : ofCode byte.toUInt16 = ofByte byte := by
  rw [ofCode, if_neg (not_toUInt16_gt byte), UInt8.toUInt8_toUInt16]

theorem ofCode_escapedCode (byte : UInt8) : ofCode (escapedCode byte) = ofEscaped byte := by
  rw [ofCode, if_pos (escapedCode_gt byte), escapedCode_toUInt8]

/-- A listed code stands for the opcode that it is listed with. -/
theorem ofCode_of_mem_defined {code : UInt16} {opcode : Opcode} (listed : (code, opcode) ∈ defined) :
    ofCode code = opcode := by
  rcases mem_defined_iff.mp listed with ⟨byte, member, rfl⟩ | ⟨byte, member, rfl⟩
  · rw [ofCode_toUInt16, ofByte, lookup_of_mem singles_ascending member, Option.getD_some]
  · rw [ofCode_escapedCode, ofEscaped, lookup_of_mem escaped_ascending member, Option.getD_some]

/-- A code that stands for some opcode is listed with it. -/
theorem mem_defined_of_isDefined {code : UInt16} (isCode : IsCode code)
    (known : (ofCode code).isDefined = true) : (code, ofCode code) ∈ defined := by
  have found (table : List (UInt8 × Opcode)) (byte : UInt8)
      (known : ((table.lookup byte).getD unknown).isDefined = true) :
      (byte, (table.lookup byte).getD unknown) ∈ table := by
    cases lookup : table.lookup byte with
    | none => rw [lookup, Option.getD_none, isDefined, bne_self_eq_false] at known; cases known
    | some opcode => exact mem_of_lookup lookup
  rcases isCode with ⟨byte, _, rfl⟩ | ⟨byte, rfl⟩
  · rw [ofCode_toUInt16] at known ⊢
    exact mem_defined_iff.mpr (Or.inl ⟨byte, found singles byte known, rfl⟩)
  · rw [ofCode_escapedCode] at known ⊢
    exact mem_defined_iff.mpr (Or.inr ⟨byte, found escaped byte known, rfl⟩)

end Lookup

section Mnemonics

/-- A number for a text, made from its bytes. Numbers tell many texts apart faster than the
texts themselves. -/
def fingerprint (text : String) : Nat :=
  text.toByteArray.data.toList.foldl (fun number byte => number * 256 + byte.toNat) 0

def allDistinct : List Nat → Bool
  | [] => true
  | first :: rest => rest.all (fun other => !(first.beq other)) && allDistinct rest

theorem nodup_of_allDistinct {numbers : List Nat} (distinct : allDistinct numbers = true) :
    numbers.Nodup := by
  induction numbers with
  | nil => exact List.nodup_nil
  | cons first rest ih =>
    rw [allDistinct, Bool.and_eq_true] at distinct
    refine List.nodup_cons.mpr ⟨?_, ih distinct.2⟩
    intro member
    have apart := List.all_eq_true.mp distinct.1 first member
    rw [Nat.beq_refl] at apart
    cases apart

/-- All mnemonics and, in front of them, the word for an unknown opcode. -/
theorem mnemonics_distinct :
    ((unknown :: defined.map Prod.snd).map fun opcode => fingerprint opcode.mnemonic).Nodup :=
  nodup_of_allDistinct (by decide +kernel)

theorem mnemonic_ne_unknown {code : UInt16} {opcode : Opcode} (listed : (code, opcode) ∈ defined) :
    opcode.mnemonic ≠ unknown.mnemonic := by
  intro same
  have distinct := mnemonics_distinct
  rw [List.map_cons, List.nodup_cons] at distinct
  apply distinct.1
  rw [← same]
  exact List.mem_map.mpr ⟨opcode, List.mem_map.mpr ⟨_, listed, rfl⟩, rfl⟩

theorem isDefined_of_mem_defined {code : UInt16} {opcode : Opcode}
    (listed : (code, opcode) ∈ defined) : opcode.isDefined = true := by
  rw [isDefined, bne_iff_ne]
  exact fun same => mnemonic_ne_unknown listed (congrArg mnemonic same)

/-- No mnemonic is used twice, neither in one table nor across both. -/
theorem entry_eq_of_mnemonic_eq {first second : UInt16 × Opcode} (left : first ∈ defined)
    (right : second ∈ defined) (same : first.2.mnemonic = second.2.mnemonic) : first = second := by
  have distinct := mnemonics_distinct
  rw [List.map_cons, List.nodup_cons, List.map_map] at distinct
  exact List.inj_on_of_nodup_map distinct.2 left right (congrArg fingerprint same)

theorem mem_bytes_of_mem {text : String} {char : Char} {byte : UInt8}
    (encoded : String.utf8EncodeChar char = [byte]) (member : char ∈ text.toList) :
    byte ∈ text.toByteArray.data.toList := by
  rw [← String.utf8Encode_toList, List.utf8Encode, List.data_toByteArray]
  exact List.mem_flatMap.mpr ⟨char, member, encoded ▸ List.mem_singleton_self byte⟩

theorem mnemonics_solid : ((unknown :: defined.map Prod.snd).all fun opcode =>
    opcode.mnemonic.toByteArray.data.toList.all fun byte => byte != 0x20 && byte != 0x0A) = true := by
  decide +kernel

/-- A mnemonic is one word on one line. -/
theorem mnemonic_solid {opcode : Opcode} (shown : opcode ∈ unknown :: defined.map Prod.snd) :
    ' ' ∉ opcode.mnemonic.toList ∧ '\n' ∉ opcode.mnemonic.toList := by
  have solid := List.all_eq_true.mp (List.all_eq_true.mp mnemonics_solid opcode shown)
  constructor
  · intro blank
    have byte := solid 0x20 (mem_bytes_of_mem rfl blank)
    cases byte
  · intro feed
    have byte := solid 0x0A (mem_bytes_of_mem rfl feed)
    cases byte

end Mnemonics

end Opcode

end CilListing
