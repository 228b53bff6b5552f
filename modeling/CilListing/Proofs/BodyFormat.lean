import CilListing.Method.Body
import CilListing.Proofs.WordBytes
import Mathlib.Data.List.Basic
import Mathlib.Data.Nat.Bitwise

namespace CilListing

/-- A tiny body: at most 63 bytes of code, and nothing to say about them but their number. -/
structure TinyBody where
  code : List UInt8
  short : code.length ≤ 63

namespace TinyBody

/-- The size of the code stands above the two bits of the format. -/
def header (source : TinyBody) : List UInt8 := [UInt8.ofNat (source.code.length <<< 2 ||| 2)]

def announced (source : TinyBody) : MethodBody where
  codeSize := source.code.length
  headerSize := 1
  localsToken := ⟨0⟩
  maxStack := 8
  isFat := false
  initLocals := false
  hasSections := false

end TinyBody

/-- A fat body: the twelve bits of its flags, the size of its header in words of four bytes, and
what the header holds. The words of the header beyond the third may hold anything. -/
structure FatBody where
  flags : Nat
  words : Nat
  maxStack : UInt16
  localsToken : Token
  extra : List UInt8
  code : List UInt8
  twelve : flags < 2 ^ 12
  format : flags % 4 = 3
  atLeast : 3 ≤ words
  atMost : words ≤ 15
  length_extra : extra.length = 4 * words - 12
  short : code.length < 2 ^ 32

namespace FatBody

/-- Flags and header size share the first two bytes. -/
def header (source : FatBody) : List UInt8 :=
  toLittleEndian 2 (source.flags + 2 ^ 12 * source.words) ++
    (toLittleEndian 2 source.maxStack.toNat ++
      (toLittleEndian 4 source.code.length ++
        (toLittleEndian 4 source.localsToken.value.toNat ++ source.extra)))

def announced (source : FatBody) : MethodBody where
  codeSize := source.code.length
  headerSize := 4 * source.words
  localsToken := source.localsToken
  maxStack := source.maxStack.toUInt32
  isFat := true
  initLocals := source.flags.testBit 4
  hasSections := source.flags.testBit 3

end FatBody

/-- A method body in one of the two formats. -/
inductive WrittenBody
  | tiny (source : TinyBody)
  | fat (source : FatBody)

namespace WrittenBody

def header : WrittenBody → List UInt8
  | tiny source => source.header
  | fat source => source.header

def code : WrittenBody → List UInt8
  | tiny source => source.code
  | fat source => source.code

def bytes (source : WrittenBody) : List UInt8 := source.header ++ source.code

/-- What the header says about the body. -/
def announced : WrittenBody → MethodBody
  | tiny source => source.announced
  | fat source => source.announced

end WrittenBody

/-- A flag of a single known bit is set exactly if the bit is set in the word. -/
theorem BodyFlags.contains_ofWord {flag : BodyFlags} {bit : Nat} (single : flag.bits.toNat = 2 ^ bit)
    (listed : known.toNat.testBit bit = true) (word : UInt16) :
    (ofWord word).contains flag = word.toNat.testBit bit := by
  have masked : ((word &&& known) &&& flag.bits).toNat = (word.toNat.testBit bit).toNat * 2 ^ bit := by
    rw [UInt16.toNat_and, UInt16.toNat_and, single, Nat.and_two_pow, Nat.testBit_and, listed, Bool.and_true]
  have positive : 0 < 2 ^ bit := Nat.two_pow_pos bit
  rw [contains, ofWord, Bool.eq_iff_iff, beq_iff_eq, ← UInt16.toNat_inj, masked, single]
  cases word.toNat.testBit bit with
  | true => simp
  | false => simpa using positive.ne

theorem BodyFlags.contains_initLocals (word : UInt16) :
    (ofWord word).contains initLocals = word.toNat.testBit 4 := contains_ofWord rfl rfl word

theorem BodyFlags.contains_moreSections (word : UInt16) :
    (ofWord word).contains moreSections = word.toNat.testBit 3 := contains_ofWord rfl rfl word

namespace MethodBody

section Field

theorem field_append {width number : Nat} (fits : number < 256 ^ width) (rest : List UInt8) :
    field (toLittleEndian width number ++ rest) 0 width = number := by
  rw [field, List.drop_zero, List.take_left' (length_toLittleEndian ..),
    littleEndian_toLittleEndian_of_lt fits]

theorem field_skip {front : List UInt8} {length : Nat} (isLength : front.length = length)
    (rest : List UInt8) (position width : Nat) :
    field (front ++ rest) (length + position) width = field rest position width := by
  rw [field, ← List.drop_drop, List.drop_left' isLength, field]

variable {data : List UInt8} {position width : Nat}

theorem length_field (within : position + width ≤ data.length) :
    ((data.drop position).take width).length = width := by
  rw [List.length_take, List.length_drop]
  omega

theorem field_lt (within : position + width ≤ data.length) : field data position width < 256 ^ width := by
  have bound := littleEndian_lt ((data.drop position).take width)
  rwa [length_field within] at bound

/-- A field written out, with what follows it, gives the bytes back. -/
theorem field_append_drop (within : position + width ≤ data.length) :
    toLittleEndian width (field data position width) ++ data.drop (position + width) =
      data.drop position := by
  have written := toLittleEndian_littleEndian ((data.drop position).take width)
  rw [length_field within] at written
  rw [field, written, ← List.drop_drop, List.take_append_drop]

end Field

/-- The two low bits of the first byte decide on the format. -/
theorem parse_cons (first : UInt8) (rest : List UInt8) :
    parse (first :: rest) =
      if first.toNat % 4 = 2 then parseTiny first (first :: rest)
      else if first.toNat % 4 = 3 then parseFat (first :: rest)
      else .error (.unknownFormat first) := by
  have low : (first &&& 0x3).toUInt16.toNat = first.toNat % 4 := by
    rw [UInt8.toNat_toUInt16, UInt8.toNat_and]
    exact Nat.and_two_pow_sub_one_eq_mod first.toNat 2
  have isFormat (bits : UInt16) :
      (⟨(first &&& 0x3).toUInt16⟩ : BodyFlags) = ⟨bits⟩ ↔ first.toNat % 4 = bits.toNat := by
    rw [BodyFlags.mk.injEq, ← UInt16.toNat_inj, low]
  have tiny := isFormat 0x2
  have fat := isFormat 0x3
  rw [parse]
  simp only [BodyFlags.tiny, BodyFlags.fat, tiny, fat]
  rfl

section Tiny

theorem toNat_tinyHeader {size : Nat} (short : size ≤ 63) :
    (UInt8.ofNat (size <<< 2 ||| 2)).toNat = 4 * size + 2 := by
  have joined := Nat.shiftLeft_add_eq_or_of_lt (show 2 < 2 ^ 2 by decide) size
  rw [← joined, Nat.shiftLeft_eq, UInt8.toNat_ofNat']
  omega

theorem parse_tiny (source : TinyBody) (trailing : List UInt8) :
    parse (source.header ++ source.code ++ trailing) = .ok source.announced := by
  have header := toNat_tinyHeader source.short
  have size : (4 * source.code.length + 2) / 4 = source.code.length := by omega
  have enough : ¬ (source.header ++ source.code ++ trailing).length < source.code.length + 1 := by
    simp only [TinyBody.header, List.length_append, List.length_singleton]
    omega
  rw [TinyBody.header, List.append_assoc, List.singleton_append] at enough ⊢
  rw [parse_cons, header, if_pos (by omega), parseTiny, header]
  simp only [size, if_neg enough]
  rfl

/-- The tiny body at the front of bytes that are long enough. -/
def tinyOf (first : UInt8) (rest : List UInt8) : TinyBody where
  code := rest.take (first.toNat / 4)
  short := by
    have bound := first.toNat_lt
    rw [List.length_take]
    omega

theorem bytes_tinyOf {first : UInt8} {rest : List UInt8} (format : first.toNat % 4 = 2)
    (enough : first.toNat / 4 ≤ rest.length) :
    (tinyOf first rest).header ++ (tinyOf first rest).code ++ rest.drop (first.toNat / 4) =
      first :: rest := by
  have bound := first.toNat_lt
  have size : (tinyOf first rest).code.length = first.toNat / 4 := List.length_take_of_le enough
  have same : UInt8.ofNat ((first.toNat / 4) <<< 2 ||| 2) = first := by
    rw [← UInt8.toNat_inj, toNat_tinyHeader (by omega)]
    omega
  rw [TinyBody.header, size, same, tinyOf, List.append_assoc, List.take_append_drop, List.singleton_append]

theorem enough_of_parseTiny {first : UInt8} {rest : List UInt8} {body : MethodBody}
    (read : parseTiny first (first :: rest) = .ok body) : first.toNat / 4 ≤ rest.length := by
  simp only [parseTiny, List.length_cons] at read
  split at read
  · cases read
  · omega

end Tiny

section Fat

/-- The fields of a written fat header. -/
theorem fields_fat (source : FatBody) (rest : List UInt8) :
    field (source.header ++ rest) 0 2 = source.flags + 2 ^ 12 * source.words ∧
      field (source.header ++ rest) 2 2 = source.maxStack.toNat ∧
      field (source.header ++ rest) 4 4 = source.code.length ∧
      field (source.header ++ rest) 8 4 = source.localsToken.value.toNat := by
  have word : source.flags + 2 ^ 12 * source.words < 256 ^ 2 := by
    have flags := source.twelve
    have words := source.atMost
    omega
  have stack : source.maxStack.toNat < 256 ^ 2 := source.maxStack.toNat_lt
  have size : source.code.length < 256 ^ 4 := source.short
  have token : source.localsToken.value.toNat < 256 ^ 4 := source.localsToken.value.toNat_lt
  simp only [FatBody.header, List.append_assoc]
  refine ⟨field_append word _, ?_, ?_, ?_⟩
  · rw [field_skip (length_toLittleEndian ..) _ 0, field_append stack]
  · rw [field_skip (length_toLittleEndian 2 _) _ 2, field_skip (length_toLittleEndian ..) _ 0,
      field_append size]
  · rw [field_skip (length_toLittleEndian 2 _) _ 6, field_skip (length_toLittleEndian 2 _) _ 4,
      field_skip (length_toLittleEndian ..) _ 0, field_append token]

theorem length_fatHeader (source : FatBody) : source.header.length = 4 * source.words := by
  have extra := source.length_extra
  have words := source.atLeast
  simp only [FatBody.header, List.length_append, length_toLittleEndian]
  omega

theorem parse_fat (source : FatBody) (trailing : List UInt8) :
    parse (source.header ++ source.code ++ trailing) = .ok source.announced := by
  have twelve := source.twelve
  have format := source.format
  have atLeast := source.atLeast
  have enough : 4 * source.words + source.code.length ≤
      (source.header ++ source.code ++ trailing).length := by
    rw [List.length_append, List.length_append, length_fatHeader]
    omega
  rw [List.append_assoc] at enough ⊢
  obtain ⟨word, stack, size, token⟩ := fields_fat source (source.code ++ trailing)
  obtain ⟨rest, split⟩ : ∃ rest, source.header ++ (source.code ++ trailing) =
      UInt8.ofNat (source.flags + 2 ^ 12 * source.words) :: rest := ⟨_, rfl⟩
  have isFat : (UInt8.ofNat (source.flags + 2 ^ 12 * source.words)).toNat % 4 = 3 := by
    rw [UInt8.toNat_ofNat']
    omega
  have header : (source.flags + 2 ^ 12 * source.words) / 4096 * 4 = 4 * source.words := by omega
  have flags : (source.flags + 2 ^ 12 * source.words) % 4096 = source.flags := by omega
  have bits : (UInt16.ofNat source.flags).toNat = source.flags := by
    rw [UInt16.toNat_ofNat']
    omega
  have deep : UInt32.ofNat source.maxStack.toNat = source.maxStack.toUInt32 := by
    rw [← UInt32.toNat_inj, UInt16.toNat_toUInt32, UInt32.toNat_ofNat']
    exact Nat.mod_eq_of_lt (source.maxStack.toNat_lt.trans (by decide))
  rw [split, parse_cons, if_neg (by omega), if_pos isFat, ← split]
  simp only [parseFat, fatHeaderSize, word, stack, size, token, header, flags, deep, UInt32.ofNat_toNat]
  rw [if_neg (by omega), if_neg (by omega), if_neg (by omega), BodyFlags.contains_initLocals,
    BodyFlags.contains_moreSections, bits]
  rfl

/-- What bytes have to offer to a fat body at their front. -/
structure HoldsFat (data : List UInt8) : Prop where
  format : field data 0 2 % 4 = 3
  header : 12 ≤ data.length
  least : 12 ≤ field data 0 2 / 4096 * 4
  enough : field data 0 2 / 4096 * 4 + field data 4 4 ≤ data.length

variable {data : List UInt8}

theorem holdsFat_of_parseFat {body : MethodBody} (format : field data 0 2 % 4 = 3)
    (read : parseFat data = .ok body) : HoldsFat data := by
  simp only [parseFat] at read
  split at read
  · cases read
  · next header =>
    split at read
    · cases read
    · next least =>
      split at read
      · cases read
      · next enough => exact ⟨format, Nat.not_lt.mp header, Nat.not_lt.mp least, Nat.not_lt.mp enough⟩

/-- The fat body at the front of bytes that hold one. -/
def fatOf (holds : HoldsFat data) : FatBody where
  flags := field data 0 2 % 4096
  words := field data 0 2 / 4096
  maxStack := UInt16.ofNat (field data 2 2)
  localsToken := ⟨UInt32.ofNat (field data 8 4)⟩
  extra := (data.drop 12).take (field data 0 2 / 4096 * 4 - 12)
  code := (data.drop (field data 0 2 / 4096 * 4)).take (field data 4 4)
  twelve := Nat.mod_lt _ (by decide)
  format := by
    have format := holds.format
    omega
  atLeast := by
    have least := holds.least
    omega
  atMost := by
    have header := holds.header
    have bound := field_lt (show 0 + 2 ≤ data.length by omega)
    omega
  length_extra := by
    have least := holds.least
    have enough := holds.enough
    rw [length_field (by omega)]
    omega
  short := by
    have header := holds.header
    rw [length_field holds.enough]
    exact field_lt (show 4 + 4 ≤ data.length by omega)

theorem bytes_fatOf (holds : HoldsFat data) :
    (fatOf holds).header ++ (fatOf holds).code ++
      data.drop (field data 0 2 / 4096 * 4 + field data 4 4) = data := by
  have header := holds.header
  have word : (fatOf holds).flags + 2 ^ 12 * (fatOf holds).words = field data 0 2 := Nat.mod_add_div ..
  have stack : (fatOf holds).maxStack.toNat = field data 2 2 :=
    UInt16.toNat_ofNat_of_lt' (field_lt (show 2 + 2 ≤ data.length by omega))
  have size : (fatOf holds).code.length = field data 4 4 := length_field holds.enough
  have token : (fatOf holds).localsToken.value.toNat = field data 8 4 :=
    UInt32.toNat_ofNat_of_lt' (field_lt (show 8 + 4 ≤ data.length by omega))
  have behind : (fatOf holds).code ++ data.drop (field data 0 2 / 4096 * 4 + field data 4 4) =
      data.drop (field data 0 2 / 4096 * 4) := by
    rw [← List.drop_drop]
    exact List.take_append_drop ..
  have beyond : (fatOf holds).extra ++ data.drop (field data 0 2 / 4096 * 4) = data.drop 12 := by
    have split := List.take_append_drop (field data 0 2 / 4096 * 4 - 12) (data.drop 12)
    rwa [List.drop_drop, Nat.add_sub_cancel' holds.least] at split
  -- Each part ends where the next one begins, so they are put together from the last to the first.
  rw [FatBody.header, word, stack, size, token]
  simp only [List.append_assoc]
  rw [behind, beyond, field_append_drop (show 8 + 4 ≤ data.length by omega),
    field_append_drop (show 4 + 4 ≤ data.length by omega),
    field_append_drop (show 2 + 2 ≤ data.length by omega),
    field_append_drop (show 0 + 2 ≤ data.length by omega), List.drop_zero]

end Fat

section Written

theorem parse_written (source : WrittenBody) (trailing : List UInt8) :
    parse (source.bytes ++ trailing) = .ok source.announced := by
  cases source with
  | tiny source => exact parse_tiny source trailing
  | fat source => exact parse_fat source trailing

theorem length_header (source : WrittenBody) : source.header.length = source.announced.headerSize := by
  cases source with
  | tiny source => rfl
  | fat source => exact length_fatHeader source

theorem codeSize_announced (source : WrittenBody) : source.announced.codeSize = source.code.length := by
  cases source <;> rfl

theorem size_announced (source : WrittenBody) : source.announced.size = source.bytes.length := by
  rw [size, WrittenBody.bytes, List.length_append, length_header, codeSize_announced, Nat.add_comm]

theorem code_written (source : WrittenBody) (trailing : List UInt8) :
    source.announced.code (source.bytes ++ trailing) = source.code := by
  have enough : ¬ (source.bytes ++ trailing).length < source.announced.size := by
    rw [List.length_append, size_announced]
    omega
  rw [code, if_neg enough, WrittenBody.bytes, List.append_assoc, List.drop_left' (length_header source),
    codeSize_announced, List.take_left]

/-- Bytes that are read as a body begin with one that is written in one of the formats. -/
theorem exists_written_of_parse {data : List UInt8} {body : MethodBody} (read : parse data = .ok body) :
    ∃ (source : WrittenBody) (trailing : List UInt8),
      data = source.bytes ++ trailing ∧ body = source.announced := by
  have written : ∃ (source : WrittenBody) (trailing : List UInt8), source.bytes ++ trailing = data := by
    cases data with
    | nil => cases read
    | cons first rest =>
      rw [parse_cons] at read
      split at read
      · next format => exact ⟨.tiny _, _, bytes_tinyOf format (enough_of_parseTiny read)⟩
      · split at read
        · next format =>
          have low : field (first :: rest) 0 2 = first.toNat + 256 * littleEndian (rest.take 1) := rfl
          exact ⟨.fat _, _, bytes_fatOf (holdsFat_of_parseFat (by omega) read)⟩
        · cases read
  obtain ⟨source, trailing, rfl⟩ := written
  rw [parse_written] at read
  exact ⟨source, trailing, rfl, (Except.ok.inj read).symm⟩

end Written

/-- Reading accepts exactly the bodies that are written in one of the two formats, whatever stands
behind them, and it gives back what was written. -/
theorem parse_exactly_written :
    (∀ (source : WrittenBody) (trailing : List UInt8),
      parse (source.bytes ++ trailing) = .ok source.announced ∧
        source.announced.code (source.bytes ++ trailing) = source.code) ∧
    ∀ (data : List UInt8) (body : MethodBody), parse data = .ok body →
      body.size ≤ data.length ∧ ∃ (source : WrittenBody) (trailing : List UInt8),
        data = source.bytes ++ trailing ∧ body = source.announced := by
  refine ⟨fun source trailing => ⟨parse_written source trailing, code_written source trailing⟩, ?_⟩
  intro data body read
  obtain ⟨source, trailing, rfl, rfl⟩ := exists_written_of_parse read
  refine ⟨?_, source, trailing, rfl, rfl⟩
  rw [size_announced, List.length_append]
  exact Nat.le_add_right ..

/-- A fat body of four header words, with one byte of code, one data section flagged and two bytes
behind the code. -/
theorem parse_exactly_written_fourWords :
    parse [0x1B, 0x40, 5, 0, 1, 0, 0, 0, 1, 0, 0, 0x11, 9, 9, 9, 9, 0x2A, 7, 7] =
        .ok ⟨1, 16, ⟨0x11000001⟩, 5, true, true, true⟩ ∧
      ∃ (source : WrittenBody) (trailing : List UInt8),
        [0x1B, 0x40, 5, 0, 1, 0, 0, 0, 1, 0, 0, 0x11, 9, 9, 9, 9, 0x2A, 7, 7] = source.bytes ++ trailing ∧
          ⟨1, 16, ⟨0x11000001⟩, 5, true, true, true⟩ = source.announced := by
  have read : parse [0x1B, 0x40, 5, 0, 1, 0, 0, 0, 1, 0, 0, 0x11, 9, 9, 9, 9, 0x2A, 7, 7] =
      .ok ⟨1, 16, ⟨0x11000001⟩, 5, true, true, true⟩ := by decide +kernel
  exact ⟨read, (parse_exactly_written.2 _ _ read).2⟩

end MethodBody

end CilListing
