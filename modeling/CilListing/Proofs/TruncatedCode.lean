import CilListing.Metadata.Symbols
import CilListing.Proofs.InstructionTiling

namespace CilListing

/-- What is left of an instruction of which the opcode is there but not all of the operand, since the
code ends at `finish`. -/
structure Instruction.CutShort (finish : Nat) (instruction short : Instruction) : Prop where
  offset : short.offset = instruction.offset
  size : short.size.toNat = finish - instruction.offset.toNat
  code : short.code = instruction.code
  opcode : short.opcode = instruction.opcode
  operandText : short.operandText = none
  token : short.token = none

namespace PlacedFrame

/-- The position behind a frame. -/
def finish (placed : PlacedFrame) : Nat := placed.position + placed.frame.width

/-- What is left of a frame whose operand goes beyond `limit`, where the bytes end. -/
structure CutShort (limit : Nat) (placed short : PlacedFrame) : Prop where
  position : short.position = placed.position
  code : short.frame.code = placed.frame.code
  isCut : short.frame.operand.isCut = true
  finish : short.finish = limit

/-- What bytes that end at `limit` leave of the first frame that goes beyond them, if there is one:
its front, if that holds the opcode. -/
structure Leaves (limit : Nat) (next extra : Option PlacedFrame) : Prop where
  isSome_iff : extra.isSome = true ↔ ∃ placed ∈ next, limit < placed.finish ∧
    placed.position + placed.frame.opcodeWidth ≤ limit
  cutShort : ∀ short ∈ extra, ∃ placed ∈ next, placed.CutShort limit short

end PlacedFrame

namespace Frame

/-- What cutting finds in bytes that end inside of their first frame. -/
theorem frames_cut_of_lt {bytes : List UInt8} {frame : Frame} (found : read? bytes = some frame)
    {position limit : Nat} (behind : position ≤ limit) (beyond : limit < position + frame.width) :
    ∃ extra : Option PlacedFrame,
      (Framing.cut position (bytes.take (limit - position))).frames = extra.toList ∧
      PlacedFrame.Leaves limit (some ⟨position, frame⟩) extra := by
  have within := width_le_of_read? found
  have length : (bytes.take (limit - position)).length = limit - position := by
    rw [List.length_take]
    omega
  rw [← List.take_append_drop (limit - position) bytes] at found
  have front := read?_front found
  rw [length] at front
  rcases front with ⟨inside, ended⟩ | ⟨enough, _⟩ | ⟨short, opcode, _, read, code, isCut⟩
  · refine ⟨none, ?_, ?_, nofun⟩
    · rw [Framing.cut_of_none ended]
      rfl
    · refine iff_of_false Bool.false_ne_true ?_
      rintro ⟨_, ⟨⟩, _, opcode⟩
      dsimp only at opcode
      omega
  · omega
  · have width := width_eq_of_isCut read isCut
    refine ⟨some ⟨position, short⟩, ?_, ?_, ?_⟩
    · rw [Framing.cut_of_some read, width, List.drop_length, Framing.cut_of_none rfl]
      rfl
    · exact iff_of_true rfl ⟨_, rfl, beyond, show position + frame.opcodeWidth ≤ limit by omega⟩
    · rintro _ ⟨⟩
      exact ⟨_, rfl, rfl, code, isCut, show position + short.width = limit by omega⟩

end Frame

namespace Tiles

variable {position : Nat} {bytes rest : List UInt8} {frames : List PlacedFrame}

/-- No frame ends where the first of them begins. -/
theorem countP_finish_eq_zero (tiles : Tiles position bytes frames rest) {limit : Nat}
    (before : limit ≤ position) : frames.countP (fun placed => placed.finish ≤ limit) = 0 := by
  rw [List.countP_eq_zero]
  intro placed member
  have beyond := (tiles.read?_of_mem member).1
  have positive := placed.frame.width_pos
  rw [decide_eq_true_eq, PlacedFrame.finish]
  omega

/-- Bytes that end at `limit` keep the frames that end there or before. Of the next one the opcode
decides whether something is left. -/
theorem frames_cut_take (tiles : Tiles position bytes frames rest) {limit : Nat} (behind : position ≤ limit) :
    let kept := frames.countP fun placed => placed.finish ≤ limit
    ∃ extra : Option PlacedFrame,
      (Framing.cut position (bytes.take (limit - position))).frames = frames.take kept ++ extra.toList ∧
      PlacedFrame.Leaves limit frames[kept]? extra := by
  induction tiles with
  | stop ended =>
    refine ⟨none, ?_, by simp, nofun⟩
    rw [Framing.cut_of_none (Frame.read?_take_of_none ended _)]
    rfl
  | @step position bytes frame frames rest found later ih =>
    intro kept
    by_cases inside : position + frame.width ≤ limit
    · -- The whole frame is kept, and the later ones count from behind it.
      have counted : kept = frames.countP (fun placed => placed.finish ≤ limit) + 1 := by
        refine List.countP_cons_of_pos ?_
        rw [decide_eq_true_eq]
        exact inside
      obtain ⟨extra, cut, leaves⟩ := ih inside
      rw [counted]
      refine ⟨extra, ?_, leaves⟩
      have whole := Frame.read?_take_of_le found (show frame.width ≤ limit - position by omega)
      rw [Framing.cut_of_some whole, List.drop_take, Nat.sub_sub, cut]
      rfl
    · -- The first frame goes beyond the limit, and with it all others.
      have none : kept = 0 := by
        refine (List.countP_cons_of_neg ?_).trans (later.countP_finish_eq_zero (by omega))
        rw [decide_eq_true_eq]
        exact inside
      rw [none]
      exact Frame.frames_cut_of_lt found behind (by omega)

end Tiles

section Decode

variable (backend : Backend) (policy : UnknownPolicy) {code : List UInt8}

/-- In code of less than 32 bits of length, an instruction ends where its frame does. -/
theorem finish_decode (bound : code.length < 2 ^ 32) {placed : PlacedFrame}
    (member : placed ∈ (Framing.cut 0 code).frames) :
    (placed.frame.decode backend policy placed.position).value.offset.toNat = placed.position ∧
      (placed.frame.decode backend policy placed.position).value.offset.toNat +
        (placed.frame.decode backend policy placed.position).value.size.toNat = placed.finish := by
  have ending := (Framing.tiles_cut 0 code).end_le member
  rw [Nat.zero_add] at ending
  obtain ⟨offset, size⟩ := offset_size_decode backend policy bound ending
  exact ⟨offset, by rw [offset, size, PlacedFrame.finish]⟩

/-- The instruction of a frame that is cut short against that of the whole frame. -/
theorem PlacedFrame.CutShort.decode {limit : Nat} {placed short : PlacedFrame}
    (less : placed.CutShort limit short) (bound : code.length < 2 ^ 32)
    (member : short ∈ (Framing.cut 0 code).frames) :
    Instruction.CutShort limit (placed.frame.decode backend policy placed.position).value
      (short.frame.decode backend policy short.position).value := by
  obtain ⟨position, sameCode, isCut, finish⟩ := less
  have offset : (short.frame.decode backend policy short.position).value.offset =
      (placed.frame.decode backend policy placed.position).value.offset := by
    rw [Frame.decode_value, Frame.decode_value, position]
  have opcode : short.frame.opcode = placed.frame.opcode := congrArg Opcode.ofCode sameCode
  obtain ⟨_, ending⟩ := finish_decode backend policy bound member
  rw [finish, offset] at ending
  have found := ((Framing.tiles_cut 0 code).read?_of_mem member).2
  obtain ⟨text, token⟩ := Frame.decode_of_isCut backend policy short.position found isCut
  refine ⟨offset, by omega, ?_, ?_, text, token⟩
  · rw [Frame.decode_value, Frame.decode_value, sameCode]
  · rw [Frame.decode_value, Frame.decode_value, opcode]

/-- As many instructions end at or before a place as frames do. -/
theorem countP_decode (bound : code.length < 2 ^ 32) (limit : Nat) :
    ((Framing.cut 0 code).frames.map fun placed =>
        (placed.frame.decode backend policy placed.position).value).countP
          (fun instruction => instruction.offset.toNat + instruction.size.toNat ≤ limit) =
      (Framing.cut 0 code).frames.countP fun placed => placed.finish ≤ limit := by
  rw [List.countP_map]
  apply List.countP_congr
  intro placed member
  simp only [Function.comp_apply, (finish_decode backend policy bound member).2]

end Decode

/-- The first bytes of a code give the instructions that end within them, as they are in the whole
code, and of the next one what is there if its opcode is. -/
theorem decode_take_keeps_finished (code : List UInt8) (short : code.length < 2 ^ 32) (header : MethodHeader)
    (backend : Backend) (policy : UnknownPolicy) (size : Nat) :
    let whole := (Disassembly.decode code header backend policy).value.instructions
    let front := (Disassembly.decode (code.take size) header backend policy).value.instructions
    let kept := whole.countP fun instruction => instruction.offset.toNat + instruction.size.toNat ≤ size
    ∃ extra : Option Instruction, front = whole.take kept ++ extra.toList ∧
      (extra.isSome = true ↔ ∃ next ∈ whole[kept]?, size < next.offset.toNat + next.size.toNat ∧
        next.offset.toNat + next.opcodeLength ≤ size) ∧
      ∀ last ∈ extra, ∃ next ∈ whole[kept]?, next.CutShort size last := by
  intro whole front kept
  have wholeEq : whole = (Framing.cut 0 code).frames.map fun placed =>
      (placed.frame.decode backend policy placed.position).value :=
    Disassembly.instructions_decode ..
  have frontEq : front = (Framing.cut 0 (code.take size)).frames.map fun placed =>
      (placed.frame.decode backend policy placed.position).value :=
    Disassembly.instructions_decode ..
  have counted : kept = (Framing.cut 0 code).frames.countP fun placed => placed.finish ≤ size :=
    (congrArg _ wholeEq).trans (countP_decode backend policy short size)
  have next : whole[kept]? = (Framing.cut 0 code).frames[kept]?.map fun placed =>
      (placed.frame.decode backend policy placed.position).value := by
    rw [wholeEq, List.getElem?_map]
  obtain ⟨extra, cut, isSome, isCut⟩ := (Framing.tiles_cut 0 code).frames_cut_take (Nat.zero_le size)
  rw [← counted] at cut isSome isCut
  rw [Nat.sub_zero] at cut
  refine ⟨extra.map fun placed => (placed.frame.decode backend policy placed.position).value, ?_, ?_, ?_⟩
  · rw [frontEq, cut, wholeEq, List.map_append, List.map_take, Option.toList_map]
  · rw [Option.isSome_map, isSome, next]
    simp only [Option.mem_map, exists_exists_and_eq_and, opcodeLength_decode]
    refine exists_congr fun placed => and_congr_right fun found => ?_
    obtain ⟨offset, finish⟩ := finish_decode backend policy short (List.mem_of_getElem? found)
    rw [finish, offset]
  · rw [next]
    intro last member
    obtain ⟨frame, inside, rfl⟩ := Option.mem_map.mp member
    obtain ⟨placed, found, cutShort⟩ := isCut frame inside
    have there : frame ∈ (Framing.cut 0 (code.take size)).frames := by
      rw [cut, List.mem_append, Option.mem_toList]
      exact Or.inr inside
    have bound : (code.take size).length < 2 ^ 32 := by
      rw [List.length_take]
      omega
    exact ⟨_, Option.mem_map_of_mem _ found, cutShort.decode backend policy bound there⟩

/-- A branch and a table of two targets, cut inside of the first target. -/
theorem decode_take_keeps_finished_halfTable :
    let code : List UInt8 := [0x2B, 0xFE, 0x45, 2, 0, 0, 0, 1, 0, 0, 0, 2, 0, 0, 0, 0x2A]
    let whole := (Disassembly.decode code (.plain 8) Symbols.empty.backend .mark).value.instructions
    let front := (Disassembly.decode (code.take 9) (.plain 8) Symbols.empty.backend .mark).value.instructions
    code.length < 2 ^ 32 ∧ ∃ last, front = whole.take 1 ++ [last] ∧
      ∃ next ∈ whole[1]?, next.CutShort 9 last := by
  intro code whole front
  have short : code.length < 2 ^ 32 := by decide
  obtain ⟨extra, cut, isSome, isCut⟩ :=
    decode_take_keeps_finished code short (.plain 8) Symbols.empty.backend .mark 9
  have kept : whole.countP (fun each => each.offset.toNat + each.size.toNat ≤ 9) = 1 := by decide +kernel
  rw [kept] at cut isSome isCut
  have next : whole[1]? =
      some ⟨2, 13, 0x45, Opcode.ofByte 0x45, some "(IL_0010, IL_0011)", none⟩ := by decide +kernel
  have there : extra.isSome = true := isSome.mpr ⟨_, next, by decide, by decide⟩
  obtain ⟨last, rfl⟩ := Option.isSome_iff_exists.mp there
  exact ⟨short, last, cut, isCut last rfl⟩

end CilListing
