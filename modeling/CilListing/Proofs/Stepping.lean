import CilListing.Metadata.Symbols
import CilListing.Proofs.CursorRuns

namespace CilListing

/-- A step taken again and again until it fails, with the answers on the way and the cursor that each
was asked at. -/
inductive Repeats {α : Type} (step : Cursor → Except Error α × Cursor) :
    Cursor → List (Cursor × α) → Cursor → Prop
  | failed {cursor error finish} : step cursor = (.error error, finish) → Repeats step cursor [] finish
  | answered {cursor answer next later finish} : step cursor = (.ok answer, next) →
      Repeats step next later finish → Repeats step cursor ((cursor, answer) :: later) finish

/-- There is one way only to go on until a step fails. -/
theorem Repeats.unique {α : Type} {step : Cursor → Except Error α × Cursor} {cursor finish other : Cursor}
    {answers others : List (Cursor × α)} (run : Repeats step cursor answers finish)
    (again : Repeats step cursor others other) : others = answers ∧ other = finish := by
  induction run generalizing others with
  | failed ended =>
    cases again with
    | failed endedAgain =>
      rw [ended, Prod.mk.injEq] at endedAgain
      exact ⟨rfl, endedAgain.2.symm⟩
    | answered answered =>
      rw [ended] at answered
      cases answered
  | answered answered _ ih =>
    cases again with
    | failed ended =>
      rw [answered] at ended
      cases ended
    | answered answeredAgain later =>
      rw [answered, Prod.mk.injEq, Except.ok.injEq] at answeredAgain
      obtain ⟨rfl, rfl⟩ := answeredAgain
      obtain ⟨rfl, rfl⟩ := ih later
      exact ⟨rfl, rfl⟩

/-- The frames behind the first ones are laid over the bytes behind them. -/
theorem Tiles.drop {position : Nat} {bytes rest : List UInt8} {frames : List PlacedFrame}
    (tiles : Tiles position bytes frames rest) {index : Nat} {placed : PlacedFrame}
    (found : frames[index]? = some placed) :
    Tiles placed.position (bytes.drop (placed.position - position)) (frames.drop index) rest := by
  induction tiles generalizing index with
  | stop => simp at found
  | @step position bytes frame frames rest read later ih =>
    cases index with
    | zero =>
      cases found
      rw [Nat.sub_self]
      exact .step read later
    | succ index =>
      rw [List.getElem?_cons_succ] at found
      have beyond := (later.read?_of_mem (List.mem_of_getElem? found)).1
      have behind := ih found
      rw [List.drop_drop] at behind
      rwa [show placed.position - position = frame.width + (placed.position - (position + frame.width)) by omega]

namespace Cursor

/-- The instructions that a stream emits, each with the cursor that it is decoded at. -/
def emitted (cursor : Cursor) (backend : Backend) (policy : UnknownPolicy) : List (Cursor × Instruction) :=
  (Framing.cut cursor.position cursor.rest).frames.map fun placed =>
    (⟨cursor.data, placed.position⟩, (placed.frame.decode backend policy placed.position).value)

/-- From the cursor on the data are decoded to the instructions and to their end, by frames as well
as by single reads that could fail. -/
structure StreamsTo (cursor : Cursor) (backend : Backend) (policy : UnknownPolicy)
    (instructions : List Instruction) : Prop where
  whole : (cursor.stream backend policy).value = (instructions, ⟨cursor.data, cursor.length⟩)
  checked : Checked.stream backend policy cursor = .ok (instructions, ⟨cursor.data, cursor.length⟩)

variable (backend : Backend) (policy : UnknownPolicy)

theorem instruction_of_some {data : List UInt8} {position : Nat} {frame : Frame}
    (found : Frame.read? (data.drop position) = some frame) :
    ((⟨data, position⟩ : Cursor).instruction backend policy).value =
      (.ok (frame.decode backend policy position).value, ⟨data, position + frame.width⟩) := by
  rw [instruction, rest, found]
  rfl

theorem instruction_of_none {data : List UInt8} {position : Nat} (within : position ≤ data.length)
    (ended : Frame.read? (data.drop position) = none) :
    ((⟨data, position⟩ : Cursor).instruction backend policy).value =
      (.error overrun, ⟨data, data.length⟩) := by
  have finish : position + (data.drop position).length = data.length := by
    rw [List.length_drop]
    omega
  rw [instruction, rest, ended]
  exact congrArg (fun sum => (_, Cursor.mk data sum)) finish

/-- Whatever decodes single instructions as they stand goes from frame to frame, up to the end of
the data. -/
theorem repeats_of_tiles {step : Cursor → Except Error Instruction × Cursor}
    (same : ∀ place : Cursor, place.position ≤ place.length →
      step place = (place.instruction backend policy).value)
    {data bytes rest : List UInt8} {position : Nat} {frames : List PlacedFrame}
    (tiles : Tiles position bytes frames rest) (behind : bytes = data.drop position)
    (within : position ≤ data.length) :
    Repeats step ⟨data, position⟩
      (frames.map fun placed =>
        (⟨data, placed.position⟩, (placed.frame.decode backend policy placed.position).value))
      ⟨data, data.length⟩ := by
  induction tiles with
  | @stop position bytes ended =>
    subst behind
    exact .failed ((same _ within).trans (instruction_of_none backend policy within ended))
  | @step position bytes frame frames rest found _ ih =>
    subst behind
    have enough := Frame.width_le_of_read? found
    rw [List.length_drop] at enough
    have answered := (same ⟨data, position⟩ within).trans (instruction_of_some backend policy found)
    exact .answered answered (ih (List.drop_drop ..) (by omega))

variable {cursor : Cursor}

theorem streamsTo_emitted (within : cursor.position ≤ cursor.length) :
    cursor.StreamsTo backend policy ((cursor.emitted backend policy).map Prod.snd) := by
  have whole : (cursor.stream backend policy).value =
      ((cursor.emitted backend policy).map Prod.snd, ⟨cursor.data, cursor.length⟩) := by
    rw [stream, Traced.map, decodeStream_value, emitted, List.map_map]
    rfl
  refine ⟨whole, ?_⟩
  rw [Checked.stream_ok backend policy within, whole]

/-- Decoding that is taken up where an instruction was emitted emits that one and all later ones. -/
theorem emitted_restart {index : Nat} {place : Cursor} {instruction : Instruction}
    (within : cursor.position ≤ cursor.length)
    (found : (cursor.emitted backend policy)[index]? = some (place, instruction)) :
    place.data = cursor.data ∧ place.position ≤ place.length ∧
      place.emitted backend policy = (cursor.emitted backend policy).drop index := by
  have tiles := Framing.tiles_cut cursor.position cursor.rest
  rw [emitted, List.getElem?_map, Option.map_eq_some_iff] at found
  obtain ⟨placed, member, same⟩ := found
  cases same
  have ending := tiles.end_le (List.mem_of_getElem? member)
  have beyond := (tiles.read?_of_mem (List.mem_of_getElem? member)).1
  have later := tiles.drop member
  rw [rest, List.drop_drop, Nat.add_sub_cancel' beyond] at later
  rw [← remaining_eq, remaining] at ending
  refine ⟨rfl, ?_, ?_⟩
  · show placed.position ≤ cursor.length
    omega
  · rw [emitted, emitted, rest, later.eq_cut, List.map_drop]
    rfl

end Cursor

open Cursor in
/-- Single instructions decoded until one fails are those of the stream, and both end with the data.
From each place at which the stream has emitted an instruction, it can be taken up again. -/
theorem stream_restarts_anywhere (data : List UInt8) (position : Nat) (within : position ≤ data.length)
    (backend : Backend) (policy : UnknownPolicy) :
    let cursor : Cursor := ⟨data, position⟩
    let run := cursor.emitted backend policy
    (∀ answers finish, Repeats (fun place => (place.instruction backend policy).value) cursor answers finish ↔
      answers = run ∧ finish = ⟨data, data.length⟩) ∧
    (∀ answers finish, Repeats (Stepwise.instruction backend policy) cursor answers finish ↔
      answers = run ∧ finish = ⟨data, data.length⟩) ∧
    cursor.StreamsTo backend policy (run.map Prod.snd) ∧
    ∀ index place instruction, run[index]? = some (place, instruction) →
      instruction.offset = place.position.toUInt32 ∧
      (start data).advance place.position = (.ok (), place) ∧
      place.StreamsTo backend policy ((run.map Prod.snd).drop index) := by
  intro cursor run
  have stepping {step : Cursor → Except Error Instruction × Cursor}
      (same : ∀ place : Cursor, place.position ≤ place.length →
        step place = (place.instruction backend policy).value) (answers : List (Cursor × Instruction))
      (finish : Cursor) :
      Repeats step cursor answers finish ↔ answers = run ∧ finish = ⟨data, data.length⟩ := by
    have repeats : Repeats step cursor run ⟨data, data.length⟩ :=
      repeats_of_tiles backend policy same (Framing.tiles_cut position (data.drop position)) rfl within
    constructor
    · exact repeats.unique
    · rintro ⟨rfl, rfl⟩
      exact repeats
  refine ⟨stepping fun _ _ => rfl, stepping fun _ => Stepwise.instruction_eq backend policy,
    streamsTo_emitted backend policy within, ?_⟩
  intro index place instruction found
  obtain ⟨sameData, inside, later⟩ := emitted_restart backend policy within found
  refine ⟨?_, ?_, ?_⟩
  · obtain ⟨placed, _, same⟩ := List.mem_map.mp (List.mem_of_getElem? found)
    cases same
    rw [Frame.decode_value]
  · have enough : ¬ (start data).remaining < place.position := by
      rw [Cursor.length, sameData] at inside
      exact Nat.not_lt.mpr inside
    obtain ⟨_, target⟩ := place
    cases sameData
    rw [advance, if_neg enough, forward]
    exact congrArg (fun sum => (_, Cursor.mk data sum)) (Nat.zero_add target)
  · rw [← List.map_drop, ← later]
    exact streamsTo_emitted backend policy inside

open Cursor in
/-- Decoding begins behind a first byte that is none of its own, is taken up again at the second
instruction, and passes over an escape byte at the end. -/
theorem stream_restarts_anywhere_loneEscape :
    let data : List UInt8 := [0xFF, 0x2B, 0xFD, 0x17, 0xFE]
    let backend := Symbols.empty.backend
    let run := (⟨data, 1⟩ : Cursor).emitted backend .mark
    1 ≤ data.length ∧
      run.map Prod.snd = [⟨1, 2, 0x2B, Opcode.ofByte 0x2B, some "IL_0000", none⟩,
        ⟨3, 1, 0x17, Opcode.ofByte 0x17, none, none⟩] ∧
      Repeats (Stepwise.instruction backend .mark) ⟨data, 1⟩ run ⟨data, 5⟩ ∧
      (⟨data, 3⟩ : Cursor).StreamsTo backend .mark [⟨3, 1, 0x17, Opcode.ofByte 0x17, none, none⟩] := by
  intro data backend run
  have within : 1 ≤ data.length := by decide
  have texts : run.map Prod.snd = [⟨1, 2, 0x2B, Opcode.ofByte 0x2B, some "IL_0000", none⟩,
      ⟨3, 1, 0x17, Opcode.ofByte 0x17, none, none⟩] := by decide +kernel
  have second : run[1]? = some (⟨data, 3⟩, ⟨3, 1, 0x17, Opcode.ofByte 0x17, none, none⟩) := by
    decide +kernel
  obtain ⟨_, stepwise, _, restart⟩ := stream_restarts_anywhere data 1 within backend .mark
  have later := (restart 1 _ _ second).2.2
  rw [texts] at later
  exact ⟨within, texts, (stepwise run ⟨data, 5⟩).mpr ⟨rfl, rfl⟩, later⟩

end CilListing
