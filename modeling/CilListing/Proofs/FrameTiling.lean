import CilListing.Proofs.FrameBytes
import Mathlib.Data.List.Chain

namespace CilListing

/-- Frames laid one behind the other over the bytes from `position` on, up to a rest in which
no frame begins. -/
inductive Tiles : Nat → List UInt8 → List PlacedFrame → List UInt8 → Prop
  | stop {position bytes} : Frame.read? bytes = none → Tiles position bytes [] bytes
  | step {position bytes frame frames rest} : Frame.read? bytes = some frame →
      Tiles (position + frame.width) (bytes.drop frame.width) frames rest →
      Tiles position bytes (⟨position, frame⟩ :: frames) rest

/-- Cutting lays its frames over the bytes. -/
theorem Framing.tiles_cut (position : Nat) (bytes : List UInt8) :
    Tiles position bytes (cut position bytes).frames (cut position bytes).rest := by
  induction length : bytes.length using Nat.strongRecOn generalizing position bytes with
  | _ size ih =>
    subst length
    cases found : Frame.read? bytes with
    | none =>
      rw [cut_of_none found]
      exact .stop found
    | some frame =>
      rw [cut_of_some found]
      exact .step found (ih _ (Frame.drop_width_lt found) _ _ rfl)

namespace Tiles

variable {position : Nat} {bytes rest : List UInt8} {frames : List PlacedFrame}

/-- Cutting is the only way to lay frames over bytes. -/
theorem eq_cut (tiles : Tiles position bytes frames rest) : Framing.cut position bytes = ⟨frames, rest⟩ := by
  induction tiles with
  | stop ended => exact Framing.cut_of_none ended
  | step found _ ih => rw [Framing.cut_of_some found, ih]

theorem rest_eq (tiles : Tiles position bytes frames rest) : rest = [] ∨ rest = [Opcode.escape] := by
  induction tiles with
  | stop ended => exact Frame.read?_eq_none_iff.mp ended
  | step _ _ ih => exact ih

/-- The bytes that the frames cover. -/
def covered (frames : List PlacedFrame) : Nat := (frames.map fun placed => placed.frame.width).sum

theorem covered_cons (position : Nat) (frame : Frame) (frames : List PlacedFrame) :
    covered (⟨position, frame⟩ :: frames) = frame.width + covered frames := rfl

theorem drop_covered (tiles : Tiles position bytes frames rest) : bytes.drop (covered frames) = rest := by
  induction tiles with
  | stop => rfl
  | step found _ ih => rw [covered_cons, ← List.drop_drop, ih]

theorem covered_add_rest (tiles : Tiles position bytes frames rest) :
    covered frames + rest.length = bytes.length := by
  induction tiles with
  | stop => exact Nat.zero_add _
  | step found _ ih =>
    have within := Frame.width_le_of_read? found
    rw [List.length_drop] at ih
    rw [covered_cons]
    omega

theorem head_position (tiles : Tiles position bytes frames rest) {placed : PlacedFrame}
    (head : frames.head? = some placed) : placed.position = position := by
  cases tiles with
  | stop => cases head
  | step => cases head; rfl

/-- Each frame stands where the ones before it end. -/
theorem chain (tiles : Tiles position bytes frames rest) :
    frames.IsChain fun first next => next.position = first.position + first.frame.width := by
  induction tiles with
  | stop => exact .nil
  | @step position bytes frame frames rest found later ih =>
    cases later with
    | stop => exact .singleton _
    | step => exact .cons_cons rfl ih

/-- Where a frame stands, it is what the bytes hold there. -/
theorem read?_of_mem (tiles : Tiles position bytes frames rest) {placed : PlacedFrame}
    (member : placed ∈ frames) : position ≤ placed.position ∧
      Frame.read? (bytes.drop (placed.position - position)) = some placed.frame := by
  induction tiles with
  | stop => cases member
  | @step position bytes frame frames rest found _ ih =>
    rcases List.mem_cons.mp member with same | later
    · subst placed
      simpa using found
    · obtain ⟨beyond, read⟩ := ih later
      rw [List.drop_drop] at read
      refine ⟨by omega, ?_⟩
      rwa [show frame.width + (placed.position - (position + frame.width)) =
        placed.position - position by omega] at read

theorem end_le (tiles : Tiles position bytes frames rest) {placed : PlacedFrame}
    (member : placed ∈ frames) : placed.position + placed.frame.width ≤ position + bytes.length := by
  obtain ⟨beyond, read⟩ := tiles.read?_of_mem member
  have within := Frame.width_le_of_read? read
  have positive := placed.frame.width_pos
  rw [List.length_drop] at within
  omega

theorem increasing (tiles : Tiles position bytes frames rest) :
    frames.Pairwise fun first next => first.position < next.position := by
  induction tiles with
  | stop => exact .nil
  | @step position bytes frame frames rest found later ih =>
    refine List.pairwise_cons.mpr ⟨?_, ih⟩
    intro placed member
    have beyond := (later.read?_of_mem member).1
    have positive := frame.width_pos
    show position < placed.position
    omega

/-- Behind a frame that is cut short there is nothing. -/
theorem last_of_isCut (tiles : Tiles position bytes frames rest) {placed : PlacedFrame}
    (member : placed ∈ frames) (isCut : placed.frame.operand.isCut = true) :
    frames.getLast? = some placed ∧ rest = [] ∧
      placed.position + placed.frame.width = position + bytes.length := by
  induction tiles with
  | stop => cases member
  | @step position bytes frame frames rest found later ih =>
    rcases List.mem_cons.mp member with same | within
    · subst placed
      have all := Frame.width_eq_of_isCut found isCut
      rw [all, List.drop_length] at later
      cases later with
      | stop => exact ⟨rfl, rfl, congrArg (position + ·) all⟩
      | step more => cases more
    · obtain ⟨last, empty, ending⟩ := ih within
      have width := Frame.width_le_of_read? found
      rw [List.length_drop] at ending
      refine ⟨?_, empty, by omega⟩
      rw [List.getLast?_cons, last]
      rfl

theorem not_isCut_of_mem_dropLast (tiles : Tiles position bytes frames rest) {placed : PlacedFrame}
    (member : placed ∈ frames.dropLast) : placed.frame.operand.isCut = false := by
  rw [← Bool.not_eq_true]
  intro isCut
  obtain ⟨last, _, _⟩ := tiles.last_of_isCut (List.dropLast_subset _ member) isCut
  have order := tiles.increasing
  rw [← List.dropLast_append_getLast? placed last, List.pairwise_append] at order
  exact Nat.lt_irrefl _ (order.2.2 placed member placed (List.mem_singleton_self placed))

end Tiles

end CilListing
