import CilListing.Proofs.NumeralText
import CilListing.Trace
import Mathlib.Data.List.Basic

namespace CilListing

section Separators

variable {α : Type} {stop : α}

/-- What stands in front of the first `stop` is the same where the whole is. -/
theorem append_stop_inj {first second restFirst restSecond : List α} (freeFirst : stop ∉ first)
    (freeSecond : stop ∉ second) (same : first ++ stop :: restFirst = second ++ stop :: restSecond) :
    first = second ∧ restFirst = restSecond := by
  induction first generalizing second with
  | nil =>
    cases second with
    | nil => exact ⟨rfl, (List.cons.inj same).2⟩
    | cons head tail => exact absurd ((List.cons.inj same).1 ▸ List.mem_cons_self ..) freeSecond
  | cons head tail ih =>
    cases second with
    | nil => exact absurd ((List.cons.inj same).1 ▸ List.mem_cons_self ..) freeFirst
    | cons other later =>
      obtain ⟨rfl, rest⟩ := List.cons.inj same
      obtain ⟨rfl, tails⟩ := ih (List.not_mem_of_not_mem_cons freeFirst)
        (List.not_mem_of_not_mem_cons freeSecond) rest
      exact ⟨rfl, tails⟩

/-- What stands behind the last `stop` is the same where the whole is. -/
theorem stop_append_inj {first second restFirst restSecond : List α} (freeFirst : stop ∉ restFirst)
    (freeSecond : stop ∉ restSecond) (same : first ++ stop :: restFirst = second ++ stop :: restSecond) :
    restFirst = restSecond := by
  have mirrored := congrArg List.reverse same
  rw [List.reverse_append, List.reverse_append, List.reverse_cons, List.reverse_cons, List.append_assoc,
    List.append_assoc] at mirrored
  have parts := append_stop_inj (List.mem_reverse.not.mpr freeFirst)
    (List.mem_reverse.not.mpr freeSecond) mirrored
  exact List.reverse_injective parts.1

/-- Lines are told apart by what ends them. -/
theorem flatMap_stop_inj {gap : List α} {first second : List (List α)}
    (freeFirst : ∀ line ∈ first, stop ∉ line) (freeSecond : ∀ line ∈ second, stop ∉ line)
    (same : first.flatMap (· ++ stop :: gap) = second.flatMap (· ++ stop :: gap)) : first = second := by
  induction first generalizing second with
  | nil =>
    cases second with
    | nil => rfl
    | cons line lines => simp at same
  | cons line lines ih =>
    cases second with
    | nil => simp at same
    | cons other others =>
      rw [List.flatMap_cons, List.flatMap_cons, List.append_assoc, List.append_assoc] at same
      obtain ⟨rfl, rest⟩ := append_stop_inj (freeFirst line (List.mem_cons_self ..))
        (freeSecond other (List.mem_cons_self ..)) same
      rw [ih (fun each member => freeFirst each (List.mem_cons_of_mem _ member))
        (fun each member => freeSecond each (List.mem_cons_of_mem _ member))
        (List.append_cancel_left rest)]

/-- Lines that each end with `stop` are found again between the stops, and nothing is left behind the
last of them. -/
theorem splitOn_flatMap_stop [BEq α] [LawfulBEq α] {lines : List (List α)} (free : ∀ line ∈ lines, stop ∉ line) :
    (lines.flatMap (· ++ [stop])).splitOn stop = lines ++ [[]] := by
  induction lines with
  | nil => rfl
  | cons line rest ih =>
    obtain ⟨first, later⟩ := List.forall_mem_cons.mp free
    have before : ∀ each ∈ line, (each == stop) = false := by
      intro each member
      rw [beq_eq_false_iff_ne]
      rintro rfl
      exact first member
    rw [List.flatMap_cons, List.append_assoc, List.singleton_append, List.splitOn,
      List.splitOnP_append_cons_of_forall_mem before _ (beq_self_eq_true stop)]
    exact congrArg (line :: ·) (ih later)

theorem intercalate_append_separator (separator : List α) {entries : List (List α)} (some : entries ≠ []) :
    separator.intercalate entries ++ separator = entries.flatMap (· ++ separator) := by
  induction entries with
  | nil => exact absurd rfl some
  | cons entry rest ih =>
    cases rest with
    | nil => simp
    | cons next later =>
      rw [List.intercalate_cons_cons, List.flatMap_cons, ← ih (List.cons_ne_nil _ _), List.append_assoc]

/-- Entries are told apart by what separates them. Without an entry that is empty, no entry at all
is not taken for one. -/
theorem intercalate_inj {gap : List α} {first second : List (List α)}
    (freeFirst : ∀ entry ∈ first, stop ∉ entry ∧ entry ≠ [])
    (freeSecond : ∀ entry ∈ second, stop ∉ entry ∧ entry ≠ [])
    (same : (stop :: gap).intercalate first = (stop :: gap).intercalate second) : first = second := by
  have nothing {entries : List (List α)} (free : ∀ entry ∈ entries, stop ∉ entry ∧ entry ≠ [])
      (empty : (stop :: gap).intercalate entries = []) : entries = [] := by
    match entries with
    | [] => rfl
    | [entry] =>
      rw [List.intercalate_singleton] at empty
      exact absurd empty (free entry (List.mem_cons_self ..)).2
    | entry :: next :: rest =>
      rw [List.intercalate_cons_cons, List.append_assoc, List.append_eq_nil_iff] at empty
      exact absurd empty.1 (free entry (List.mem_cons_self ..)).2
  by_cases emptyFirst : first = []
  · subst first
    exact (nothing freeSecond same.symm).symm
  · by_cases emptySecond : second = []
    · subst second
      exact nothing freeFirst same
    · apply flatMap_stop_inj (fun entry member => (freeFirst entry member).1)
        (fun entry member => (freeSecond entry member).1)
      rw [← intercalate_append_separator _ emptyFirst, ← intercalate_append_separator _ emptySecond, same]

end Separators

end CilListing
