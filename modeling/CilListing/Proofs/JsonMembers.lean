import CilListing.Json.Value
import Mathlib.Data.List.Perm.Basic
import Mathlib.Data.List.Nodup

namespace CilListing

namespace Json

/-- Members by ascending key, no key twice. -/
def Ascending (members : List (String × Json)) : Prop := members.Pairwise fun first second => first.1 < second.1

section Sorting

variable {key : String} {value : Json} {members : List (String × Json)}

theorem subset_insertMember : insertMember key value members ⊆ (key, value) :: members := by
  fun_induction insertMember key value members with
  | case1 => exact List.Subset.refl _
  | case2 => exact List.Subset.refl _
  | case3 => exact List.cons_subset_cons _ (List.subset_cons_self _ _)
  | case4 other held rest _ _ ih =>
    intro pair member
    rcases List.mem_cons.mp member with rfl | later
    · exact List.mem_cons_of_mem _ (List.mem_cons_self ..)
    · rcases List.mem_cons.mp (ih later) with rfl | old
      · exact List.mem_cons_self ..
      · exact List.mem_cons_of_mem _ (List.mem_cons_of_mem _ old)

theorem ascending_insertMember (ascending : Ascending members) : Ascending (insertMember key value members) := by
  fun_induction insertMember key value members with
  | case1 => exact List.pairwise_singleton ..
  | case2 other held rest less =>
    refine List.pairwise_cons.mpr ⟨?_, ascending⟩
    intro pair member
    rcases List.mem_cons.mp member with rfl | later
    · exact less
    · exact String.lt_trans less ((List.pairwise_cons.mp ascending).1 pair later)
  | case3 held rest notLess =>
    exact List.pairwise_cons.mpr (List.pairwise_cons.mp ascending)
  | case4 other held rest notLess different ih =>
    obtain ⟨above, later⟩ := List.pairwise_cons.mp ascending
    refine List.pairwise_cons.mpr ⟨?_, ih later⟩
    intro pair member
    rcases List.mem_cons.mp (subset_insertMember member) with rfl | old
    · exact Std.lt_of_le_of_ne (String.not_lt.mp notLess) (Ne.symm different)
    · exact above pair old

theorem perm_insertMember (fresh : key ∉ members.map Prod.fst) :
    (insertMember key value members).Perm ((key, value) :: members) := by
  fun_induction insertMember key value members with
  | case1 => exact .refl _
  | case2 => exact .refl _
  | case3 => exact absurd (List.mem_cons_self ..) fresh
  | case4 other held rest _ _ ih =>
    rw [List.map_cons, List.mem_cons, not_or] at fresh
    exact ((ih fresh.2).cons _).trans (.swap ..)

/-- Members put one after the other into those that are already in place. -/
def insertAll (sorted members : List (String × Json)) : List (String × Json) :=
  members.foldl (fun sorted (key, value) => insertMember key value sorted) sorted

theorem ascending_insertAll {sorted : List (String × Json)} (ascending : Ascending sorted)
    (members : List (String × Json)) : Ascending (insertAll sorted members) := by
  induction members generalizing sorted with
  | nil => exact ascending
  | cons first rest ih => exact ih (ascending_insertMember ascending)

theorem subset_insertAll (sorted members : List (String × Json)) :
    insertAll sorted members ⊆ sorted ++ members := by
  induction members generalizing sorted with
  | nil => exact List.subset_append_left _ _
  | cons first rest ih =>
    intro pair member
    have within := ih (insertMember first.1 first.2 sorted) member
    rw [List.mem_append, List.mem_cons]
    rcases List.mem_append.mp within with placed | later
    · rcases List.mem_cons.mp (subset_insertMember placed) with rfl | old
      · exact Or.inr (Or.inl rfl)
      · exact Or.inl old
    · exact Or.inr (Or.inr later)

theorem perm_insertAll {sorted members : List (String × Json)}
    (distinct : ((sorted ++ members).map Prod.fst).Nodup) :
    (insertAll sorted members).Perm (sorted ++ members) := by
  induction members generalizing sorted with
  | nil => rw [List.append_nil]; exact .refl _
  | cons first rest ih =>
    have moved : (sorted ++ first :: rest).Perm (first :: sorted ++ rest) := List.perm_middle
    have nodup := (moved.map Prod.fst).nodup_iff.mp distinct
    rw [List.cons_append, List.map_cons, List.nodup_cons, List.map_append, List.mem_append, not_or] at nodup
    have placed : (insertMember first.1 first.2 sorted).Perm (first :: sorted) := perm_insertMember nodup.1.1
    have whole := placed.append_right rest
    have next := ih ((((whole.trans moved.symm).map Prod.fst).nodup_iff).mpr distinct)
    exact next.trans (whole.trans moved.symm)

theorem ascending_sortMembers (members : List (String × Json)) : Ascending (sortMembers members) :=
  ascending_insertAll .nil members

theorem subset_sortMembers (members : List (String × Json)) : sortMembers members ⊆ members :=
  subset_insertAll [] members

/-- Where no key is used twice, sorting loses nothing. -/
theorem perm_sortMembers (distinct : (members.map Prod.fst).Nodup) : (sortMembers members).Perm members :=
  perm_insertAll distinct

theorem Ascending.nodup_keys (ascending : Ascending members) : (members.map Prod.fst).Nodup := by
  rw [List.nodup_iff_pairwise_ne, List.pairwise_map]
  exact ascending.imp fun less => Std.ne_of_lt less

theorem sortMembers_eq_of_perm {other : List (String × Json)} (perm : members.Perm other)
    (distinct : (members.map Prod.fst).Nodup) : sortMembers members = sortMembers other := by
  have otherDistinct := (perm.map Prod.fst).nodup_iff.mp distinct
  have same := (perm_sortMembers distinct).trans (perm.trans (perm_sortMembers otherDistinct).symm)
  refine same.eq_of_pairwise ?_ (ascending_sortMembers members) (ascending_sortMembers other)
  intro first second _ _ less greater
  exact absurd greater (String.lt_asymm less)

end Sorting

section Values

/-- The values without parts, strings apart. -/
def isScalar : Json → Bool
  | null | bool _ | integer _ | float _ => true
  | _ => false

/-- A property that passes from the parts of a value to the value holds of every value. -/
@[elab_as_elim]
theorem induct {motive : Json → Prop} (null : motive .null) (bool : ∀ value, motive (.bool value))
    (integer : ∀ value, motive (.integer value)) (float : ∀ bits, motive (.float bits))
    (string : ∀ text, motive (.string text))
    (array : ∀ items, (∀ item ∈ items, motive item) → motive (.array items))
    (object : ∀ members, (∀ member ∈ members, motive member.2) → motive (.object members)) :
    ∀ value, motive value
  | .null => null
  | .bool value => bool value
  | .integer value => integer value
  | .float bits => float bits
  | .string text => string text
  | .array items => array items fun item _ =>
      induct null bool integer float string array object item
  | .object members => object members fun member _ =>
      induct null bool integer float string array object member.2
termination_by value => sizeOf value
decreasing_by
  · have smaller := List.sizeOf_lt_of_mem ‹_ ∈ items›
    rw [Json.array.sizeOf_spec]
    omega
  · have smaller := List.sizeOf_lt_of_mem ‹_ ∈ members›
    obtain ⟨key, value⟩ := member
    rw [Prod.mk.sizeOf_spec] at smaller
    rw [Json.object.sizeOf_spec]
    show sizeOf value < _
    omega

/-- The value with the members of all its objects by ascending key, the last of each key. -/
def sorted : Json → Json
  | array items => array (items.attach.map fun ⟨item, _⟩ => item.sorted)
  | object members =>
    object (sortMembers (members.attach.map fun ⟨(key, value), _⟩ => (key, value.sorted)))
  | leaf => leaf
termination_by value => sizeOf value
decreasing_by
  · have smaller := List.sizeOf_lt_of_mem ‹_ ∈ items›
    rw [array.sizeOf_spec]
    omega
  · next within =>
    have smaller := List.sizeOf_lt_of_mem within
    rw [Prod.mk.sizeOf_spec] at smaller
    rw [object.sizeOf_spec]
    omega

/-- The number of arrays and objects that lie within each other. -/
def depth : Json → Nat
  | array items => 1 + (items.attach.map fun ⟨item, _⟩ => item.depth).foldr max 0
  | object members => 1 + (members.attach.map fun ⟨(_, value), _⟩ => value.depth).foldr max 0
  | _ => 0
termination_by value => sizeOf value
decreasing_by
  · have smaller := List.sizeOf_lt_of_mem ‹_ ∈ items›
    rw [array.sizeOf_spec]
    omega
  · next within =>
    have smaller := List.sizeOf_lt_of_mem within
    rw [Prod.mk.sizeOf_spec] at smaller
    rw [object.sizeOf_spec]
    omega

theorem sorted_scalar {value : Json} (scalar : value.isScalar = true) : value.sorted = value := by
  cases value with
  | null | bool | integer | float => rw [sorted] <;> (intro _ same; cases same)
  | string | array | object => cases scalar

theorem sorted_string (text : String) : (string text).sorted = string text := by
  rw [sorted] <;> (intro _ same; cases same)

theorem depth_scalar {value : Json} (scalar : value.isScalar = true) : value.depth = 0 := by
  cases value with
  | null | bool | integer | float => rw [depth] <;> (intro _ same; cases same)
  | string | array | object => cases scalar

theorem depth_string (text : String) : (string text).depth = 0 := by
  rw [depth] <;> (intro _ same; cases same)

theorem sorted_array (items : List Json) : (array items).sorted = array (items.map sorted) := by
  rw [sorted, List.map_attach_eq_pmap, List.pmap_eq_map]

theorem sorted_object (members : List (String × Json)) :
    (object members).sorted = object (sortMembers (members.map fun member => (member.1, member.2.sorted))) := by
  rw [sorted, List.map_attach_eq_pmap, List.pmap_eq_map]

theorem foldr_max_le (numbers : List Nat) (bound : Nat) :
    numbers.foldr max 0 ≤ bound ↔ ∀ number ∈ numbers, number ≤ bound := by
  induction numbers with
  | nil => exact ⟨fun _ => List.forall_mem_nil _, fun _ => Nat.zero_le bound⟩
  | cons first rest ih => rw [List.foldr_cons, Nat.max_le, ih, List.forall_mem_cons]

theorem depth_array_le (items : List Json) (room : Nat) :
    (array items).depth ≤ room ↔ 0 < room ∧ ∀ item ∈ items, item.depth ≤ room - 1 := by
  have each : (array items).depth = 1 + (items.map depth).foldr max 0 := by
    rw [depth, List.map_attach_eq_pmap, List.pmap_eq_map]
  have bound := foldr_max_le (items.map depth) (room - 1)
  rw [List.forall_mem_map] at bound
  rw [each, ← bound]
  omega

theorem depth_object_le (members : List (String × Json)) (room : Nat) :
    (object members).depth ≤ room ↔ 0 < room ∧ ∀ member ∈ members, member.2.depth ≤ room - 1 := by
  have each : (object members).depth = 1 + (members.map fun member => member.2.depth).foldr max 0 := by
    rw [depth, List.map_attach_eq_pmap, List.pmap_eq_map]
  have bound := foldr_max_le (members.map fun member => member.2.depth) (room - 1)
  rw [List.forall_mem_map] at bound
  rw [each, ← bound]
  omega

end Values

section Parts

/-- A value stands somewhere in another one, or is that value. -/
inductive Within (part : Json) : Json → Prop
  | self : Within part part
  | item {items item} : item ∈ items → Within part item → Within part (.array items)
  | member {members member} : member ∈ members → Within part member.2 → Within part (.object members)

/-- No object repeats a key. -/
def Distinct (value : Json) : Prop :=
  ∀ members, Within (.object members) value → (members.map Prod.fst).Nodup

/-- The members of every object stand by ascending key. -/
def Ordered (value : Json) : Prop := ∀ members, Within (.object members) value → Ascending members

variable {items : List Json} {members : List (String × Json)}

theorem distinct_array : (array items).Distinct ↔ ∀ item ∈ items, item.Distinct := by
  constructor
  · intro distinct item member inner within
    exact distinct inner (.item member within)
  · rintro each inner (_ | ⟨member, within⟩)
    exact each _ member inner within

theorem distinct_object : (object members).Distinct ↔
    (members.map Prod.fst).Nodup ∧ ∀ member ∈ members, member.2.Distinct := by
  constructor
  · intro distinct
    exact ⟨distinct members .self, fun member inside inner within => distinct inner (.member inside within)⟩
  · rintro ⟨nodup, each⟩ inner within
    cases within with
    | self => exact nodup
    | member inside within => exact each _ inside inner within

theorem ordered_array (each : ∀ item ∈ items, item.Ordered) : (array items).Ordered := by
  rintro inner (_ | ⟨member, within⟩)
  exact each _ member inner within

theorem ordered_object (ascending : Ascending members) (each : ∀ member ∈ members, member.2.Ordered) :
    (object members).Ordered := by
  intro inner within
  cases within with
  | self => exact ascending
  | member inside within => exact each _ inside inner within

theorem ordered_sorted (value : Json) : value.sorted.Ordered := by
  induction value using induct with
  | null | bool | integer | float =>
    rw [sorted_scalar rfl]
    intro inner within
    cases within
  | string text =>
    rw [sorted_string]
    intro inner within
    cases within
  | array items ih =>
    rw [sorted_array]
    apply ordered_array
    rw [List.forall_mem_map]
    exact ih
  | object members ih =>
    rw [sorted_object]
    refine ordered_object (ascending_sortMembers _) ?_
    intro member inside
    obtain ⟨source, within, rfl⟩ := List.mem_map.mp (subset_sortMembers _ inside)
    exact ih source within

end Parts

section Shuffling

/-- One value becomes the other by changes of the order in which members of objects stand. -/
inductive Shuffled : Json → Json → Prop
  | refl {value} : Shuffled value value
  | trans {first second third} : Shuffled first second → Shuffled second third → Shuffled first third
  | members {members other} : members.Perm other → Shuffled (.object members) (.object other)
  | item {before after first second} : Shuffled first second →
      Shuffled (.array (before ++ first :: after)) (.array (before ++ second :: after))
  | member {before after key first second} : Shuffled first second →
      Shuffled (.object (before ++ (key, first) :: after)) (.object (before ++ (key, second) :: after))

/-- The order in which members stand is lost in sorting. -/
theorem Shuffled.sorted_eq {first second : Json} (shuffled : Shuffled first second)
    (distinct : first.Distinct) : second.Distinct ∧ first.sorted = second.sorted := by
  induction shuffled with
  | refl => exact ⟨distinct, rfl⟩
  | trans _ _ ihFirst ihSecond =>
    obtain ⟨middle, same⟩ := ihFirst distinct
    obtain ⟨last, equal⟩ := ihSecond middle
    exact ⟨last, same.trans equal⟩
  | @members members other perm =>
    obtain ⟨nodup, each⟩ := distinct_object.mp distinct
    refine ⟨distinct_object.mpr ⟨(perm.map Prod.fst).nodup_iff.mp nodup, ?_⟩, ?_⟩
    · exact fun member inside => each member (perm.mem_iff.mpr inside)
    · have mapped := perm.map fun member => (member.1, member.2.sorted)
      have keys : ((members.map fun member => (member.1, member.2.sorted)).map Prod.fst).Nodup := by
        rw [List.map_map]
        exact nodup
      rw [sorted_object, sorted_object, sortMembers_eq_of_perm mapped keys]
  | @item before after first second _ ih =>
    rw [distinct_array, List.forall_mem_append, List.forall_mem_cons] at distinct
    obtain ⟨front, here, back⟩ := distinct
    obtain ⟨there, same⟩ := ih here
    constructor
    · rw [distinct_array, List.forall_mem_append, List.forall_mem_cons]
      exact ⟨front, there, back⟩
    · rw [sorted_array, sorted_array]
      simp only [List.map_append, List.map_cons, same]
  | @member before after key first second _ ih =>
    rw [distinct_object, List.forall_mem_append, List.forall_mem_cons] at distinct
    obtain ⟨nodup, front, here, back⟩ := distinct
    obtain ⟨there, same⟩ := ih here
    constructor
    · rw [distinct_object, List.forall_mem_append, List.forall_mem_cons]
      refine ⟨?_, front, there, back⟩
      simp only [List.map_append, List.map_cons] at nodup ⊢
      exact nodup
    · rw [sorted_object, sorted_object]
      simp only [List.map_append, List.map_cons, same]

theorem depth_le_of_perm {members other : List (String × Json)} (perm : members.Perm other) (room : Nat) :
    (object members).depth ≤ room ↔ (object other).depth ≤ room := by
  rw [depth_object_le, depth_object_le]
  exact and_congr_right fun _ => ⟨fun each member inside => each member (perm.mem_iff.mpr inside),
    fun each member inside => each member (perm.mem_iff.mp inside)⟩

/-- Neither is a value nested more or less deeply for it. -/
theorem Shuffled.depth_le_iff {first second : Json} (shuffled : Shuffled first second) (room : Nat) :
    first.depth ≤ room ↔ second.depth ≤ room := by
  induction shuffled generalizing room with
  | refl => rfl
  | trans _ _ ihFirst ihSecond => exact (ihFirst room).trans (ihSecond room)
  | members perm => exact depth_le_of_perm perm room
  | item _ ih =>
    simp only [depth_array_le, List.forall_mem_append, List.forall_mem_cons, ih]
  | member _ ih =>
    simp only [depth_object_le, List.forall_mem_append, List.forall_mem_cons, ih]

end Shuffling

end Json

end CilListing
