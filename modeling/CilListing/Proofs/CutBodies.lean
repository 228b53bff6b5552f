import CilListing.Proofs.BodyFormat

namespace CilListing

namespace MethodBody

/-- The bytes of the code lie in the data behind the header, all of them and in one piece. -/
structure CodeWithin (body : MethodBody) (data : List UInt8) : Prop where
  split : ∃ front back, data = front ++ body.code data ++ back ∧ front.length = body.headerSize
  length : (body.code data).length = body.codeSize

section Cut

variable {data : List UInt8} {body : MethodBody} {size : Nat}

/-- A field is the same in a front that it lies in. -/
theorem field_take {position width : Nat} (within : position + width ≤ size) :
    field (data.take size) position width = field data position width := by
  rw [field, field, List.drop_take, List.take_take, Nat.min_eq_left (by omega)]

/-- The header byte of a tiny body tells at once that the body is cut. -/
theorem parseTiny_take {first : UInt8} (read : parseTiny first data = .ok body) (short : size < body.size) :
    parseTiny first (data.take size) = .error .cut := by
  rw [parseTiny] at read ⊢
  split at read
  · cases read
  · cases read
    have less : size < first.toNat / 4 + 1 := short
    have lacks : (data.take size).length < first.toNat / 4 + 1 := by
      rw [List.length_take]
      omega
    exact if_pos lacks

/-- What a fat body says about its size, and what there is of it. -/
theorem sizes_of_parseFat (read : parseFat data = .ok body) :
    body.headerSize = field data 0 2 / 4096 * 4 ∧ body.codeSize = field data 4 4 ∧
      12 ≤ body.headerSize ∧ body.size ≤ data.length := by
  simp only [parseFat] at read
  split at read
  · cases read
  · split at read
    · cases read
    · next least =>
      split at read
      · cases read
      · next enough =>
        cases read
        refine ⟨rfl, rfl, Nat.not_lt.mp least, ?_⟩
        rw [MethodBody.size, Nat.add_comm]
        exact Nat.not_lt.mp enough

/-- A fat body lacks bytes wherever it is cut: within the twelve bytes that every header has, or
behind them, where the header still says how much is to follow. -/
theorem parseFat_take (read : parseFat data = .ok body) (short : size < body.size) :
    parseFat (data.take size) = .error .cut := by
  obtain ⟨header, code, least, within⟩ := sizes_of_parseFat read
  have length : (data.take size).length = size := by
    rw [List.length_take]
    omega
  simp only [parseFat, length]
  by_cases few : size < 12
  · exact if_pos few
  · have word : field (data.take size) 0 2 = field data 0 2 := field_take (by omega)
    have announced : field (data.take size) 4 4 = field data 4 4 := field_take (by omega)
    rw [word, announced, ← header, ← code]
    refine (if_neg few).trans ((if_neg (Nat.not_lt.mpr least)).trans (if_pos ?_))
    rwa [Nat.add_comm]

/-- A body of which the first byte is there and the last is not is cut, never malformed. -/
theorem parse_take_of_lt (read : parse data = .ok body) (positive : 0 < size) (short : size < body.size) :
    parse (data.take size) = .error .cut := by
  cases data with
  | nil => cases read
  | cons first rest =>
    obtain ⟨before, rfl⟩ : ∃ before, size = before + 1 := ⟨size - 1, by omega⟩
    rw [List.take_succ_cons, parse_cons]
    rw [parse_cons] at read
    split at read
    · next tiny =>
      rw [if_pos tiny]
      exact parseTiny_take read short
    · next other =>
      rw [if_neg other]
      split at read
      · next fat =>
        rw [if_pos fat]
        exact parseFat_take read short
      · cases read

/-- What stands behind a body may be cut off. -/
theorem parse_take_of_le (read : parse data = .ok body) (enough : body.size ≤ size) :
    parse (data.take size) = .ok body := by
  obtain ⟨source, trailing, rfl, rfl⟩ := exists_written_of_parse read
  rw [size_announced] at enough
  rw [List.take_append, List.take_of_length_le enough, parse_written]

theorem codeWithin_of_le (enough : body.size ≤ data.length) : body.CodeWithin data := by
  have code : body.code data = (data.drop body.headerSize).take body.codeSize := by
    rw [MethodBody.code, if_neg (by omega)]
  rw [MethodBody.size] at enough
  constructor
  case split =>
    refine ⟨data.take body.headerSize, data.drop (body.headerSize + body.codeSize), ?_, ?_⟩
    · rw [code, List.append_assoc, ← List.drop_drop, List.take_append_drop, List.take_append_drop]
    · rw [List.length_take]
      omega
  case length =>
    rw [code]
    exact length_field (by omega)

end Cut

/-- Bytes that hold a body tell at every place where they are cut whether the body is still there, and
where it is not they fail for want of bytes. The code of a body is all there or not there at all. -/
theorem parse_take_detects (data : List UInt8) (body : MethodBody) (read : parse data = .ok body) :
    (∀ size, (parse (data.take size)).mapError Fault.error =
      if size = 0 then .error .empty
      else if size < body.size then .error (.outOfBounds .unnamed)
      else .ok body) ∧
    ∀ other : List UInt8, (body.size ≤ other.length → body.CodeWithin other) ∧
      (other.length < body.size → body.code other = []) := by
  constructor
  · intro size
    split
    · next none =>
      subst none
      rfl
    · next positive =>
      split
      · next short =>
        rw [parse_take_of_lt read (by omega) short]
        rfl
      · next enough =>
        rw [parse_take_of_le read (by omega)]
        rfl
  · intro other
    refine ⟨codeWithin_of_le, ?_⟩
    intro short
    rw [code, if_pos short]

/-- A fat body with one word more in its header than it needs, cut inside of that word. -/
theorem parse_take_detects_fourWords :
    let data : List UInt8 := [0x03, 0x40, 5, 0, 1, 0, 0, 0, 0, 0, 0, 0, 9, 9, 9, 9, 0x2A, 7]
    let body : MethodBody := ⟨1, 16, ⟨0⟩, 5, true, false, false⟩
    parse data = .ok body ∧
      (parse (data.take 14)).mapError Fault.error = .error (.outOfBounds .unnamed) ∧
      (parse (data.take 17)).mapError Fault.error = .ok body ∧
      body.CodeWithin (data.take 17) ∧ body.code (data.take 16) = [] := by
  intro data body
  have read : parse data = .ok body := by decide +kernel
  obtain ⟨cuts, codes⟩ := parse_take_detects data body read
  exact ⟨read, cuts 14, cuts 17, (codes (data.take 17)).1 (by decide), (codes (data.take 16)).2 (by decide)⟩

end MethodBody

end CilListing
