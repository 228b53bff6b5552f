import CilListing.Listing
import CilListing.Metadata.Symbols
import CilListing.Proofs.BackendAgreement
import CilListing.Proofs.BodyFormat

namespace CilListing

/-- An event in which a backend is asked for something. -/
def Event.isLookup : Event → Bool
  | asked .. | askedLocals _ => true
  | noted _ => false

/-- The lookups on the way to a result, in order. -/
def Traced.lookups {α : Type} (traced : Traced α) : List Event := traced.events.filter Event.isLookup

namespace MethodBody

/-- The header of a body whose signature token the backend is taken at its word for. Where there is
no token or no answer, there are no locals. -/
def headerFrom (backend : Backend) (body : MethodBody) : MethodHeader where
  hasBody := true
  maxStack := body.maxStack
  localTypes :=
    if body.localsToken.isNull then []
    else match backend.locals body.localsToken with
      | .found types => types
      | .failed _ | .crashed _ => []

end MethodBody

/-- The listing of the method whose body stands at the front of the bytes. -/
def bodyListing (backend : Backend) (options : ListingOptions) (data : List UInt8) :
    Except MethodBody.Fault (Traced String) :=
  (MethodBody.parse data).map fun body =>
    disassemble (body.code data) (MethodHeader.ofBody backend body).value backend options

namespace MethodHeader

theorem ofBody_value (backend : Backend) (body : MethodBody) :
    (ofBody backend body).value = body.headerFrom backend := by
  rw [ofBody, MethodBody.headerFrom]
  split
  · rfl
  · rw [Traced.map, lookupLocals_value]
    cases backend.locals body.localsToken <;> rfl

/-- However a lookup of locals ends, it is a single one. -/
theorem lookups_lookupLocals (backend : Backend) (token : Token) :
    (lookupLocals backend token).lookups = [.askedLocals token] := by
  rw [lookupLocals]
  cases backend.locals token <;> rfl

theorem lookups_ofBody (backend : Backend) (body : MethodBody) :
    (ofBody backend body).lookups =
      if body.localsToken.isNull then [] else [.askedLocals body.localsToken] := by
  rw [ofBody]
  split
  · rfl
  · exact lookups_lookupLocals backend body.localsToken

end MethodHeader

namespace MethodBody

variable {data : List UInt8} {body : MethodBody}

theorem parse_append (read : parse data = .ok body) (suffix : List UInt8) :
    parse (data ++ suffix) = .ok body := by
  obtain ⟨source, trailing, rfl, rfl⟩ := exists_written_of_parse read
  rw [List.append_assoc, parse_written]

/-- Bytes that are read as a body fall into its header, its code and a rest that does not matter. -/
theorem exists_split_of_parse (read : parse data = .ok body) :
    ∃ front code rest, data = front ++ code ++ rest ∧ front.length = body.headerSize ∧
      code.length = body.codeSize ∧ ∀ suffix, body.code (data ++ suffix) = code := by
  obtain ⟨source, trailing, rfl, rfl⟩ := exists_written_of_parse read
  refine ⟨source.header, source.code, trailing, rfl, length_header source,
    (codeSize_announced source).symm, ?_⟩
  intro suffix
  rw [List.append_assoc, code_written]

theorem bodyListing_of_parse (read : parse data = .ok body) (backend : Backend) (options : ListingOptions) :
    bodyListing backend options data =
      .ok (disassemble (body.code data) (body.headerFrom backend) backend options) := by
  rw [bodyListing, read, ← MethodHeader.ofBody_value]
  rfl

theorem headerFrom_congr {other : MethodBody} (stack : other.maxStack = body.maxStack)
    (token : other.localsToken = body.localsToken) (backend : Backend) :
    other.headerFrom backend = body.headerFrom backend := by
  rw [headerFrom, headerFrom, stack, token]

end MethodBody

/-- A raw body is listed as its code alone would be, under the header that it announces. Neither what
follows the code nor what else stands in front of it has a say in the listing. -/
theorem bodyListing_of_announced {data : List UInt8} {body : MethodBody}
    (read : MethodBody.parse data = .ok body) :
    (∃ front code rest, data = front ++ code ++ rest ∧ front.length = body.headerSize ∧
      code.length = body.codeSize ∧ ∀ (suffix : List UInt8) (backend : Backend) (options : ListingOptions),
        MethodBody.parse (data ++ suffix) = .ok body ∧
        disassemble (body.code (data ++ suffix)) (MethodHeader.ofBody backend body).value backend options =
          disassemble code (body.headerFrom backend) backend options ∧
        (MethodHeader.ofBody backend body).lookups =
          if body.localsToken.isNull then [] else [.askedLocals body.localsToken]) ∧
    ∀ (other : List UInt8) (otherBody : MethodBody), MethodBody.parse other = .ok otherBody →
      otherBody.code other = body.code data → otherBody.maxStack = body.maxStack →
      otherBody.localsToken = body.localsToken → ∀ (backend : Backend) (options : ListingOptions),
        bodyListing backend options other = bodyListing backend options data := by
  constructor
  · obtain ⟨front, code, rest, split, frontLength, codeLength, slice⟩ :=
      MethodBody.exists_split_of_parse read
    refine ⟨front, code, rest, split, frontLength, codeLength, ?_⟩
    intro suffix backend options
    refine ⟨MethodBody.parse_append read suffix, ?_, MethodHeader.lookups_ofBody backend body⟩
    rw [slice suffix, MethodHeader.ofBody_value]
  · intro other otherBody otherRead code stack token backend options
    rw [MethodBody.bodyListing_of_parse otherRead, MethodBody.bodyListing_of_parse read, code,
      MethodBody.headerFrom_congr stack token]

/-- The same single instruction in a tiny body and in a fat one, with a header word more than needed
and a data section behind the code. -/
theorem bodyListing_of_announced_tinyAndFat :
    MethodBody.parse [0x06, 0x2A] = .ok ⟨1, 1, ⟨0⟩, 8, false, false, false⟩ ∧
      bodyListing Symbols.empty.backend {}
          [0x0B, 0x40, 8, 0, 1, 0, 0, 0, 0, 0, 0, 0, 9, 9, 9, 9, 0x2A, 7, 7] =
        bodyListing Symbols.empty.backend {} [0x06, 0x2A] := by
  have tiny : MethodBody.parse [0x06, 0x2A] = .ok ⟨1, 1, ⟨0⟩, 8, false, false, false⟩ := by
    decide +kernel
  have fat : MethodBody.parse [0x0B, 0x40, 8, 0, 1, 0, 0, 0, 0, 0, 0, 0, 9, 9, 9, 9, 0x2A, 7, 7] =
      .ok ⟨1, 16, ⟨0⟩, 8, true, false, true⟩ := by decide +kernel
  exact ⟨tiny, (bodyListing_of_announced tiny).2 _ _ fat rfl rfl rfl _ _⟩

end CilListing
