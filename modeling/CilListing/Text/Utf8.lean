namespace CilListing

/-- Where bytes stop being UTF-8, and how many of them are wrong. The number is
missing where the bytes end too early. -/
structure Utf8Fault where
  index : Nat
  length : Option Nat
deriving DecidableEq, Repr

def Utf8Fault.message (fault : Utf8Fault) : String :=
  match fault.length with
  | some length =>
    "invalid utf-8 sequence of " ++ toString length ++ " bytes from index " ++ toString fault.index
  | none => "incomplete utf-8 byte sequence from index " ++ toString fault.index

/-- What the first byte of a character announces: its own share of the code point, the number
of bytes to follow, and the bounds of the next one. Later ones lie between `0x80` and `0xBF`. -/
structure Utf8Lead where
  share : Nat
  follow : Nat
  low : UInt8
  high : UInt8
deriving DecidableEq, Repr

def Utf8Lead.ofByte? (byte : UInt8) : Option Utf8Lead :=
  let value := byte.toNat
  if byte < 0x80 then some ⟨value, 0, 0x80, 0xBF⟩
  else if byte < 0xC2 then none
  else if byte < 0xE0 then some ⟨value % 32, 1, 0x80, 0xBF⟩
  else if byte = 0xE0 then some ⟨value % 16, 2, 0xA0, 0xBF⟩
  else if byte = 0xED then some ⟨value % 16, 2, 0x80, 0x9F⟩
  else if byte < 0xF0 then some ⟨value % 16, 2, 0x80, 0xBF⟩
  else if byte = 0xF0 then some ⟨value % 8, 3, 0x90, 0xBF⟩
  else if byte < 0xF4 then some ⟨value % 8, 3, 0x80, 0xBF⟩
  else if byte = 0xF4 then some ⟨value % 8, 3, 0x80, 0x8F⟩
  else none

/-- Reads the bytes that follow a first byte into a code point. A byte out of bounds
makes all bytes before it wrong. -/
def readFollowing : Nat → UInt8 → UInt8 → Nat → Nat → List UInt8 → Except (Option Nat) Nat
  | 0, _, _, _, point, _ => .ok point
  | _ + 1, _, _, _, _, [] => .error none
  | follow + 1, low, high, passed, point, byte :: rest =>
    if low ≤ byte ∧ byte ≤ high then
      readFollowing follow 0x80 0xBF (passed + 1) (point * 64 + byte.toNat % 64) rest
    else .error (some passed)

/-- The code point at the front of the bytes and the number of bytes behind the first. -/
def readCodePoint (first : UInt8) (rest : List UInt8) : Except (Option Nat) (Nat × Nat) :=
  match Utf8Lead.ofByte? first with
  | none => .error (some 1)
  | some lead =>
    (readFollowing lead.follow lead.low lead.high 1 lead.share rest).map fun point =>
      (point, lead.follow)

/-- Reads characters behind those already read, which stand in reverse order. -/
def decodeUtf8From (done : List Char) (index : Nat) : List UInt8 → Except Utf8Fault (List Char)
  | [] => .ok done.reverse
  | first :: rest =>
    match readCodePoint first rest with
    | .error length => .error ⟨index, length⟩
    | .ok (point, follow) =>
      decodeUtf8From (Char.ofNat point :: done) (index + 1 + follow) (rest.drop follow)
termination_by bytes => bytes.length
decreasing_by
  rw [List.length_drop, List.length_cons]
  omega

def decodeUtf8 (bytes : List UInt8) : Except Utf8Fault (List Char) := decodeUtf8From [] 0 bytes

end CilListing
