namespace CilListing

/-- The flag bits at the front of a method body. The two low bits name its format. -/
structure BodyFlags where
  bits : UInt16
deriving DecidableEq, Repr

namespace BodyFlags

def tiny : BodyFlags := ⟨0x2⟩

def fat : BodyFlags := ⟨0x3⟩

def moreSections : BodyFlags := ⟨0x8⟩

def initLocals : BodyFlags := ⟨0x10⟩

/-- The bits that some flag uses. -/
def known : UInt16 := 0x1B

/-- The flags of a word, without the bits that no flag uses. -/
def ofWord (word : UInt16) : BodyFlags := ⟨word &&& known⟩

/-- Whether a word has no bit but those that flags use. -/
def isExact (word : UInt16) : Bool := word &&& known == word

/-- Whether every bit of `flag` is set. -/
def contains (flags flag : BodyFlags) : Bool := flags.bits &&& flag.bits == flag.bits

end BodyFlags

end CilListing
