import CilListing.Opcode.Kind

namespace CilListing

/-- An opcode as its encoding describes it. -/
structure Opcode where
  mnemonic : String
  kind : OperandKind
deriving DecidableEq, Repr

namespace Opcode

/-- Stands for every byte that encodes no instruction. -/
def unknown : Opcode := ⟨"unknown", .none⟩

def isDefined (opcode : Opcode) : Bool := opcode != unknown

/-- The byte that leads every two-byte opcode. -/
def escape : UInt8 := 0xFE

/-- The opcodes of one byte, by ascending byte. -/
def singles : List (UInt8 × Opcode) :=
  [(0x00, ⟨"nop", .none⟩),
   (0x01, ⟨"break", .none⟩),
   (0x02, ⟨"ldarg.0", .none⟩),
   (0x03, ⟨"ldarg.1", .none⟩),
   (0x04, ⟨"ldarg.2", .none⟩),
   (0x05, ⟨"ldarg.3", .none⟩),
   (0x06, ⟨"ldloc.0", .none⟩),
   (0x07, ⟨"ldloc.1", .none⟩),
   (0x08, ⟨"ldloc.2", .none⟩),
   (0x09, ⟨"ldloc.3", .none⟩),
   (0x0A, ⟨"stloc.0", .none⟩),
   (0x0B, ⟨"stloc.1", .none⟩),
   (0x0C, ⟨"stloc.2", .none⟩),
   (0x0D, ⟨"stloc.3", .none⟩),
   (0x0E, ⟨"ldarg.s", .shortVarIndex⟩),
   (0x0F, ⟨"ldarga.s", .shortVarIndex⟩),
   (0x10, ⟨"starg.s", .shortVarIndex⟩),
   (0x11, ⟨"ldloc.s", .shortVarIndex⟩),
   (0x12, ⟨"ldloca.s", .shortVarIndex⟩),
   (0x13, ⟨"stloc.s", .shortVarIndex⟩),
   (0x14, ⟨"ldnull", .none⟩),
   (0x15, ⟨"ldc.i4.m1", .none⟩),
   (0x16, ⟨"ldc.i4.0", .none⟩),
   (0x17, ⟨"ldc.i4.1", .none⟩),
   (0x18, ⟨"ldc.i4.2", .none⟩),
   (0x19, ⟨"ldc.i4.3", .none⟩),
   (0x1A, ⟨"ldc.i4.4", .none⟩),
   (0x1B, ⟨"ldc.i4.5", .none⟩),
   (0x1C, ⟨"ldc.i4.6", .none⟩),
   (0x1D, ⟨"ldc.i4.7", .none⟩),
   (0x1E, ⟨"ldc.i4.8", .none⟩),
   (0x1F, ⟨"ldc.i4.s", .constByte⟩),
   (0x20, ⟨"ldc.i4", .constInt32⟩),
   (0x21, ⟨"ldc.i8", .constInt64⟩),
   (0x22, ⟨"ldc.r4", .constFloat32⟩),
   (0x23, ⟨"ldc.r8", .constFloat64⟩),
   (0x25, ⟨"dup", .none⟩),
   (0x26, ⟨"pop", .none⟩),
   (0x27, ⟨"jmp", .methodToken⟩),
   (0x28, ⟨"call", .methodToken⟩),
   (0x29, ⟨"calli", .genericToken⟩),
   (0x2A, ⟨"ret", .none⟩),
   (0x2B, ⟨"br.s", .shortBranchTarget⟩),
   (0x2C, ⟨"brfalse.s", .shortBranchTarget⟩),
   (0x2D, ⟨"brtrue.s", .shortBranchTarget⟩),
   (0x2E, ⟨"beq.s", .shortBranchTarget⟩),
   (0x2F, ⟨"bge.s", .shortBranchTarget⟩),
   (0x30, ⟨"bgt.s", .shortBranchTarget⟩),
   (0x31, ⟨"ble.s", .shortBranchTarget⟩),
   (0x32, ⟨"blt.s", .shortBranchTarget⟩),
   (0x33, ⟨"bne.un.s", .shortBranchTarget⟩),
   (0x34, ⟨"bge.un.s", .shortBranchTarget⟩),
   (0x35, ⟨"bgt.un.s", .shortBranchTarget⟩),
   (0x36, ⟨"ble.un.s", .shortBranchTarget⟩),
   (0x37, ⟨"blt.un.s", .shortBranchTarget⟩),
   (0x38, ⟨"br", .longBranchTarget⟩),
   (0x39, ⟨"brfalse", .longBranchTarget⟩),
   (0x3A, ⟨"brtrue", .longBranchTarget⟩),
   (0x3B, ⟨"beq", .longBranchTarget⟩),
   (0x3C, ⟨"bge", .longBranchTarget⟩),
   (0x3D, ⟨"bgt", .longBranchTarget⟩),
   (0x3E, ⟨"ble", .longBranchTarget⟩),
   (0x3F, ⟨"blt", .longBranchTarget⟩),
   (0x40, ⟨"bne.un", .longBranchTarget⟩),
   (0x41, ⟨"bge.un", .longBranchTarget⟩),
   (0x42, ⟨"bgt.un", .longBranchTarget⟩),
   (0x43, ⟨"ble.un", .longBranchTarget⟩),
   (0x44, ⟨"blt.un", .longBranchTarget⟩),
   (0x45, ⟨"switch", .switch⟩),
   (0x46, ⟨"ldind.i1", .none⟩),
   (0x47, ⟨"ldind.u1", .none⟩),
   (0x48, ⟨"ldind.i2", .none⟩),
   (0x49, ⟨"ldind.u2", .none⟩),
   (0x4A, ⟨"ldind.i4", .none⟩),
   (0x4B, ⟨"ldind.u4", .none⟩),
   (0x4C, ⟨"ldind.i8", .none⟩),
   (0x4D, ⟨"ldind.i", .none⟩),
   (0x4E, ⟨"ldind.r4", .none⟩),
   (0x4F, ⟨"ldind.r8", .none⟩),
   (0x50, ⟨"ldind.ref", .none⟩),
   (0x51, ⟨"stind.ref", .none⟩),
   (0x52, ⟨"stind.i1", .none⟩),
   (0x53, ⟨"stind.i2", .none⟩),
   (0x54, ⟨"stind.i4", .none⟩),
   (0x55, ⟨"stind.i8", .none⟩),
   (0x56, ⟨"stind.r4", .none⟩),
   (0x57, ⟨"stind.r8", .none⟩),
   (0x58, ⟨"add", .none⟩),
   (0x59, ⟨"sub", .none⟩),
   (0x5A, ⟨"mul", .none⟩),
   (0x5B, ⟨"div", .none⟩),
   (0x5C, ⟨"div.un", .none⟩),
   (0x5D, ⟨"rem", .none⟩),
   (0x5E, ⟨"rem.un", .none⟩),
   (0x5F, ⟨"and", .none⟩),
   (0x60, ⟨"or", .none⟩),
   (0x61, ⟨"xor", .none⟩),
   (0x62, ⟨"shl", .none⟩),
   (0x63, ⟨"shr", .none⟩),
   (0x64, ⟨"shr.un", .none⟩),
   (0x65, ⟨"neg", .none⟩),
   (0x66, ⟨"not", .none⟩),
   (0x67, ⟨"conv.i1", .none⟩),
   (0x68, ⟨"conv.i2", .none⟩),
   (0x69, ⟨"conv.i4", .none⟩),
   (0x6A, ⟨"conv.i8", .none⟩),
   (0x6B, ⟨"conv.r4", .none⟩),
   (0x6C, ⟨"conv.r8", .none⟩),
   (0x6D, ⟨"conv.u4", .none⟩),
   (0x6E, ⟨"conv.u8", .none⟩),
   (0x6F, ⟨"callvirt", .methodToken⟩),
   (0x70, ⟨"cpobj", .typeToken⟩),
   (0x71, ⟨"ldobj", .typeToken⟩),
   (0x72, ⟨"ldstr", .stringToken⟩),
   (0x73, ⟨"newobj", .methodToken⟩),
   (0x74, ⟨"castclass", .typeToken⟩),
   (0x75, ⟨"isinst", .typeToken⟩),
   (0x76, ⟨"conv.r.un", .none⟩),
   (0x79, ⟨"unbox", .typeToken⟩),
   (0x7A, ⟨"throw", .none⟩),
   (0x7B, ⟨"ldfld", .fieldToken⟩),
   (0x7C, ⟨"ldflda", .fieldToken⟩),
   (0x7D, ⟨"stfld", .fieldToken⟩),
   (0x7E, ⟨"ldsfld", .fieldToken⟩),
   (0x7F, ⟨"ldsflda", .fieldToken⟩),
   (0x80, ⟨"stsfld", .fieldToken⟩),
   (0x81, ⟨"stobj", .typeToken⟩),
   (0x82, ⟨"conv.ovf.i1.un", .none⟩),
   (0x83, ⟨"conv.ovf.i2.un", .none⟩),
   (0x84, ⟨"conv.ovf.i4.un", .none⟩),
   (0x85, ⟨"conv.ovf.i8.un", .none⟩),
   (0x86, ⟨"conv.ovf.u1.un", .none⟩),
   (0x87, ⟨"conv.ovf.u2.un", .none⟩),
   (0x88, ⟨"conv.ovf.u4.un", .none⟩),
   (0x89, ⟨"conv.ovf.u8.un", .none⟩),
   (0x8A, ⟨"conv.ovf.i.un", .none⟩),
   (0x8B, ⟨"conv.ovf.u.un", .none⟩),
   (0x8C, ⟨"box", .typeToken⟩),
   (0x8D, ⟨"newarr", .typeToken⟩),
   (0x8E, ⟨"ldlen", .none⟩),
   (0x8F, ⟨"ldelema", .typeToken⟩),
   (0x90, ⟨"ldelem.i1", .none⟩),
   (0x91, ⟨"ldelem.u1", .none⟩),
   (0x92, ⟨"ldelem.i2", .none⟩),
   (0x93, ⟨"ldelem.u2", .none⟩),
   (0x94, ⟨"ldelem.i4", .none⟩),
   (0x95, ⟨"ldelem.u4", .none⟩),
   (0x96, ⟨"ldelem.i8", .none⟩),
   (0x97, ⟨"ldelem.i", .none⟩),
   (0x98, ⟨"ldelem.r4", .none⟩),
   (0x99, ⟨"ldelem.r8", .none⟩),
   (0x9A, ⟨"ldelem.ref", .none⟩),
   (0x9B, ⟨"stelem.i", .none⟩),
   (0x9C, ⟨"stelem.i1", .none⟩),
   (0x9D, ⟨"stelem.i2", .none⟩),
   (0x9E, ⟨"stelem.i4", .none⟩),
   (0x9F, ⟨"stelem.i8", .none⟩),
   (0xA0, ⟨"stelem.r4", .none⟩),
   (0xA1, ⟨"stelem.r8", .none⟩),
   (0xA2, ⟨"stelem.ref", .none⟩),
   (0xA3, ⟨"ldelem", .typeToken⟩),
   (0xA4, ⟨"stelem", .typeToken⟩),
   (0xA5, ⟨"unbox.any", .typeToken⟩),
   (0xB3, ⟨"conv.ovf.i1", .none⟩),
   (0xB4, ⟨"conv.ovf.u1", .none⟩),
   (0xB5, ⟨"conv.ovf.i2", .none⟩),
   (0xB6, ⟨"conv.ovf.u2", .none⟩),
   (0xB7, ⟨"conv.ovf.i4", .none⟩),
   (0xB8, ⟨"conv.ovf.u4", .none⟩),
   (0xB9, ⟨"conv.ovf.i8", .none⟩),
   (0xBA, ⟨"conv.ovf.u8", .none⟩),
   (0xC2, ⟨"refanyval", .typeToken⟩),
   (0xC3, ⟨"ckfinite", .none⟩),
   (0xC6, ⟨"mkrefany", .typeToken⟩),
   (0xD0, ⟨"ldtoken", .genericToken⟩),
   (0xD1, ⟨"conv.u2", .none⟩),
   (0xD2, ⟨"conv.u1", .none⟩),
   (0xD3, ⟨"conv.i", .none⟩),
   (0xD4, ⟨"conv.ovf.i", .none⟩),
   (0xD5, ⟨"conv.ovf.u", .none⟩),
   (0xD6, ⟨"add.ovf", .none⟩),
   (0xD7, ⟨"add.ovf.un", .none⟩),
   (0xD8, ⟨"mul.ovf", .none⟩),
   (0xD9, ⟨"mul.ovf.un", .none⟩),
   (0xDA, ⟨"sub.ovf", .none⟩),
   (0xDB, ⟨"sub.ovf.un", .none⟩),
   (0xDC, ⟨"endfinally", .none⟩),
   (0xDD, ⟨"leave", .longBranchTarget⟩),
   (0xDE, ⟨"leave.s", .shortBranchTarget⟩),
   (0xDF, ⟨"stind.i", .none⟩),
   (0xE0, ⟨"conv.u", .none⟩)]

/-- The opcodes behind the escape byte, by ascending second byte. -/
def escaped : List (UInt8 × Opcode) :=
  [(0x00, ⟨"arglist", .none⟩),
   (0x01, ⟨"ceq", .none⟩),
   (0x02, ⟨"cgt", .none⟩),
   (0x03, ⟨"cgt.un", .none⟩),
   (0x04, ⟨"clt", .none⟩),
   (0x05, ⟨"clt.un", .none⟩),
   (0x06, ⟨"ldftn", .methodToken⟩),
   (0x07, ⟨"ldvirtftn", .methodToken⟩),
   (0x09, ⟨"ldarg", .varIndex⟩),
   (0x0A, ⟨"ldarga", .varIndex⟩),
   (0x0B, ⟨"starg", .varIndex⟩),
   (0x0C, ⟨"ldloc", .varIndex⟩),
   (0x0D, ⟨"ldloca", .varIndex⟩),
   (0x0E, ⟨"stloc", .varIndex⟩),
   (0x0F, ⟨"localloc", .none⟩),
   (0x11, ⟨"endfilter", .none⟩),
   (0x12, ⟨"unaligned.", .constByte⟩),
   (0x13, ⟨"volatile.", .none⟩),
   (0x14, ⟨"tail.", .none⟩),
   (0x15, ⟨"initobj", .typeToken⟩),
   (0x16, ⟨"constrained.", .typeToken⟩),
   (0x17, ⟨"cpblk", .none⟩),
   (0x18, ⟨"initblk", .none⟩),
   (0x19, ⟨"no.", .constByte⟩),
   (0x1A, ⟨"rethrow", .none⟩),
   (0x1C, ⟨"sizeof", .typeToken⟩),
   (0x1D, ⟨"refanytype", .none⟩),
   (0x1E, ⟨"readonly.", .none⟩)]

/-- The opcode that one byte encodes. -/
def ofByte (byte : UInt8) : Opcode := (singles.lookup byte).getD unknown

/-- The opcode that the escape byte and `byte` encode. -/
def ofEscaped (byte : UInt8) : Opcode := (escaped.lookup byte).getD unknown

/-- The code of an escaped opcode: the escape byte above the second byte. -/
def escapedCode (byte : UInt8) : UInt16 := 0xFE00 ||| byte.toUInt16

/-- The opcode that a code stands for. Codes above `0xFF` are escaped by their low byte. -/
def ofCode (code : UInt16) : Opcode :=
  if code > 0xFF then ofEscaped code.toUInt8 else ofByte code.toUInt8

/-- Every opcode under its code, by ascending code. -/
def defined : List (UInt16 × Opcode) :=
  singles.map (fun (byte, opcode) => (byte.toUInt16, opcode)) ++
    escaped.map (fun (byte, opcode) => (escapedCode byte, opcode))

end Opcode

end CilListing
