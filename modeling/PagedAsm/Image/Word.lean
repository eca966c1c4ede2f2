import PagedAsm.InstructionSet.Basic

/-!
# Instruction words

An instruction is one 16-bit word: bit 15 is the memory flag (the operand is an address), bits
7 to 14 hold the 8-bit operand value and bits 0 to 6 the opcode. A word reads back as the
mnemonic of its opcode (`??N` for an unassigned opcode N), followed by `$v` when the flag is
set, by `v` when the value is not zero, and by nothing otherwise.
-/

namespace PagedAsm

/-- A 16-bit instruction word. -/
structure Word where
  bits : UInt16
  deriving DecidableEq, Repr

namespace Word

def make (flag : Bool) (value : UInt8) (opcode : UInt8) : Word :=
  let base := (value.toUInt16 <<< 7) ||| (opcode &&& 0x7F).toUInt16
  ⟨if flag then base ||| 0x8000 else base⟩

/-- The memory flag. -/
def flag (w : Word) : Bool := w.bits >>> 15 != 0

def value (w : Word) : UInt8 := ((w.bits >>> 7) &&& 0xFF).toUInt8

/-- The opcode. -/
def opcode (w : Word) : UInt8 := (w.bits &&& 0x7F).toUInt8

/-- The text of a word under an instruction set. -/
def disassemble (set : InstructionSet) (w : Word) : String :=
  let name := (set.mnemonic? w.opcode.toNat).getD ("??" ++ toString w.opcode.toNat)
  if w.flag then name ++ " $" ++ toString w.value.toNat
  else if w.value != 0 then name ++ " " ++ toString w.value.toNat
  else name

end Word

end PagedAsm
