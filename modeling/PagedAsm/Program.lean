import PagedAsm.Diagnostic

/-!
# Programs

A compiled program is a list of instructions, the extension packages it includes (in order of
first inclusion) and the warnings raised while compiling it. An instruction has a mnemonic and
an operand of one of four kinds. Integer and pointer operands hold their value modulo 256; a
label operand holds the index of the instruction it names, which may exceed 255. Page switches
that the assembler inserted are marked synthetic.
-/

namespace PagedAsm

/-- The kinds of operand. -/
inductive OperandKind where
  | none | integer | pointer | label
  deriving DecidableEq, Repr

/-- The name of an operand kind in listings of compiled code. -/
def OperandKind.name : OperandKind → String
  | .none => "NONE"
  | .integer => "INTEGER"
  | .pointer => "POINTER"
  | .label => "LABEL"

/-- An instruction of a compiled program, with the line and span of the statement it comes
from. -/
structure Instruction where
  mnemonic : String
  kind : OperandKind
  value : Int
  line : Nat
  span : Span
  synthetic : Bool := false
  deriving DecidableEq, Repr

namespace Instruction

def memoryFlag (i : Instruction) : Bool :=
  i.kind = .pointer ∨ i.kind = .label

/-- The text of an instruction: `M`, `M v`, or `M $v` for an address. -/
def text (i : Instruction) : String :=
  match i.kind with
  | .none => i.mnemonic
  | .integer => i.mnemonic ++ " " ++ toString i.value
  | .pointer | .label => i.mnemonic ++ " $" ++ toString i.value

end Instruction

/-- A compiled program. -/
structure Program where
  instructions : List Instruction
  includes : List String
  warnings : List Diagnostic
  deriving Repr

end PagedAsm
