/-!
# The instruction set

The CPU has 7-bit opcodes, each named by a mnemonic. Some instructions leave the accumulator
untouched (`nonModifying`); jumps take a ROM address as operand. Programs may ask for extension
packages by name. An `InstructionSet` lists the opcodes in the order they were declared and the
packages; `InstructionSet.standard` is the table of the CPU, version `1.1 `.
-/

namespace PagedAsm

/-- One instruction of the set: its mnemonic, 7-bit opcode and attributes. -/
structure OpcodeEntry where
  mnemonic : String
  opcode : Nat
  nonModifying : Bool := false
  jump : Bool := false
  deriving DecidableEq, Repr

/-- An instruction set: opcodes in declaration order, and the extension packages. -/
structure InstructionSet where
  entries : List OpcodeEntry
  packages : List String
  deriving DecidableEq, Repr

namespace InstructionSet

def find? (s : InstructionSet) (mnemonic : String) : Option OpcodeEntry :=
  s.entries.find? (·.mnemonic == mnemonic)

def opcode? (s : InstructionSet) (mnemonic : String) : Option Nat :=
  (s.find? mnemonic).map (·.opcode)

def isMnemonic (s : InstructionSet) (word : String) : Bool :=
  (s.find? word).isSome

def isJump (s : InstructionSet) (mnemonic : String) : Bool :=
  ((s.find? mnemonic).map (·.jump)).getD false

def isNonModifying (s : InstructionSet) (mnemonic : String) : Bool :=
  ((s.find? mnemonic).map (·.nonModifying)).getD false

def mnemonic? (s : InstructionSet) (opcode : Nat) : Option String :=
  (s.entries.find? (·.opcode == opcode)).map (·.mnemonic)

def mnemonics (s : InstructionSet) : List String :=
  (s.entries.mergeSort (fun a b => a.opcode ≤ b.opcode)).map (·.mnemonic)

def isPackage (s : InstructionSet) (name : String) : Bool :=
  s.packages.contains name

/-- The instruction set of the CPU. -/
def standard : InstructionSet where
  entries := [
    { mnemonic := "NOP", opcode := 0 },
    { mnemonic := "LRA", opcode := 1 },
    { mnemonic := "SRA", opcode := 2, nonModifying := true },
    { mnemonic := "CALL", opcode := 3, jump := true },
    { mnemonic := "RET", opcode := 4 },
    { mnemonic := "JMP", opcode := 5, jump := true },
    { mnemonic := "JMPP", opcode := 6, jump := true },
    { mnemonic := "JMPZ", opcode := 7, jump := true },
    { mnemonic := "JMPN", opcode := 8, jump := true },
    { mnemonic := "JMPC", opcode := 9, jump := true },
    { mnemonic := "CCF", opcode := 10, nonModifying := true },
    { mnemonic := "LRP", opcode := 11 },
    { mnemonic := "CCP", opcode := 12 },
    { mnemonic := "CRP", opcode := 13, nonModifying := true },
    { mnemonic := "AND", opcode := 16 },
    { mnemonic := "OR", opcode := 17 },
    { mnemonic := "XOR", opcode := 18 },
    { mnemonic := "NOT", opcode := 19 },
    { mnemonic := "LSC", opcode := 20 },
    { mnemonic := "RSC", opcode := 21 },
    { mnemonic := "CMP", opcode := 22 },
    { mnemonic := "CMPU", opcode := 23 },
    { mnemonic := "ADC", opcode := 32 },
    { mnemonic := "SBC", opcode := 33 },
    { mnemonic := "INC", opcode := 34 },
    { mnemonic := "DEC", opcode := 35 },
    { mnemonic := "ABS", opcode := 36 },
    { mnemonic := "MUL", opcode := 37 },
    { mnemonic := "DIV", opcode := 38 },
    { mnemonic := "MOD", opcode := 39 },
    { mnemonic := "TSE", opcode := 40 },
    { mnemonic := "TCE", opcode := 41 },
    { mnemonic := "ADD", opcode := 42 },
    { mnemonic := "SUB", opcode := 43 },
    { mnemonic := "RPL", opcode := 44 },
    { mnemonic := "UI", opcode := 48 },
    { mnemonic := "UO", opcode := 49, nonModifying := true },
    { mnemonic := "UOC", opcode := 50, nonModifying := true },
    { mnemonic := "UOCR", opcode := 51, nonModifying := true },
    { mnemonic := "PRW", opcode := 112, nonModifying := true },
    { mnemonic := "PRR", opcode := 113 },
    { mnemonic := "INT", opcode := 126, nonModifying := true },
    { mnemonic := "HALT", opcode := 127 }
  ]
  packages := ["terminal", "keyboard", "random", "timer"]

def cpuVersion : List UInt8 := [0x31, 0x2E, 0x31, 0x20]

end InstructionSet

end PagedAsm
