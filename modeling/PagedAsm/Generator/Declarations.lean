import PagedAsm.InstructionSet.Basic
import PagedAsm.Text.Blank
import PagedAsm.Text.Numeral

/-!
# Instruction set declarations

An instruction set is declared in a text of lines. A line ends at a newline, and a carriage
return right before the newline is dropped; a newline at the very end starts no line. A line
of 64 KiB or more is refused. On each line, a `;` starts a comment; the rest splits into
fields at blanks.

* A line without fields is skipped.
* `package NAME` declares an extension package.
* `op OPCODE MNEMONIC ATTRIBUTE...` declares an instruction: the opcode is a decimal numeral
  below 128, and each attribute is `nomod` (the accumulator is left as it is) or `jump` (the
  operand is a ROM address).
* Any other line is malformed.

Declarations are read in order and the first fault ends the reading. A second instruction with
the mnemonic or the opcode of an earlier one is a duplicate.
-/

namespace PagedAsm

/-- Why a declaration text was refused. -/
inductive DeclarationError where
  /-- The declaration file does not exist. -/
  | absent (name : String)
  | lineTooLong
  | malformed (line : Nat)
  | invalidOpcode (line : Nat) (text : String)
  | unknownAttribute (line : Nat) (text : String)
  | duplicate (line : Nat) (mnemonic : String)
  deriving DecidableEq, Repr

/-- The message of a refused declaration text. -/
def DeclarationError.message : DeclarationError → String
  | .absent name => "open " ++ name ++ ": no such file or directory"
  | .lineTooLong => "bufio.Scanner: token too long"
  | .malformed n => "line " ++ toString n ++ ": malformed declaration"
  | .invalidOpcode n t => "line " ++ toString n ++ ": invalid opcode " ++ t
  | .unknownAttribute n t => "line " ++ toString n ++ ": unknown attribute " ++ t
  | .duplicate n m => "line " ++ toString n ++ ": duplicate instruction " ++ m

namespace Declarations

def maxLineBytes : Nat := 65535

def rawLines (text : String) : List String :=
  match (text.toList.splitOn '\n').reverse with
  | [] :: rest => rest.reverse.map String.ofList
  | all => all.reverse.map String.ofList

def content (line : String) : String :=
  match line.toList.reverse with
  | '\r' :: rest => String.ofList rest.reverse
  | _ => line

def lineFields (line : String) : List String :=
  fields (String.ofList ((content line).toList.takeWhile (· ≠ ';')))

def withAttribute (n : Nat) (e : OpcodeEntry) (attr : String) :
    Except DeclarationError OpcodeEntry :=
  if attr = "nomod" then .ok { e with nonModifying := true }
  else if attr = "jump" then .ok { e with jump := true }
  else .error (.unknownAttribute n attr)

/-- The instruction that the fields after `op` on line `n` declare. -/
def instruction (n : Nat) (opcode mnemonic : String) (attrs : List String) :
    Except DeclarationError OpcodeEntry :=
  match parseNat (.fixed 10) 7 opcode with
  | .error _ => .error (.invalidOpcode n opcode)
  | .ok code => attrs.foldlM (withAttribute n) { mnemonic, opcode := code }

def declare (set : InstructionSet) (n : Nat) (fs : List String) :
    Except DeclarationError InstructionSet :=
  match fs with
  | [] => .ok set
  | ["package", name] => .ok { set with packages := set.packages ++ [name] }
  | "op" :: opcode :: mnemonic :: attrs => do
    let e ← instruction n opcode mnemonic attrs
    if set.entries.any fun d => d.mnemonic = e.mnemonic ∨ d.opcode = e.opcode then
      throw (.duplicate n e.mnemonic)
    return { set with entries := set.entries ++ [e] }
  | _ => .error (.malformed n)

def readFrom (set : InstructionSet) (n : Nat) : List String → Except DeclarationError InstructionSet
  | [] => .ok set
  | line :: rest =>
    if line.utf8ByteSize > maxLineBytes then .error .lineTooLong
    else do readFrom (← declare set n (lineFields line)) (n + 1) rest

end Declarations

def InstructionSet.ofDeclarations (text : String) : Except DeclarationError InstructionSet :=
  Declarations.readFrom ⟨[], []⟩ 1 (Declarations.rawLines text)

end PagedAsm
