import PagedAsm.Image.Word
import PagedAsm.Program
import PagedAsm.Text.Blank
import PagedAsm.Text.Quoted
import PagedAsm.Text.Utf8

/-!
# Executable images

An executable is a 10-byte header, then the include section, then the code. The header holds
the CPU version (four bytes), the size of the include section (16 bits) and the size of the
code section in bytes (32 bits), both little-endian. The include section lists the package
names, each followed by a line end; the code section holds the instruction words,
little-endian.

Assembling a program fails on a mnemonic outside the instruction set, on an include name that
is not ASCII, and on an include section over 65535 bytes. Reading an image fails on a short
header, another CPU version, an odd code size, a length that disagrees with the header, and an
include section that does not end in a line end; the checks run in that order.
-/

namespace PagedAsm

/-- Why an image could not be written or read. -/
inductive ImageError where
  /-- An instruction has no opcode. -/
  | unencodable (d : Diagnostic)
  | notAscii (name : String)
  | includesTooLarge (size : Nat)
  | malformed
  | incompatible (version : List UInt8)
  | oddCodeSize (size : Nat)
  | lengthMismatch (expected found : Nat)
  | unterminatedIncludes
  deriving DecidableEq, Repr

/-- The text of an image error. -/
def ImageError.message : ImageError → String
  | .unencodable d => d.text
  | .notAscii n => "include " ++ quote n ++ " is not ASCII"
  | .includesTooLarge n => "include section too large (" ++ toString n ++ " bytes)"
  | .malformed => "malformed binary file"
  | .incompatible v => "incompatible binary file was v" ++ quoteBytes v ++
      ", but expected v" ++ quoteBytes InstructionSet.cpuVersion
  | .oddCodeSize n => "malformed binary file (odd assembly section size " ++ toString n ++ ")"
  | .lengthMismatch e f => "malformed binary file (expected " ++ toString e ++
      " bytes after header, found " ++ toString f ++ ")"
  | .unterminatedIncludes => "malformed binary file (unterminated include)"

def maxIncludeSize : Nat := 0xFFFF

def headerSize : Nat := 10

/-- The header of an image. -/
structure Header where
  version : List UInt8
  includeSize : Nat
  codeSize : Nat
  deriving DecidableEq, Repr

/-- An executable image: its header, include names (as bytes) and code words. -/
structure Image where
  header : Header
  includes : List (List UInt8)
  code : List UInt16
  deriving DecidableEq, Repr

def littleEndian (n x : Nat) : List UInt8 :=
  (List.range n).map fun i => (x / Nat.pow 256 i % 256).toUInt8

def ofLittleEndian (bs : List UInt8) : Nat :=
  bs.foldr (fun b acc => b.toNat + 256 * acc) 0

def Instruction.encode (set : InstructionSet) (i : Instruction) : Except Diagnostic Word :=
  match set.opcode? i.mnemonic with
  | none => .error ⟨.noOpcode i.mnemonic, i.span, i.line⟩
  | some op => .ok (Word.make i.memoryFlag (i.value % 256).toNat.toUInt8 op.toUInt8)

namespace Image

/-- The image of include names and code words, checking the include section. -/
def build (includes : List String) (code : List UInt16) : Except ImageError Image := do
  if let some bad := includes.find? (fun n => n.toList.any (·.toNat ≥ 0x80)) then
    throw (.notAscii bad)
  let size := (includes.map (·.utf8ByteSize + 1)).foldr (· + ·) 0
  if size > maxIncludeSize then throw (.includesTooLarge size)
  return ⟨⟨InstructionSet.cpuVersion, size, 2 * code.length⟩,
    includes.map (·.toUTF8.toList), code⟩

/-- The image of a compiled program. -/
def assemble (set : InstructionSet) (p : Program) : Except ImageError Image := do
  let words ← match p.instructions.mapM (Instruction.encode set) with
    | .ok ws => pure ws
    | .error d => throw (.unencodable d)
  build p.includes (words.map (·.bits))

def size (img : Image) : Nat := headerSize + img.header.includeSize + img.header.codeSize

/-- The bytes of an image. -/
def bytes (img : Image) : List UInt8 :=
  img.header.version ++ littleEndian 2 img.header.includeSize ++
    littleEndian 4 img.header.codeSize ++
    (img.includes.map (· ++ [0x0A])).flatten ++
    (img.code.map fun w => littleEndian 2 w.toNat).flatten

def encode (set : InstructionSet) (includes : List String) (code : List Instruction) :
    Except ImageError (List UInt8) :=
  (assemble set ⟨code, includes, []⟩).map bytes

def wordsOf : List UInt8 → List UInt16
  | lo :: hi :: rest => (lo.toUInt16 ||| (hi.toUInt16 <<< 8)) :: wordsOf rest
  | _ => []

def splitLines (bs : List UInt8) : List (List UInt8) :=
  bs.splitOn 0x0A

/-- Read an image. -/
def decode (data : List UInt8) : Except ImageError Image := do
  if data.length < headerSize then throw .malformed
  let version := data.take 4
  let includeSize := ofLittleEndian ((data.drop 4).take 2)
  let codeSize := ofLittleEndian ((data.drop 6).take 4)
  if version ≠ InstructionSet.cpuVersion then throw (.incompatible version)
  if codeSize % 2 ≠ 0 then throw (.oddCodeSize codeSize)
  let body := data.drop headerSize
  if body.length ≠ includeSize + codeSize then
    throw (.lengthMismatch (includeSize + codeSize) body.length)
  let includeBytes := body.take includeSize
  let includes ← match includeBytes.getLast? with
    | none => pure []
    | some 0x0A => pure (splitLines includeBytes.dropLast)
    | some _ => throw .unterminatedIncludes
  return ⟨⟨version, includeSize, codeSize⟩, includes, wordsOf (body.drop includeSize)⟩

/-- The header report of an image. -/
def report (img : Image) : String :=
  let version := String.ofList (decodeUtf8 img.header.version)
  let version := String.ofList ((version.toList.dropWhile isBlank).reverse.dropWhile isBlank).reverse
  "Header start:\n" ++
  "\tcpuVersion:          " ++ version ++ "\n" ++
  "\tincludeSectionSize:  " ++ toString img.header.includeSize ++ "\n" ++
  "\tassemblySectionSize: " ++ toString img.header.codeSize ++ "\n" ++
  "Header end.\n" ++
  "Total size: " ++ toString img.size ++ " bytes\n"

def disassembly (set : InstructionSet) (img : Image) : List String :=
  img.code.map fun w => (Word.mk w).disassemble set

end Image

end PagedAsm
