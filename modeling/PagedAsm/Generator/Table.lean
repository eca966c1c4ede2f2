import PagedAsm.Generator.Declarations
import PagedAsm.CommandLine.Command
import PagedAsm.Text.Pad
import PagedAsm.TableSource.Format

/-!
# The generated instruction set table

The generator reads the declaration file `instruction_set.mqi` and writes the table source
`opcodes.go` of package `mqis`: a notice, then one named constant per mnemonic, then four
tables: the opcode of each mnemonic, the mnemonics that leave the accumulator as it is, the
jump mnemonics, and the packages. Table entries keep declaration order.

The table source is first drafted as the template writes it, then formatted into its standard
layout (`TableSource.format`), which aligns the entries of each table in columns.

It prints the name of the file it writes, padded to 70 columns, then the formatting command
it runs on the package directory. A refused declaration file prints its error and writes
nothing.
-/

namespace PagedAsm

namespace Generator

/-- The fixed parts of the generated file and the generator's messages. -/
structure Settings where
  declarations : String := "instruction_set.mqi"
  target : String := "../../pkg/mqa/mqis/opcodes.go"
  targetDir : String := "../../pkg/mqa/mqis/"
  packageName : String := "mqis"
  holder : String := "Consensys Software Inc."
  year : Nat := 2025
  generator : String := "go-mqa"

/-- The lines of the terms at the top of the generated file, each a line comment. -/
def Settings.terms (s : Settings) : List String :=
  [ "// Copyright " ++ toString s.year ++ " " ++ s.holder,
    "//",
    "// Licensed under the Apache License, Version 2.0 (the \"License\");",
    "// you may not use this file except in compliance with the License.",
    "// You may obtain a copy of the License at",
    "//",
    "//     http://www.apache.org/licenses/LICENSE-2.0",
    "//",
    "// Unless required by applicable law or agreed to in writing, software",
    "// distributed under the License is distributed on an \"AS IS\" BASIS,",
    "// WITHOUT WARRANTIES OR CONDITIONS OF ANY KIND, either express or implied.",
    "// See the License for the specific language governing permissions and",
    "// limitations under the License." ]

/-- The mark of generated code and the package clause. -/
def Settings.header (s : Settings) : String :=
  "// Code generated by " ++ s.generator ++ " DO NOT EDIT\n" ++
  "\n" ++
  "package " ++ s.packageName ++ "\n"

/-- The table source as the template writes it, before formatting: the terms indented by a
tab after an empty line, two empty lines after the package clause, no empty line between
constants, and every table written over lines, entries unaligned. -/
def draft (s : Settings) (set : InstructionSet) : String :=
  let table := fun (comment head : String) (lines : List String) =>
    "\n// " ++ comment ++ "\nvar " ++ head ++ "\x7b\n" ++ String.join lines ++ "\x7d\n"
  let marked := fun (p : OpcodeEntry → Bool) =>
    (set.entries.filter p).map fun e => "\t" ++ e.mnemonic ++ ": true,\n"
  "\n" ++ String.join (s.terms.map fun l => "\t" ++ l ++ "\n") ++ "\t\n" ++ s.header ++ "\n\n" ++
  String.join (set.entries.map fun e =>
    "// " ++ e.mnemonic ++ " is the mnemonic for opcode " ++ toString e.opcode ++ ".\n" ++
    "const " ++ e.mnemonic ++ " = \"" ++ e.mnemonic ++ "\"\n") ++
  table "opcodes maps each mnemonic to its 7-bit opcode." "opcodes = map[string]uint8"
    (set.entries.map fun e => "\t" ++ e.mnemonic ++ ": " ++ toString e.opcode ++ ",\n") ++
  table "nonModifying holds the mnemonics which do not alter the accumulator."
    "nonModifying = map[string]bool" (marked (·.nonModifying)) ++
  table "jumps holds the mnemonics whose operand addresses ROM." "jumps = map[string]bool"
    (marked (·.jump)) ++
  table "packages holds the extensions known to the CPU." "packages = []string"
    (set.packages.map fun p => "\t\"" ++ p ++ "\",\n")

/-- What a run of the generator prints, and the file it writes. -/
structure Generation where
  outcome : Outcome
  output : Option String

/-- Run the generator on the declaration file, `none` when it does not exist. The draft is
written and then formatted; when the formatter finds faults in it, the draft stays as
written, the faults are reported, and the run fails. -/
def run (s : Settings) (declarations : Option String) : Generation :=
  let refuse := fun (e : DeclarationError) =>
    ⟨{ stdout := "reading " ++ quote s.declarations ++ ": " ++ e.message ++ "\n", exit := 1 },
      none⟩
  match declarations with
  | none => refuse (.absent s.declarations)
  | some text =>
    match InstructionSet.ofDeclarations text with
    | .error e => refuse e
    | .ok set =>
      let written := draft s set
      let head := "generating " ++ padRight s.target 70 ++ "\n" ++ "gofmt -w " ++ s.targetDir ++ "\n"
      match TableSource.format s.target written with
      | .ok text => ⟨{ stdout := head }, some text⟩
      | .error faults =>
        let report := String.join (faults.map fun (p, m) => p.report m ++ "\n")
        ⟨{ stdout := head ++ ": exit status 2\n", stderr := report, exit := 1 }, some written⟩

end Generator

end PagedAsm
