import PagedAsm.CommandLine.Build
import PagedAsm.CommandLine.Dispatch
import PagedAsm.Files.Volume

/-!
# The `mqa` command line

`mqa compile FILE` builds the source file and writes the image to the output name (see
`FileName.output`); `mqa inspect FILE` prints the contents of an image file. Alone, `mqa`
prints its usage, or its version with `--version`. `-v` turns on the debug log, which goes to
standard error.

Exit status 1 marks a compilation error, an image error, or a wrong number of arguments (with
the usage text on standard output); status 2 marks a file that cannot be read or written.
-/

namespace PagedAsm

namespace Assembler

/-- The actions of the assembler's commands. -/
inductive Action where
  /-- Print the version or the usage. -/
  | overview
  | compile
  | inspect
  deriving DecidableEq, Repr

/-- The version the command line reports: builds carry no version stamp. -/
def version : String := "(devel)"

def versionFlag : Flag := ⟨"version", none, "Report version of this executable", .switch false⟩

def verboseFlag : Flag := ⟨"verbose", some 'v', "increase logging verbosity", .switch false⟩

def compileFlags : List Flag := [
  ⟨"output", some 'o', "specify output file.", .text ""⟩,
  ⟨"list", some 'l', "print the compiled instructions.", .switch false⟩,
  ⟨"opt", some 'O', "set optimisation level (0 disables).", .number 1⟩,
  ⟨"max-depth", none, "maximum nesting of macro and loop expansions.",
    .number defaultMaxDepth⟩,
  ⟨"package", none, "permit an additional extension package.", .texts []⟩]

def compileCommand : Command (Behaviour Action) where
  name := "compile"
  use := "compile [flags] source_file"
  short := "compile a source file into an executable."
  long := "Compile a given source file into an executable (\".mqa\") file which can be\n" ++
    "\t loaded by the Mini Quantum CPU."
  flags := compileFlags
  action := some (.own .compile)

def inspectCommand : Command (Behaviour Action) where
  name := "inspect"
  use := "inspect [flags] binary_file"
  short := "disassemble an executable file."
  long := "Print the header, includes and instructions of a given executable (\".mqa\") file."
  action := some (.own .inspect)

/-- The command tree of the assembler. -/
def tree : Command (Behaviour Action) :=
  Command.withStandard {
    name := "mqa"
    use := "mqa"
    short := "An assembler for the Mini Quantum CPU."
    long := "An assembler (and disassembler) for Mini Quantum CPU source files."
    flags := [versionFlag]
    persistent := [verboseFlag]
    action := some (.own .overview)
    children := [compileCommand, inspectCommand] }

def buildOptions (p : Parsed) : BuildOptions where
  config := {
    optimise := p.numberOr "opt" 1 > 0
    maxDepth := p.numberOr "max-depth" defaultMaxDepth
    packages := InstructionSet.standard.packages ++ p.textsOf "package" }
  list := p.isOn "list"
  verbose := p.isOn "verbose"

def logText (verbose : Bool) (messages : List String) : String :=
  if verbose then String.join (messages.map debugLine) else ""

variable {m : Type → Type} [Monad m] [Storage m]

/-- `mqa compile FILE`: build the file and write its image. -/
def compileFile (site : Located (Behaviour Action)) (p : Parsed) : m Outcome :=
  match p.args with
  | [file] => do
    let opts := buildOptions p
    let output := FileName.output file (p.textOr "output")
    match ← Storage.read file with
    | .error e =>
      return { stdout := "reading source file " ++ file ++ ": " ++ e.message ++ "\n", exit := 2 }
    | .ok bytes =>
      let r := build opts file (decodeUtf8 bytes)
      match r.image with
      | none => return { stdout := r.stdout, stderr := logText opts.verbose r.log, exit := r.exit }
      | some image =>
        match ← Storage.write output image with
        | .error e =>
          return { stdout := r.stdout ++ "writing " ++ output ++ ": " ++ e.message ++ "\n",
                   stderr := logText opts.verbose r.log, exit := 2 }
        | .ok () =>
          let wrote := "wrote " ++ toString image.length ++ " bytes to " ++ output
          return { stdout := r.stdout, stderr := logText opts.verbose (r.log ++ [wrote]) }
  | _ => pure { stdout := site.usage true ++ "\n", exit := 1 }

def inspectFile (site : Located (Behaviour Action)) (p : Parsed) : m Outcome :=
  match p.args with
  | [file] => do
    match ← Storage.read file with
    | .error e =>
      return { stdout := "reading binary file " ++ file ++ ": " ++ e.message ++ "\n", exit := 2 }
    | .ok bytes =>
      match Image.decode bytes with
      | .error e => return { stdout := file ++ ": " ++ e.message ++ "\n", exit := 1 }
      | .ok img => return { stdout := img.contents InstructionSet.standard }
  | _ => pure { stdout := site.usage true ++ "\n", exit := 1 }

def perform (a : Action) (site : Located (Behaviour Action)) (p : Parsed) : m Outcome :=
  match a with
  | .overview =>
    if p.isOn "version" then pure { stdout := "mqa " ++ version ++ "\n" }
    else pure { stdout := site.usage true ++ "\n" }
  | .compile => compileFile site p
  | .inspect => inspectFile site p

/-- Run the assembler on the arguments of its command line. -/
def run (args : List String) : m Outcome :=
  match dispatch tree args with
  | .finish o => pure o
  | .run a site p => perform a site p

end Assembler

end PagedAsm
