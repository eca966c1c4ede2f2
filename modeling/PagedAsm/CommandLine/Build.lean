import PagedAsm.Assembly.Compile
import PagedAsm.CommandLine.Listing

/-!
# Building an image from a source file

A build compiles the text of a source file and prints, in order: the diagnostic of the first
error and nothing more; or a diagnostic for each warning, the listing when asked, and the
header report when verbose. An image that cannot be written (an include that is not ASCII, an
include section too large) prints its error instead of the report. The build also keeps the
debug log of the compilation: the journal of the compiler, one message per event.
-/

namespace PagedAsm

/-- The debug message of a compilation event for the file `fileName`. -/
def Event.message (fileName : String) : Event → String
  | .parsed depth => "parsed " ++ fileName ++ " (depth " ++ toString depth ++ ")"
  | .warned d => d.text
  | .expanded items labels =>
    "expanded " ++ toString items ++ " items (" ++ toString labels ++ " labels)"
  | .resolved n w => "resolved " ++ toString n ++ " instructions (" ++ toString w ++ " warnings)"

def needsQuotes (s : String) : Bool :=
  s.toList.any fun c => !(c.isAlphanum || "-._/@^+".toList.contains c)

def debugLine (message : String) : String :=
  "level=debug msg=" ++ (if needsQuotes message then quote message else message) ++ "\n"

/-- The choices of a build. -/
structure BuildOptions where
  config : Config := {}
  list : Bool := false
  verbose : Bool := false

/-- What a build prints, its debug log, its exit status, and the image to write. -/
structure BuildReport where
  stdout : String
  log : List String
  exit : Nat
  image : Option (List UInt8)

/-- Build the source text `source` of the file `fileName`. -/
def build (opts : BuildOptions) (fileName : String) (source : List Char) : BuildReport :=
  let c := compile opts.config source
  let log := c.journal.map (Event.message fileName)
  match c.result with
  | .error d => ⟨d.excerpt fileName source, log, 1, none⟩
  | .ok p =>
    let shown := String.join (p.warnings.map (Diagnostic.excerpt fileName source)) ++
      (if opts.list then listing p.instructions else "")
    match Image.assemble opts.config.set p with
    | .error e => ⟨shown ++ e.message ++ "\n", log, 1, none⟩
    | .ok img => ⟨shown ++ (if opts.verbose then img.report else ""), log, 0, some img.bytes⟩

end PagedAsm
