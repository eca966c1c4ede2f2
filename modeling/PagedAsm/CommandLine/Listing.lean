import PagedAsm.Image.File
import PagedAsm.Source.Line
import PagedAsm.Text.Quoted
import PagedAsm.Text.Pad

/-!
# Printed reports

What the command line prints about a compilation and an image:

* a diagnostic as `file:line: kind: message`, then the source line enclosing the start of its
  span, then a marker line: the characters of the line before the span, tabs kept and all else
  turned to spaces, and one `^` per character of the span on that line, at least one;
* a listing, one instruction per line after its index, indices right-aligned to the width of
  the instruction count;
* the contents of an image: the header report, the includes, then each word with its index,
  its four hex digits and its disassembly.
-/

namespace PagedAsm

def markerLine (line : String) (offset count : Nat) : String :=
  String.ofList ((line.toList.take offset).map fun c => if c = '\t' then '\t' else ' ') ++
    String.ofList (List.replicate count '^')

def Diagnostic.excerpt (fileName : String) (source : List Char) (d : Diagnostic) : String :=
  let line := Line.enclosing source d.span.start
  let text := line.text source
  let offset := d.span.start - line.start
  let count := max 1 (min d.span.length (line.length - offset))
  fileName ++ ":" ++ toString line.number ++ ": " ++ d.kind.text ++ ": " ++ d.message ++ "\n" ++
    text ++ "\n" ++ markerLine text offset count ++ "\n"

/-- Lines after right-aligned indices from 0, the width that of the number of lines. -/
def numbered (lines : List String) : String :=
  let width := (toString lines.length).length
  String.join ((lines.zip (List.range lines.length)).map fun (s, k) =>
    padLeft (toString k) width ++ " | " ++ s ++ "\n")

def listing (code : List Instruction) : String :=
  numbered (code.map (·.text))

/-- The contents of an image: header report, includes, and every word with its disassembly. -/
def Image.contents (set : InstructionSet) (img : Image) : String :=
  img.report ++
    String.join (img.includes.map fun b => "INCLUDE " ++ String.ofList (decodeUtf8 b) ++ "\n") ++
    numbered ((img.code.zip (img.disassembly set)).map fun (w, text) =>
      String.ofList (hexDigits 4 w.toNat) ++ " | " ++ text)

end PagedAsm
