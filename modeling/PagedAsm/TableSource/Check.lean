import PagedAsm.TableSource.Grammar

/-!
# Checking the table source

The check reads a whole source text and reports its faults as the formatter does: each at its
position as line directives make it, sorted by file, line, column and message, as
`FILE:LINE:COLUMN: MESSAGE`. A text is well formed when the check finds no fault.
-/

namespace PagedAsm

namespace TableSource

def parse (name text : String) : Option File × List (Position × String) :=
  let r := Reader.start name text
  let fuel := 64 * (r.scan.src.chars.size + 16)
  let (res, r) := ((readFile fuel).run).run r
  let scan := r.scan
  let faults := (scan.faults.toList.map fun f => (scan.position f.offset, f.message)).mergeSort
    Position.before
  (match res with
    | .ok f => some f
    | .error _ => none, faults)

def faults (name text : String) : List (Position × String) :=
  (parse name text).2

def report (name text : String) : String :=
  String.join ((faults name text).map fun (p, m) => p.report m ++ "\n")

end TableSource

end PagedAsm
