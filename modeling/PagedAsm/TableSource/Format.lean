import PagedAsm.TableSource.Nodes
import PagedAsm.TableSource.Check

/-!
# Formatting a source file

A well-formed file is printed in its standard layout: the package clause, then the
declarations, an empty line between declarations of different kinds or before a documented
one (and up to one empty line where the text has one), with every comment of the text in its
place. The printed text then has its columns aligned and its line ends trimmed.

A file with faults is not formatted; its faults are the result.
-/

namespace PagedAsm

namespace TableSource

def numLines (d : Decl) : Print Nat := do
  return (← lineFor (some d.stop)) - (← lineFor (some d.start)) + 1

def funcDecl (doc : Option CommentGroup) (recv : Option FieldList) (name : Ident)
    (sig : Signature) (body : Option Block) (fuel : Nat) : Print Unit := do
  setComment doc
  setPos (some sig.start)
  print [.token .funcKw, .space .blank]
  let startCol := (← get).out.column - 5
  if let some r := recv then
    parameters r .funcParam fuel
    space .blank
  expr1 (.ident name) 0 1 fuel
  signature sig fuel
  if let some b := body then funcBody (← distanceFrom sig.start startCol) .vtab b fuel

/-- Print a declaration. -/
def decl (d : Decl) (fuel : Nat) : Print Unit := do
  match d with
  | .bad p _ =>
    setPos (some p)
    printItem (.name "BadDecl")
  | .gen g => genDecl g fuel
  | .func doc recv name sig body => funcDecl doc recv name sig body fuel

def declList (list : List Decl) (fuel : Nat) : Print Unit := do
  let mut tok : Token := .illegal
  for d in list do
    let prev := tok
    tok := d.tok
    if !(← get).output.isEmpty then
      let min := if prev ≠ tok ∨ d.doc.isSome then 2 else 1
      let newSection := tok = .funcKw ∧ (← numLines d) > 1
      let _ ← linebreak (← lineFor (some d.start)) min .ignore newSection
    decl d fuel

def printFile (f : File) (fuel : Nat) : Print Unit := do
  nextComment
  setPos (some f.package)
  print [.token .packageKw, .space .blank]
  expr1 (.ident f.name) 0 1 fuel
  declList f.decls fuel
  space .newline
  modify fun s => { s with impliedSemi := false }
  let _ ← flush Place.beyond .eof

/-- Format the text of a file named `name`: its standard layout, or its faults in report
order when it has any. -/
def format (name text : String) : Except (List (Position × String)) String :=
  match parse name text with
  | (some file, []) =>
    let src := Source.ofString text
    let fuel := 64 * (src.chars.size + 16)
    let p : Printer := { Printer.init src false with
      comments := file.comments.toArray, useNodeComments := file.comments.isEmpty }
    let ((), p) := (printFile file fuel).run p
    .ok (alignColumns p.output)
  | (_, faults) => .error faults

end TableSource

end PagedAsm
