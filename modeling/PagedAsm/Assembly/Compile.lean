import PagedAsm.Assembly.Expansion
import PagedAsm.Assembly.Paging
import PagedAsm.Assembly.Peephole
import PagedAsm.Syntax.Lexer

/-!
# Compiling a source text

Compiling reads the text into a bracket tree, expands it, types the operands, drops redundant
loads (when optimising), places the labels, inserts page switches and checks the size. The
outcome keeps the journal of what happened up to the end or the first error: the depth of the
tree, each warning as it was raised, the number of items and labels after expansion, and the
number of instructions and warnings after resolution.
-/

namespace PagedAsm

/-- The outcome of a compilation: what happened, and the program or the first diagnostic. -/
structure Compilation where
  journal : List Event
  result : Except Diagnostic Program

namespace Compilation

/-- The final form of a placed instruction: label operands hold their index, other values are
taken modulo 256. -/
def finish (placed : Paging.Placement) (p : Pending) : Instruction :=
  let (kind, value) : OperandKind × Int := match p.argument with
    | .none => (.none, 0)
    | .integer v => (.integer, v % 256)
    | .pointer v => (.pointer, v % 256)
    | .label id => (.label, ((placed.getD id none).getD 0 : Nat))
  ⟨p.mnemonic, kind, value, p.line, p.span, p.synthetic⟩

/-- Lay out typed code: drop redundant loads (when optimising), place the labels, insert page
switches and check the size. Labels are named by `labelNames`. -/
def layout (config : Config) (labelNames : Array String) (typed : List Element) :
    Except Diagnostic (List Instruction) := do
  let typed := if config.optimise then Peephole.optimise config.set typed else typed
  let excised := Paging.excise labelNames.size typed
  if let some (p, id) := Paging.unplaced? excised.2 excised.1 then
    throw ⟨.undefinedLabel (labelNames.getD id ""), p.span, p.line⟩
  let fixed ← Paging.fixPages config.set excised.1 excised.2
  if let some p := fixed.1[maxInstructions]? then throw ⟨.programTooLarge, p.span, p.line⟩
  return fixed.1.map (finish fixed.2)

def resolve (config : Config) (items : List Item) : Expand (List Instruction) := do
  let typed ← Typing.elements config.set items
  let s ← get
  Expansion.lift (layout config s.labelNames typed)

/-- Expand and resolve a document. -/
def assemble (config : Config) (doc : Document) : Expand Program := do
  Session.note (.parsed doc.depth)
  let nodes := doc.children.map (Tree.mapLeaves Atom.token)
  let items ← Expansion.run config config.maxDepth Context.top nodes
  Session.note (.expanded items.length (← get).labelNames.size)
  let code ← resolve config items
  let s ← get
  Session.note (.resolved code.length s.warnings.size)
  return ⟨code, s.includes.toList, s.warnings.toList⟩

end Compilation

/-- Compile a source text. -/
def compile (config : Config) (source : List Char) : Compilation :=
  match tokenize source >>= Document.ofTokens with
  | .error d => ⟨[], .error d⟩
  | .ok doc =>
    let (result, session) := (Compilation.assemble config doc).run.run {}
    ⟨session.journal.toList, result⟩

end PagedAsm
