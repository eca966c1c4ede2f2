import PagedAsm.Assembly.Bindings
import PagedAsm.Assembly.Macro
import PagedAsm.InstructionSet.Basic

/-!
# Compilation sessions

A session is the state shared by a whole compilation: the labels made so far (numbered from 0),
the packages included, the warnings raised, the number of instructions emitted, and a journal of
what happened, in order. Expansion runs in `Expand`, which may fail with a diagnostic and keeps
the session as it was at the failure.

A context is what a run of statements sees: macros, constants, labels (innermost scope first)
and the nesting depth.
-/

namespace PagedAsm

/-- Settings of a compilation. -/
structure Config where
  /-- How deep macro and loop expansions may nest. -/
  maxDepth : Nat := defaultMaxDepth
  /-- Whether redundant accumulator loads are dropped. -/
  optimise : Bool := true
  /-- Packages that may be included without a warning. -/
  packages : List String := InstructionSet.standard.packages
  /-- The instruction set. -/
  set : InstructionSet := InstructionSet.standard

/-- What the compiler reports as it goes. -/
inductive Event where
  /-- The text was read; groups nest this deep. -/
  | parsed (depth : Nat)
  | warned (d : Diagnostic)
  /-- Expansion gave this many items and made this many labels. -/
  | expanded (items labels : Nat)
  /-- Resolution gave this many instructions; this many warnings were raised in all. -/
  | resolved (instructions warnings : Nat)
  deriving Repr

/-- The state of a compilation. -/
structure Session where
  labelNames : Array String := #[]
  includes : Array String := #[]
  warnings : Array Diagnostic := #[]
  emitted : Nat := 0
  journal : Array Event := #[]

/-- Computations of expansion: they read and change the session and may fail. -/
abbrev Expand := ExceptT Diagnostic (StateM Session)

namespace Session

def note (e : Event) : Expand Unit :=
  modify fun s => { s with journal := s.journal.push e }

def warn (d : Diagnostic) : Expand Unit :=
  modify fun s => { s with warnings := s.warnings.push d, journal := s.journal.push (.warned d) }

/-- Count `n` more instructions; fail at `site` past the limit. -/
def emit (site : Token) (n : Nat) : Expand Unit := do
  let s ← get
  set { s with emitted := s.emitted + n }
  if s.emitted + n > maxInstructions then throw (Problem.programTooLarge.atToken site)

def newLabel (name : String) : Expand Nat := do
  let s ← get
  set { s with labelNames := s.labelNames.push name }
  return s.labelNames.size

end Session

/-- Labels in scope: one table per level, innermost first; newest definitions first. -/
structure LabelScope where
  levels : List (List (String × Nat))

namespace LabelScope

def find? (s : LabelScope) : String → Option Nat := fun name =>
  s.levels.findSome? fun level => (level.find? (·.1 == name)).map (·.2)

/-- Define a name at the innermost level; also says whether that level had it. -/
def define (s : LabelScope) (name : String) (id : Nat) : LabelScope × Bool :=
  match s.levels with
  | [] => (⟨[[(name, id)]]⟩, false)
  | level :: outer =>
    (⟨((name, id) :: level.filter (·.1 != name)) :: outer⟩, level.any (·.1 == name))

def enter (s : LabelScope) : LabelScope := ⟨[] :: s.levels⟩

end LabelScope

/-- What a run of statements sees. -/
structure Context where
  macros : MacroTable
  constants : Bindings
  labels : LabelScope

namespace Context

def top : Context := ⟨MacroTable.empty, Bindings.empty, ⟨[[]]⟩⟩

def child (c : Context) (macros : MacroTable) : Context :=
  ⟨macros, c.constants, c.labels.enter⟩

end Context

end PagedAsm
