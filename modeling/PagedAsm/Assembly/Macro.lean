import PagedAsm.Assembly.Atom

/-!
# Macros

A macro has a name, parameters and a body. Macros overload by arity: a table holds at most one
macro per name and number of parameters, and defining another replaces it. A macro body sees
the macros that were visible where it was defined, and itself.
-/

namespace PagedAsm

/-- A macro: its name, parameters, body, the macros visible where it was defined (itself not
included), and the line of its definition. -/
structure Macro where
  name : String
  params : List String
  body : List Node
  visible : List Macro
  line : Nat

def Macro.signature (m : Macro) : String :=
  m.name ++ "(" ++ ", ".intercalate m.params ++ ")"

/-- Macros by name and arity. -/
structure MacroTable where
  macros : List Macro

namespace MacroTable

def empty : MacroTable := ⟨[]⟩

def hasName (t : MacroTable) (name : String) : Bool :=
  t.macros.any (·.name == name)

def find? (t : MacroTable) (name : String) (arity : Nat) : Option Macro :=
  t.macros.find? fun m => m.name == name && m.params.length == arity

def insert (t : MacroTable) (m : Macro) : MacroTable × Bool :=
  let same := fun (o : Macro) => o.name == m.name && o.params.length == m.params.length
  (⟨m :: t.macros.filter (!same ·)⟩, t.macros.any same)

def forBody (m : Macro) : MacroTable :=
  (insert ⟨m.visible⟩ m).1

end MacroTable

end PagedAsm
