import PagedAsm.Assembly.Session

/-!
# Definitions in a run of statements

Before a run of statements is expanded, its macro definitions and label definitions are
gathered, so that both can be used before the place where they are defined.

* A macro definition is the word `macro`, a name, a parenthesised parameter list and a braced
  body. It is taken out of the run. Defining a name and arity again replaces the earlier macro
  with a warning; a macro named like an instruction or a keyword is never called, which is
  warned about too.
* A label definition is a word ending in `:`. Each gets a new label; defining a name twice in
  one run warns. Then every `$name` word of the run that names a label in scope becomes a
  reference to it.
-/

namespace PagedAsm

namespace Discovery

/-- The parameters of a macro `name` from the nodes of its parameter list, in order; line ends
are skipped. -/
def parameters (name : String) : List Node → List String → Except Diagnostic (List String)
  | [], acc => .ok acc.reverse
  | n :: rest, acc =>
    match n with
    | .leaf (.token t) =>
      if t.isNewline then parameters name rest acc
      else if !isIdentifier t.text then .error ((Problem.invalidParameter n.written name).atNode n)
      else if acc.contains t.text then
        .error ((Problem.duplicateParameter t.text name).atNode n)
      else parameters name rest (t.text :: acc)
    | _ => .error ((Problem.invalidParameter n.written name).atNode n)

def readMacro (visible : MacroTable) (keyword : Token) (rest : List Node) :
    Except Diagnostic Macro :=
  match rest with
  | .leaf (.token name) :: more =>
    if !isIdentifier name.text then .error (Problem.expectedMacroName.atToken keyword)
    else match more with
      | .group .round params _ _ :: more' =>
        match more' with
        | .group .curly body _ _ :: _ => do
          let ps ← parameters name.text params []
          return ⟨name.text, ps, body, visible.macros, keyword.line⟩
        | _ => .error ((Problem.expectedMacroBody name.text).atToken name)
      | _ => .error ((Problem.expectedMacroArguments name.text).atToken name)
  | _ => .error (Problem.expectedMacroName.atToken keyword)

/-- Take the macro definitions out of a run, adding them to the table in order. -/
def macros (set : InstructionSet) : MacroTable → List Node → List Node →
    Expand (MacroTable × List Node)
  | table, [], acc => return (table, acc.reverse)
  | table, n :: rest, acc =>
    match n with
    | .leaf (.token t) =>
      if t.text = "macro" then do
        let m ← match readMacro table t rest with
          | .ok m => pure m
          | .error d => throw d
        let (table', again) := table.insert m
        if again then Session.warn ((Problem.macroRedefined m.signature).atToken t)
        if set.isMnemonic m.name then
          Session.warn ((Problem.macroShadowedByInstruction m.signature m.name).atToken t)
        else if isKeyword m.name then
          Session.warn ((Problem.macroShadowedByKeyword m.signature m.name).atToken t)
        macros set table' (rest.drop 3) acc
      else macros set table rest (n :: acc)
    | _ => macros set table rest (n :: acc)
termination_by _ ns _ => ns.length
decreasing_by all_goals simp only [List.length_drop, List.length_cons]; omega

def definedName? (t : Token) : Option String :=
  if t.kind = .word ∧ t.text.endsWith ":" then some (String.ofList t.text.toList.dropLast)
  else none

def defineLabels : LabelScope → List Node → List LabelSite → Expand (LabelScope × List LabelSite)
  | scope, [], acc => return (scope, acc)
  | scope, n :: rest, acc =>
    match n with
    | .leaf (.token t) =>
      match definedName? t with
      | none => defineLabels scope rest acc
      | some name => do
        if !isIdentifier name then throw ((Problem.invalidLabelName name).atToken t)
        let id ← Session.newLabel name
        let (scope', again) := scope.define name id
        if again then Session.warn ((Problem.labelRedefined name).atToken t)
        defineLabels scope' rest (⟨id, name, t.span, t.line⟩ :: acc)
    | _ => defineLabels scope rest acc

def resolveReference (scope : LabelScope) (t : Token) : Atom :=
  match labelName? t.text with
  | some name =>
    match scope.find? name with
    | some id => .labelRef ⟨id, name, t.span, t.line⟩
    | none => .token t
  | none => .token t

def tie (scope : LabelScope) : List LabelSite → List Node → List Node
  | _, [] => []
  | defs, n :: rest =>
    match n with
    | .leaf (.token t) =>
      match definedName? t, defs with
      | some _, d :: ds => .leaf (.labelDef d) :: tie scope ds rest
      | _, _ => .leaf (resolveReference scope t) :: tie scope defs rest
    | other => other :: tie scope defs rest

def labels (scope : LabelScope) (nodes : List Node) : Expand (LabelScope × List Node) := do
  let (scope', defs) ← defineLabels scope nodes []
  return (scope', tie scope' defs.reverse nodes)

end Discovery

end PagedAsm
