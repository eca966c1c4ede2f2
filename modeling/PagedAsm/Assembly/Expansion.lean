import PagedAsm.Assembly.Discovery
import PagedAsm.Assembly.Loop

/-!
# Expansion of statements

A run of statements expands, statement by statement, into label definitions and instructions.
A statement starts with a label definition, or with a word that constants may rewrite and
that is then a keyword, a mnemonic or a macro name:

* an instruction takes the operands up to the end of the line (at most one; `LEN "text"` is one
  operand, the length);
* a macro call takes a parenthesised list of single-token arguments and expands the macro
  body, with the parameters bound, in a context that sees the macros of the definition and the
  labels and constants of the call;
* `FOR vars IN range { body }` expands the body once per value, with the variables bound;
* `ASSIGN name value` binds a constant for the rest of the run and the runs inside it;
* `INCLUDE package` asks for an extension package;
* `__WRITE_STR__ $base "text"` stores the bytes of a text from address `base` on, loading each
  distinct byte value once.

Expansions nest: each macro call and each loop iteration runs one level deeper, and a level past
the configured depth is a recursion error. `Expansion.run` is total: it recurses on the depth
still allowed, and within a level on the statements left.
-/

namespace PagedAsm

namespace Expansion

def restOfLine : List Node → List Node × List Node
  | [] => ([], [])
  | n :: rest =>
    match n with
    | .leaf (.token t) =>
      if t.isNewline then ([], rest)
      else let r := restOfLine rest; (n :: r.1, r.2)
    | _ => let r := restOfLine rest; (n :: r.1, r.2)

theorem restOfLine_length_le (ns : List Node) : (restOfLine ns).2.length ≤ ns.length := by
  induction ns with
  | nil => simp [restOfLine]
  | cons n rest ih =>
    unfold restOfLine
    split
    · split
      · simp
      · simp only [List.length_cons]; omega
    · simp only [List.length_cons]; omega

def fail {α : Type} (d : Diagnostic) : Expand α := throw d

def lift {α : Type} : Except Diagnostic α → Expand α
  | .ok a => pure a
  | .error d => throw d

def checkOperand (ctx : Context) : Operand → Except Diagnostic Operand
  | .label l => .ok (.label l)
  | .token t =>
    match labelName? t.text with
    | some name =>
      match ctx.labels.find? name with
      | some id => .ok (.label ⟨id, name, t.span, t.line⟩)
      | none => .error ((Problem.undefinedLabel name).atToken t)
    | none =>
      if isKeyword t.text then .error ((Problem.unexpectedInOperand t.text).atToken t)
      else .ok (.token t)

/-- The operands of a line, with constants applied and `LEN "text"` replaced by the length. -/
def operands (ctx : Context) : List Node → List Operand → Except Diagnostic (List Operand)
  | [], acc => .ok acc.reverse
  | n :: rest, acc =>
    match n with
    | .leaf (.labelRef l) => operands ctx rest (.label l :: acc)
    | .leaf (.labelDef _) => .error ((Problem.unexpectedLabelDefinition n.written).atNode n)
    | .group b _ _ _ => .error ((Problem.unexpectedBracketInOperand b.opener).atNode n)
    | .leaf (.token t) =>
      match ctx.constants.apply t with
      | .token t' =>
        if t'.text = "LEN" then
          match rest with
          | [] => .error ((Problem.expectedStringAfter t'.text).atToken t')
          | operand :: rest' => do
            let k ← Loop.lengthOf ctx.constants t' operand
            operands ctx rest' (.token (t'.withText (toString k)) :: acc)
        else operands ctx rest (.token t' :: acc)
      | v => operands ctx rest (v :: acc)

/-- The arguments of a macro call. -/
def arguments (ctx : Context) : List Node → List Operand → Except Diagnostic (List Operand)
  | [], acc => .ok acc.reverse
  | n :: rest, acc =>
    match n with
    | .leaf (.labelRef l) => arguments ctx rest (.label l :: acc)
    | .leaf (.token t) =>
      if t.isNewline then arguments ctx rest acc
      else do
        let v ← checkOperand ctx (ctx.constants.apply t)
        arguments ctx rest (v :: acc)
    | _ => .error (Problem.macroArgumentsNotTokens.atNode n)

/-- An instruction statement: `mnemonic` and the rest of its line. -/
def instruction (ctx : Context) (mnemonic : Token) (line : List Node) : Expand (List Item) := do
  let ops ← lift (operands ctx line [])
  Session.emit mnemonic 1
  match ops with
  | [] => return [.instruction mnemonic none]
  | [op] => return [.instruction mnemonic (some (← lift (checkOperand ctx op)))]
  | _ :: second :: _ =>
    fail ⟨.tooManyOperands mnemonic.text, second.span, second.line⟩

/-- An `ASSIGN` statement: the context with the constant bound. -/
def assign (ctx : Context) (keyword : Token) (line : List Node) : Expand Context := do
  match line with
  | [] => fail (Problem.expectedConstantName.atToken keyword)
  | first :: values =>
    let name ← match first with
      | .leaf (.token t) =>
        if isIdentifier t.text && !isKeyword t.text then pure t
        else fail ((Problem.invalidConstantName first.written).atNode first)
      | _ => fail ((Problem.invalidConstantName first.written).atNode first)
    let vs ← lift (operands ctx values [])
    match vs with
    | [v] =>
      if ctx.constants.contains name.text then
        Session.warn ((Problem.constantReassigned name.text).atToken name)
      return { ctx with constants := ctx.constants.insert name.text v }
    | _ => fail (Problem.assignShape.atToken keyword)

/-- An `INCLUDE` statement. -/
def includePackage (config : Config) (ctx : Context) (keyword : Token) (line : List Node) :
    Expand Unit := do
  match line with
  | [first] =>
    let tok ← match first with
      | .leaf (.token t) =>
        match ctx.constants.apply t with
        | .token t' => pure t'
        | .label _ => fail ((Problem.invalidPackageName first.written).atNode first)
      | _ => fail ((Problem.invalidPackageName first.written).atNode first)
    let name ← if StringLiteral.isQuoted tok.text then lift (Loop.unquoteAt tok)
      else pure tok.text
    if name.isEmpty then fail (Problem.emptyPackageName.atToken tok)
    let s ← get
    if s.includes.contains name then
      Session.warn ((Problem.packageAlreadyIncluded name).atToken tok)
    else
      if !config.packages.contains name then
        Session.warn ((Problem.unknownPackage name).atToken tok)
      modify fun s => { s with includes := s.includes.push name }
  | _ => fail (Problem.includeShape.atToken keyword)

def byteOrder (bytes : List UInt8) : List (UInt8 × List Nat) :=
  let sorted := (bytes.zipIdx).mergeSort fun a b => a.1 ≤ b.1
  sorted.foldr (fun (b, i) acc =>
    match acc with
    | (b', is) :: more => if b == b' then (b, i :: is) :: more else (b, [i]) :: acc
    | [] => [(b, [i])]) []

/-- A `__WRITE_STR__` statement. -/
def writeString (ctx : Context) (keyword : Token) (line : List Node) : Expand (List Item) := do
  let ops ← lift (operands ctx line [])
  match ops with
  | [p, s] =>
    let ptr ← match p with
      | .token t =>
        if t.text.startsWith "$" then pure t else fail ⟨.expectedPointer p.display, p.span, p.line⟩
      | .label _ => fail ⟨.expectedPointer p.display, p.span, p.line⟩
    let str ← match s with
      | .token t => pure t
      | .label _ => fail ⟨.expectedString s.display, s.span, s.line⟩
    let base ← match parseInt64 (String.ofList (ptr.text.toList.drop 1)) with
      | .ok b => pure b
      | .error _ => fail ((Problem.invalidPointer ptr.text).atToken ptr)
    let text ← lift (Loop.unquoteAt str)
    let groups := byteOrder text.toUTF8.toList
    let store := fun (i : Nat) => Item.instruction (keyword.withText "SRA")
      (some (.token (ptr.withText ("$" ++ toString (wrapInt64 (base + (i : Int)))))))
    let items := groups.flatMap fun (b, positions) =>
      .instruction (keyword.withText "LRA") (some (.token (str.withText (toString b.toNat)))) ::
      positions.map store
    Session.emit keyword items.length
    return items
  | _ => fail (Problem.writeShape.atToken keyword)

def loopVariables (keyword : Token) :
    (ns : List Node) → List Token → Except Diagnostic (List Token × {r : List Node // r.length ≤ ns.length})
  | [], _ => .error (Problem.expectedIn.atToken keyword)
  | n :: rest, acc =>
    match n with
    | .leaf (.token t) =>
      if t.isNewline then .error (Problem.expectedIn.atToken keyword)
      else if t.text = "IN" then .ok (acc.reverse, ⟨rest, by simp⟩)
      else if !isIdentifier t.text || isKeyword t.text then
        .error ((Problem.invalidLoopVariable t.text).atToken t)
      else match loopVariables keyword rest (t :: acc) with
        | .ok (vs, ⟨r, h⟩) => .ok (vs, ⟨r, by simp only [List.length_cons]; omega⟩)
        | .error d => .error d
    | _ => .error (Problem.expectedIn.atToken keyword)

/-- The range tokens of a `FOR` (constants applied), up to a group or the end of the line, and
the nodes after them. -/
def loopRange (ctx : Context) :
    (ns : List Node) → List Token → Except Diagnostic (List Token × {r : List Node // r.length ≤ ns.length})
  | [], acc => .ok (acc.reverse, ⟨[], by simp⟩)
  | n :: rest, acc =>
    match n with
    | .group _ _ _ _ => .ok (acc.reverse, ⟨n :: rest, Nat.le_refl _⟩)
    | .leaf (.token t) =>
      if t.isNewline then .ok (acc.reverse, ⟨n :: rest, Nat.le_refl _⟩)
      else match ctx.constants.apply t with
        | .token t' =>
          match loopRange ctx rest (t' :: acc) with
          | .ok (vs, ⟨r, h⟩) => .ok (vs, ⟨r, by simp only [List.length_cons]; omega⟩)
          | .error d => .error d
        | .label _ => .error ((Problem.invalidRangeItem n.written).atNode n)
    | _ => .error ((Problem.invalidRangeItem n.written).atNode n)

/-- How a nested run is expanded: at the site of the call or loop, in a context, the nodes of
the run. -/
abbrev Descend := Token → Context → List Node → Expand (List Item)

/-- A `FOR` statement after its keyword; gives the items and the nodes after the body. -/
def loop (descend : Descend) (ctx : Context) (keyword : Token) (ns : List Node) :
    Expand (List Item × {r : List Node // r.length ≤ ns.length}) := do
  let (vars, ⟨afterIn, h1⟩) ← lift (loopVariables keyword ns [])
  if vars.isEmpty || vars.length > 2 then fail (Problem.loopVariableCount.atToken keyword)
  let (range, ⟨afterRange, h2⟩) ← lift (loopRange ctx afterIn [])
  match hr : afterRange with
  | .group .curly body _ _ :: rest =>
    let values ← lift (Loop.iterations ctx.constants keyword vars.length range)
    let mut items : Array Item := #[]
    for vs in values do
      let binds := Bindings.ofList (vars.zip vs |>.map fun (v, x) => (v.text, .token (v.withText x)))
      let out ← descend keyword (ctx.child ctx.macros) (body.map binds.rewrite)
      items := items ++ out
    return (items.toList, ⟨rest, by rw [hr] at h2; simp only [List.length_cons] at h2; omega⟩)
  | _ => fail (Problem.expectedLoopBody.atToken keyword)

/-- A macro call after its name; gives the items and the nodes after the arguments. -/
def call (descend : Descend) (ctx : Context) (name : Token) (ns : List Node) :
    Expand (List Item × {r : List Node // r.length ≤ ns.length}) := do
  match hn : ns with
  | .group .round args _ _ :: rest =>
    let values ← lift (arguments ctx args [])
    match ctx.macros.find? name.text values.length with
    | none => fail ((Problem.noOverload name.text values.length).atToken name)
    | some m =>
      let binds := Bindings.ofList (m.params.zip values)
      let out ← descend name (ctx.child (MacroTable.forBody m)) (m.body.map binds.rewrite)
      return (out, ⟨rest, by rw [hn]; simp⟩)
  | _ => fail ((Problem.expectedMacroArguments name.text).atToken name)

/-- One statement starting with `n`; gives its items, the context after it and the nodes
after it. -/
def statement (config : Config) (descend : Descend) (ctx : Context) (n : Node)
    (rest : List Node) :
    Expand (List Item × Context × {r : List Node // r.length ≤ rest.length}) := do
  let here : {r : List Node // r.length ≤ rest.length} := ⟨rest, Nat.le_refl _⟩
  match n with
  | .leaf (.labelDef l) => return ([.label l], ctx, here)
  | .leaf (.labelRef _) => fail ((Problem.unexpectedLabelReference n.written).atNode n)
  | .group b _ _ _ => fail ((Problem.unexpectedBracket b.opener).atNode n)
  | .leaf (.token t) =>
    if t.isNewline then return ([], ctx, here)
    let head ← match ctx.constants.apply t with
      | .token h => pure h
      | .label _ => fail ((Problem.unexpectedLabelReference n.written).atNode n)
    let line := (restOfLine rest).1
    let lineRest : {r : List Node // r.length ≤ rest.length} :=
      ⟨(restOfLine rest).2, restOfLine_length_le rest⟩
    if isKeyword head.text then
      match head.text with
      | "FOR" =>
        let (items, r) ← loop descend ctx head rest
        return (items, ctx, r)
      | "ASSIGN" =>
        let ctx' ← assign ctx head line
        return ([], ctx', lineRest)
      | "INCLUDE" =>
        includePackage config ctx head line
        return ([], ctx, lineRest)
      | "__WRITE_STR__" =>
        let items ← writeString ctx head line
        return (items, ctx, lineRest)
      | _ => fail ((Problem.unexpectedKeyword head.text).atToken head)
    else if config.set.isMnemonic head.text then
      let items ← instruction ctx head line
      return (items, ctx, lineRest)
    else if ctx.macros.hasName head.text then
      let (items, r) ← call descend ctx head rest
      return (items, ctx, r)
    else match rest with
      | .group .round _ _ _ :: _ => fail ((Problem.undefinedMacro head.text).atToken head)
      | _ => fail ((Problem.undefinedSymbol head.text).atToken head)

/-- Expand the statements of a run in turn. -/
def statements (config : Config) (descend : Descend) (ctx : Context) :
    List Node → Expand (List Item)
  | [] => return []
  | n :: rest => do
    let (items, ctx', ⟨r, _⟩) ← statement config descend ctx n rest
    let more ← statements config descend ctx' r
    return items ++ more
termination_by ns => ns.length

/-- Expand a run: gather its macros and labels, then expand its statements, descending at most
`budget` more levels. -/
def run (config : Config) : (budget : Nat) → Context → List Node → Expand (List Item)
  | budget, ctx, nodes => do
    let (macros, nodes) ← Discovery.macros config.set ctx.macros nodes []
    let (labels, nodes) ← Discovery.labels ctx.labels nodes
    let ctx := { ctx with macros := macros, labels := labels }
    match budget with
    | 0 =>
      statements config (fun site _ _ => fail ((Problem.depthExceeded config.maxDepth).atToken site))
        ctx nodes
    | b + 1 => statements config (fun _ c ns => run config b c ns) ctx nodes

end Expansion

end PagedAsm
