import PagedAsm.TableSource.Printer

/-!
# Printing the nodes of the tree

How each form of the tree is laid out.

* **Lists** of expressions keep the line breaks of the text between their elements. Elements
  written one per line align their values in a column (for `key: value` elements, the keys
  make the column), unless an element is much wider or narrower than those before it: when
  it or the element before it is wider than 40, its size against the geometric mean of the
  sizes before it in its section must lie strictly between 1/2.5 and 2.5. Otherwise, and when
  a line holds several elements, a new section starts, which aligns on its own; an empty line
  also starts the mean afresh. A list whose closing bracket
  stands on a line of its own gets a comma after its last element.
* **Binary expressions** set their operators off by blanks by precedence: at the top level,
  where the expression mixes additive and multiplicative operators, only the additive ones
  get blanks; nested deeper, only operators of precedence below 4. Operators that would run
  together with the operand after them (`/ *p`, `& &x`, `+ +x`) keep their blanks.
* **Function bodies** go on the header's line when they are short: at most five statements,
  braces on one line in the text, and header and body together at most 100 columns wide.
* **Declarations** in groups align names, types and values in columns; a group keeps its
  type column only when a run of specs with values has a type.

The width of a node, when it fits on one line, is found by printing it by itself; widths are
cached by node.
-/

namespace PagedAsm

namespace TableSource

/-- The number in a literal written the standard way: lower-case base prefixes and exponent
letters, and no leading zeros in an integer imaginary literal. -/
def normalizedNumber (kind : Token) (v : String) : String :=
  if !(kind = .int ∨ kind = .float ∨ kind = .imag) ∨ v.length < 2 then v
  else
    let cs := v.toList
    let replaceLast := fun (cs : List Char) (a b : Char) =>
      match cs.reverse.findIdx? (· = a) with
      | some k => let i := cs.length - 1 - k; cs.set i b
      | none => cs
    match cs with
    | '0' :: 'X' :: rest => String.ofList ('0' :: 'x' :: replaceLast rest 'P' 'p')
    | '0' :: 'x' :: rest =>
      if rest.contains 'P' then String.ofList ('0' :: 'x' :: replaceLast rest 'P' 'p') else v
    | '0' :: 'O' :: rest => String.ofList ('0' :: 'o' :: rest)
    | '0' :: 'o' :: _ => v
    | '0' :: 'B' :: rest => String.ofList ('0' :: 'b' :: rest)
    | '0' :: 'b' :: _ => v
    | _ =>
      if cs.contains 'E' then String.ofList (replaceLast cs 'E' 'e')
      else if cs.getLast? = some 'i' ∧ !(cs.contains '.' ∨ cs.contains 'e') then
        let t := cs.dropWhile fun c => c = '0' ∨ c = '_'
        if t = ['i'] then "0i" else String.ofList t
      else v

/-- What a binary expression holds, without looking through operands that need
parentheses: whether it has additive operators (precedence 4), multiplicative ones (5), and
the precedence below which operators must keep blanks so as not to run together with the
operand after them. -/
def walkBinary : Expr → Bool × Bool × Nat
  | .binary l _ op r =>
    let prec := op.precedence
    let h4 := prec = 4
    let h5 := prec = 5
    let (h4, h5, mp) : Bool × Bool × Nat := match l with
      | .binary _ _ lop _ =>
        if lop.precedence < prec then (h4, h5, 0)
        else
          let (a, b, c) := walkBinary l
          (h4 || a, h5 || b, c)
      | _ => (h4, h5, 0)
    match r with
    | .binary _ _ rop _ =>
      if rop.precedence ≤ prec then (h4, h5, mp)
      else
        let (a, b, c) := walkBinary r
        (h4 || a, h5 || b, max mp c)
    | .star .. => (h4, h5, if op = .quo then 5 else mp)
    | .unary _ rop _ =>
      let pair := op.text ++ rop.text
      if pair = "/*" ∨ pair = "&&" ∨ pair = "&^" then (h4, h5, 5)
      else if pair = "++" ∨ pair = "--" then (h4, h5, max mp 4)
      else (h4, h5, mp)
    | _ => (h4, h5, mp)
  | _ => (false, false, 0)

def cutoff (e : Expr) (depth : Nat) : Nat :=
  let (h4, h5, mp) := walkBinary e
  if mp > 0 then mp + 1
  else if h4 ∧ h5 then (if depth = 1 then 5 else 4)
  else if depth = 1 then 6 else 4

def diffPrec (x : Expr) (prec : Nat) : Nat :=
  match x with
  | .binary _ _ op _ => if op.precedence = prec then 0 else 1
  | _ => 1

def reduceDepth (depth : Nat) : Nat := max (depth - 1) 1

def isBinary : Expr → Bool
  | .binary .. => true
  | _ => false

def isTypeName : Expr → Bool
  | .ident _ => true
  | .selector x _ => isTypeName x
  | _ => false

def stripParensAlways : Expr → Expr
  | .paren _ x _ => stripParensAlways x
  | x => x

mutual

/-- Whether an expression holds, outside parentheses, a composite literal whose type is a
type name; parentheses around such an expression in a control clause must stay. -/
def Expr.hasNamedLiteral : Nat → Expr → Bool
  | 0, _ => false
  | n + 1, e =>
    match e with
    | .paren .. => false
    | .composite typ _ _ _ => typ.any isTypeName
    | .funcLit _ body => body.list.any (Stmt.hasNamedLiteral n)
    | .selector x _ | .star _ x | .unary _ _ x => Expr.hasNamedLiteral n x
    | .index x _ is _ => Expr.hasNamedLiteral n x || is.any (Expr.hasNamedLiteral n)
    | .slice x _ a b c _ _ =>
      Expr.hasNamedLiteral n x || [a, b, c].any fun o => o.any (Expr.hasNamedLiteral n)
    | .typeAssert x _ t _ => Expr.hasNamedLiteral n x || t.any (Expr.hasNamedLiteral n)
    | .call f _ args _ _ => Expr.hasNamedLiteral n f || args.any (Expr.hasNamedLiteral n)
    | .binary x _ _ y | .keyValue x _ y | .mapType _ x y =>
      Expr.hasNamedLiteral n x || Expr.hasNamedLiteral n y
    | .arrayType _ l t => l.any (Expr.hasNamedLiteral n) || Expr.hasNamedLiteral n t
    | .chanType _ _ _ v => Expr.hasNamedLiteral n v
    | .ellipsis _ t => t.any (Expr.hasNamedLiteral n)
    | _ => false

/-- Whether a statement holds such a composite literal. -/
def Stmt.hasNamedLiteral : Nat → Stmt → Bool
  | 0, _ => false
  | n + 1, s =>
    let ex := Expr.hasNamedLiteral n
    let st := Stmt.hasNamedLiteral n
    match s with
    | .labeled _ _ b => st b
    | .expr x | .goStmt _ x | .deferStmt _ x => ex x
    | .send a _ b => ex a || ex b
    | .incDec x _ _ => ex x
    | .assign l _ _ r => l.any ex || r.any ex
    | .returnStmt _ rs => rs.any ex
    | .block b => b.list.any st
    | .ifStmt _ i c b e => i.any st || ex c || b.list.any st || e.any st
    | .caseClause _ l _ b => l.any ex || b.any st
    | .switchStmt _ i t b => i.any st || t.any ex || b.list.any st
    | .typeSwitch _ i a b => i.any st || st a || b.list.any st
    | .commClause _ c _ b => c.any st || b.any st
    | .select _ b => b.list.any st
    | .forStmt _ i c p b => i.any st || c.any ex || p.any st || b.list.any st
    | .range _ k v _ _ _ x b => k.any ex || v.any ex || ex x || b.list.any st
    | _ => false

end

def stripParens : Expr → Expr
  | .paren lp inner rp =>
    if Expr.hasNamedLiteral (8 * (inner.stop - inner.start) + 8) inner then .paren lp inner rp
    else stripParens inner
  | x => x

def combinesWithName : Expr → Bool
  | .star _ x => !x.isTypeElem
  | .binary x _ _ y => combinesWithName x && !y.isTypeElem
  | _ => false

def keepTypeColumn (specs : List Spec) : List Bool :=
  let info := specs.map fun s => match s with
    | .value _ _ typ values _ => (!values.isEmpty, typ.isSome)
    | _ => (false, false)
  let (out, run, keep) := info.foldl (fun (acc : Array Bool × Nat × Bool) (hasValues, hasType) =>
    let (out, run, keep) := acc
    let (out, run, keep) :=
      if hasValues then
        if run = 0 then (out, 1, false) else (out, run + 1, keep)
      else ((out ++ Array.replicate run keep).push false, 0, keep)
    (out, run, keep || hasType)) (#[], 0, false)
  (out ++ Array.replicate run keep).toList

/-- The form of an expression, as a number. -/
def Expr.form : Expr → Nat
  | .bad .. => 0 | .ident .. => 1 | .basic .. => 2 | .composite .. => 3 | .funcLit .. => 4
  | .paren .. => 5 | .selector .. => 6 | .index .. => 7 | .slice .. => 8 | .typeAssert .. => 9
  | .call .. => 10 | .star .. => 11 | .unary .. => 12 | .binary .. => 13 | .keyValue .. => 14
  | .arrayType .. => 15 | .structType .. => 16 | .funcType .. => 17 | .interfaceType .. => 18
  | .mapType .. => 19 | .chanType .. => 20 | .ellipsis .. => 21

/-- The form of a statement, as a number. -/
def Stmt.form : Stmt → Nat
  | .bad .. => 0 | .decl .. => 1 | .empty .. => 2 | .labeled .. => 3 | .expr .. => 4
  | .send .. => 5 | .incDec .. => 6 | .assign .. => 7 | .goStmt .. => 8 | .deferStmt .. => 9
  | .returnStmt .. => 10 | .branch .. => 11 | .block .. => 12 | .ifStmt .. => 13
  | .caseClause .. => 14 | .switchStmt .. => 15 | .typeSwitch .. => 16 | .commClause .. => 17
  | .select .. => 18 | .forStmt .. => 19 | .range .. => 20

/-- A node whose width may be measured. -/
inductive Sized where
  | expr (e : Expr)
  | stmt (s : Stmt)

/-- The cache key of a node. -/
def Sized.key : Sized → SizeKey
  | .expr e => ⟨0, e.form, e.start, e.stop⟩
  | .stmt s => ⟨1, s.form, s.start, s.stop⟩

/-- How parameters are bracketed: parameters of a function, type parameters of a function,
or type parameters of a type. -/
inductive ParamMode where
  | funcParam | funcTParam | typeTParam
  deriving DecidableEq

def distanceFrom (start startCol : Nat) : Print Nat := do
  let s ← get
  let p ← posFor (some start)
  if s.pos.valid ∧ p.line = s.pos.line then return s.out.column - startCol
  return infinity

/-- Whether a list of results looks better indented as a whole: it spans lines, and an
element starts on a later line than the one before ends, or two elements span lines. -/
def indentList (list : List Expr) : Print Bool := do
  match list, list.getLast? with
  | x0 :: _ :: _, some xl =>
    let b ← lineFor (some x0.start)
    let e ← lineFor (some xl.stop)
    if 0 < b ∧ b < e then
      let mut n := 0
      let mut line := b
      for x in list do
        let xb ← lineFor (some x.start)
        let xe ← lineFor (some x.stop)
        if line < xb then return true
        if xb < xe then n := n + 1
        line := xe
      return n > 1
    return false
  | _, _ => return false

def labelDepth : Stmt → Nat
  | .labeled _ _ body => labelDepth body + 1
  | _ => 0

def identListSize (list : List Ident) (maxSize : Nat) : Nat :=
  (list.zipIdx.foldl (fun (acc : Nat × Bool) (x, i) =>
    if acc.2 then acc
    else
      let size := acc.1 + (if i > 0 then 2 else 0) + x.name.length
      (size, size ≥ maxSize)) (0, false)).1

mutual

/-- Print a list of expressions between `prev0` and `next0`, keeping the line breaks of the
text between elements and aligning one-line elements in columns. -/
def exprList (prev0 : Option Nat) (list : List Expr) (depth : Nat) (commaTerm noIndent : Bool)
    (next0 : Option Nat) : Nat → Print Unit
  | 0 => pure ()
  | n + 1 => do
    let some x0 := list.head? | return
    let prev ← posFor prev0
    let next ← posFor next0
    let line ← lineFor (some x0.start)
    let endLine ← lineFor (some (list.getLast?.getD x0).stop)
    if prev.valid ∧ prev.line = line ∧ line = endLine then
      for (x, i) in list.zipIdx do
        if i > 0 then
          setPos (some x.start)
          print [.token .comma, .space .blank]
        expr1 x 0 depth n
      return
    let mut ws : Space := if noIndent then .ignore else .indent
    let mut prevBreak : Int := -1
    if prev.valid ∧ prev.line < line then
      if (← linebreak line 0 ws true) > 0 then
        ws := .ignore
        prevBreak := 0
    let mut size := 0
    let mut lnsum : Float := 0
    let mut count := 0
    let mut prevLine := prev.line
    for (x, i) in list.zipIdx do
      let line ← lineFor (some x.start)
      let mut useFF := true
      let prevSize := size
      size ← nodeSize (.expr x) 1000000 n
      if size ≤ 1000000 ∧ prev.valid ∧ next.valid then
        if let .keyValue k _ _ := x then size ← nodeSize (.expr k) 1000000 n
      else size := 0
      if prevSize > 0 ∧ size > 0 then
        if count = 0 ∨ (prevSize ≤ 40 ∧ size ≤ 40) then useFF := false
        else
          let geomean := Float.exp (lnsum / count.toFloat)
          let ratio := size.toFloat / geomean
          useFF := 2.5 * ratio ≤ 1 ∨ 2.5 ≤ ratio
      let needsLinebreak := 0 < prevLine ∧ prevLine < line
      if i > 0 then
        if !needsLinebreak then setPos (some x.start)
        token .comma
        let mut needsBlank := true
        if needsLinebreak then
          let nbreaks ← linebreak line 0 ws (useFF ∨ prevBreak + 1 < i)
          if nbreaks > 0 then
            ws := .ignore
            prevBreak := i
            needsBlank := false
          if nbreaks > 1 then
            lnsum := 0
            count := 0
        if needsBlank then space .blank
      match x with
      | .keyValue k colon v =>
        if list.length > 1 ∧ size > 0 ∧ needsLinebreak then
          expr1 k 0 1 n
          setPos (some colon)
          print [.token .colon, .space .vtab]
          expr1 v 0 1 n
        else expr1 x 0 depth n
      | _ => expr1 x 0 depth n
      if size > 0 then
        lnsum := lnsum + Float.log size.toFloat
        count := count + 1
      prevLine := line
    if commaTerm ∧ next.valid ∧ (← get).pos.line < next.line then
      token .comma
      if ws = .ignore ∧ !noIndent then space .unindent
      space .formfeed
      return
    if ws = .ignore ∧ !noIndent then space .unindent
termination_by structural fuel => fuel

def identList (list : List Ident) (indent : Bool) : Nat → Print Unit
  | 0 => pure ()
  | n + 1 => exprList none (list.map Expr.ident) 1 false (!indent) none n
termination_by structural fuel => fuel

/-- Print an expression whose operators bind at least as strongly as `prec1`, at `depth`. -/
def expr1 (e : Expr) (prec1 depth : Nat) : Nat → Print Unit
  | 0 => pure ()
  | n + 1 => do
    setPos (some e.start)
    match e with
    | .bad .. => printItem (.name "BadExpr")
    | .ident x => printItem (.name x.name)
    | .binary .. => binaryExpr e prec1 (cutoff e (max depth 1)) (max depth 1) n
    | .keyValue k colon v =>
      expr1 k 0 1 n
      setPos (some colon)
      print [.token .colon, .space .blank]
      expr1 v 0 1 n
    | .star _ x =>
      if 6 < prec1 then
        print [.token .lparen, .token .mul]
        expr1 x 0 1 n
        token .rparen
      else
        token .mul
        expr1 x 0 1 n
    | .unary _ op x =>
      if 6 < prec1 then
        token .lparen
        expr1 e 0 1 n
        token .rparen
      else
        token op
        if op = .rangeKw then space .blank
        expr1 x 6 depth n
    | .basic _ kind v =>
      let raw := (← get).raw
      printItem (.literal kind (if raw then v else normalizedNumber kind v))
    | .funcLit sig body =>
      setPos (some sig.start)
      token .funcKw
      let startCol := (← get).out.column - 4
      signature sig n
      funcBody (← distanceFrom sig.start startCol) .blank body n
    | .paren _ x rp =>
      match x with
      | .paren .. => expr1 x 0 depth n
      | _ =>
        token .lparen
        expr1 x 0 (reduceDepth depth) n
        setPos (some rp)
        token .rparen
    | .selector .. => let _ ← selectorExpr e depth false n
    | .typeAssert x lp t rp =>
      expr1 x 7 depth n
      token .period
      setPos (some lp)
      token .lparen
      match t with
      | some t => expr1 t 0 1 n
      | none => token .typeKw
      setPos (some rp)
      token .rparen
    | .index x lb [i] rb =>
      expr1 x 7 1 n
      setPos (some lb)
      token .lbrack
      expr1 i 0 (depth + 1) n
      setPos (some rb)
      token .rbrack
    | .index x lb indices rb =>
      expr1 x 7 1 n
      setPos (some lb)
      token .lbrack
      exprList (some lb) indices (depth + 1) true false (some rb) n
      setPos (some rb)
      token .rbrack
    | .slice x lb lo hi mx _ rb =>
      expr1 x 7 1 n
      setPos (some lb)
      token .lbrack
      let indices := [lo, hi] ++ (if mx.isSome then [mx] else [])
      let present := indices.filterMap id
      let needsBlanks := depth ≤ 1 ∧ present.length > 1 ∧ present.any isBinary
      for (ix, i) in indices.zipIdx do
        if i > 0 then
          if (indices[i - 1]?.join).isSome ∧ needsBlanks then space .blank
          token .colon
          if ix.isSome ∧ needsBlanks then space .blank
        if let some y := ix then expr1 y 0 (depth + 1) n
      setPos (some rb)
      token .rbrack
    | .call fn lp args ell rp =>
      let depth := if args.length > 1 then depth + 1 else depth
      let paren := match fn with
        | .funcType _ => true
        | .chanType _ _ .recv _ => true
        | _ => false
      if paren then token .lparen
      let wasIndented ← possibleSelectorExpr fn 7 depth n
      if paren then token .rparen
      setPos (some lp)
      token .lparen
      match ell with
      | some el =>
        exprList (some lp) args depth false false (some el) n
        setPos (some el)
        token .ellipsis
        if (← lineFor (some el)) < (← lineFor (some rp)) then
          print [.token .comma, .space .formfeed]
      | none => exprList (some lp) args depth true false (some rp) n
      setPos (some rp)
      token .rparen
      if wasIndented then space .unindent
    | .composite typ lb elts rb =>
      if let some t := typ then expr1 t 7 depth n
      modify fun s => { s with level := s.level + 1 }
      setPos (some lb)
      token .lbrace
      exprList (some lb) elts 1 true false (some rb) n
      let noBlank := !elts.isEmpty
      print [.space .indent, .space .unindent, .toggle noBlank true]
      setPos (some rb)
      print [.token .rbrace, .toggle noBlank true]
      modify fun s => { s with level := s.level - 1 }
    | .ellipsis _ elt =>
      token .ellipsis
      if let some t := elt then expr1 t 0 1 n
    | .arrayType _ len elt =>
      token .lbrack
      if let some l := len then expr1 l 0 1 n
      token .rbrack
      expr1 elt 0 1 n
    | .structType _ fields =>
      token .structKw
      fieldList fields true n
    | .funcType sig =>
      token .funcKw
      signature sig n
    | .interfaceType _ methods =>
      token .interfaceKw
      fieldList methods false n
    | .mapType _ k v =>
      print [.token .mapKw, .token .lbrack]
      expr1 k 0 1 n
      token .rbrack
      expr1 v 0 1 n
    | .chanType _ arrow dir v =>
      match dir with
      | .both => token .chanKw
      | .recv => print [.token .arrow, .token .chanKw]
      | .send =>
        token .chanKw
        setPos arrow
        token .arrow
      space .blank
      expr1 v 0 1 n
termination_by structural fuel => fuel

/-- Print a binary expression, setting off operators below precedence `cut` by blanks, and
keeping a line break of the text after an operator. -/
def binaryExpr (e : Expr) (prec1 cut depth : Nat) : Nat → Print Unit
  | 0 => pure ()
  | n + 1 => do
    let .binary x opPos op y := e | expr1 e prec1 depth n
    let prec := op.precedence
    if prec < prec1 then
      token .lparen
      expr1 e 0 (reduceDepth depth) n
      token .rparen
      return
    let mut printBlank := decide (prec < cut)
    let mut ws : Space := .indent
    expr1 x prec (depth + diffPrec x prec) n
    if printBlank then space .blank
    let xline := (← get).pos.line
    let yline ← lineFor (some y.start)
    setPos (some opPos)
    token op
    if xline ≠ yline ∧ xline > 0 ∧ yline > 0 then
      if (← linebreak yline 1 ws true) > 0 then
        ws := .ignore
        printBlank := false
    if printBlank then space .blank
    expr1 y (prec + 1) (depth + 1) n
    if ws = .ignore then space .unindent
termination_by structural fuel => fuel

/-- Print a selector expression; a selector on a later line than its operand goes on an
indented line. Returns whether it did so and the indentation is still open. -/
def selectorExpr (e : Expr) (depth : Nat) (isMethod : Bool) : Nat → Print Bool
  | 0 => pure false
  | n + 1 => do
    let .selector x sel := e | do expr1 e 0 depth n; return false
    expr1 x 7 depth n
    token .period
    let line ← lineFor (some sel.pos)
    let s ← get
    if s.pos.valid ∧ s.pos.line < line then
      print [.space .indent, .space .newline]
      setPos (some sel.pos)
      printItem (.name sel.name)
      if !isMethod then space .unindent
      return true
    setPos (some sel.pos)
    printItem (.name sel.name)
    return false
termination_by structural fuel => fuel

def possibleSelectorExpr (e : Expr) (prec1 depth : Nat) : Nat → Print Bool
  | 0 => pure false
  | n + 1 => do
    match e with
    | .selector .. => selectorExpr e depth true n
    | _ =>
      expr1 e prec1 depth n
      return false
termination_by structural fuel => fuel

/-- Print a parameter list, or a type parameter list in brackets. -/
def parameters (fields : FieldList) (mode : ParamMode) : Nat → Print Unit
  | 0 => pure ()
  | n + 1 => do
    let (openTok, closeTok) : Token × Token :=
      if mode = .funcParam then (.lparen, .rparen) else (.lbrack, .rbrack)
    setPos fields.opening
    token openTok
    if !fields.list.isEmpty then
      let mut prevLine ← lineFor fields.opening
      let mut ws : Space := .indent
      for (par, i) in fields.list.zipIdx do
        let parLineBeg ← lineFor (some par.start)
        let parLineEnd ← lineFor (some par.typ.start)
        let needsLinebreak := 0 < prevLine ∧ prevLine < parLineBeg
        if i > 0 then
          if !needsLinebreak then setPos (some par.start)
          token .comma
        let mut broke := false
        if needsLinebreak then
          if (← linebreak parLineBeg 0 ws true) > 0 then
            ws := .ignore
            broke := true
        if !broke ∧ i > 0 then space .blank
        if !par.names.isEmpty then
          identList par.names (ws = .indent) n
          space .blank
        expr1 (stripParensAlways par.typ) 0 1 n
        prevLine := parLineEnd
      let closing ← lineFor fields.closing
      if 0 < prevLine ∧ prevLine < closing then
        token .comma
        let _ ← linebreak closing 0 .ignore true
      else if mode = .typeTParam ∧ fields.numFields = 1 ∧
          (fields.list.head?.any fun f => combinesWithName (stripParensAlways f.typ)) then
        token .comma
      if ws = .ignore then space .unindent
    setPos fields.closing
    token closeTok
termination_by structural fuel => fuel

/-- Print the parameters and results of a function type, without `func`. -/
def signature (sig : Signature) : Nat → Print Unit
  | 0 => pure ()
  | n + 1 => do
    if let some tp := sig.tparams then parameters tp .funcTParam n
    parameters sig.params .funcParam n
    if let some res := sig.results then
      if res.numFields > 0 then
        space .blank
        match res.list with
        | [f] =>
          if f.names.isEmpty then
            expr1 (stripParensAlways f.typ) 0 1 n
            return
        | _ => pure ()
        parameters res .funcParam n
termination_by structural fuel => fuel

def isOneLineFieldList (list : List Field) : Nat → Print Bool
  | 0 => pure false
  | n + 1 => do
    match list with
    | [f] =>
      if f.tag.isSome ∨ f.comment.isSome then return false
      let namesSize := if identListSize f.names 30 > 0 then 1 else 0
      let typeSize ← nodeSize (.expr f.typ) 30 n
      return namesSize + typeSize ≤ 30
    | _ => return false
termination_by structural fuel => fuel

/-- Print the fields of a struct, or the methods and elements of an interface. -/
def fieldList (fields : FieldList) (isStruct : Bool) : Nat → Print Unit
  | 0 => pure ()
  | n + 1 => do
    let lbrace := fields.opening
    let rbrace := fields.closing
    let list := fields.list
    let hasComments ← commentBefore (← posFor rbrace)
    let srcIsOneLine := lbrace.isSome ∧ rbrace.isSome ∧
      (← lineFor lbrace) = (← lineFor rbrace)
    if !hasComments ∧ srcIsOneLine then
      if list.isEmpty then
        setPos lbrace
        token .lbrace
        setPos rbrace
        token .rbrace
        return
      if ← isOneLineFieldList list n then
        setPos lbrace
        print [.token .lbrace, .space .blank]
        if let some f := list.head? then
          if isStruct then
            for (x, i) in f.names.zipIdx do
              if i > 0 then print [.token .comma, .space .blank]
              expr1 (.ident x) 0 1 n
            if !f.names.isEmpty then space .blank
            expr1 f.typ 0 1 n
          else
            match f.names, f.typ with
            | name :: _, .funcType sig =>
              expr1 (.ident name) 0 1 n
              signature sig n
            | _, _ => expr1 f.typ 0 1 n
        space .blank
        setPos rbrace
        token .rbrace
        return
    space .blank
    setPos lbrace
    print [.token .lbrace, .space .indent]
    if hasComments ∨ !list.isEmpty then space .formfeed
    if isStruct then
      let sep : Space := if list.length = 1 then .blank else .vtab
      let mut slot := 0
      for (f, i) in list.zipIdx do
        if i > 0 then
          let _ ← linebreak (← lineFor (some f.start)) 1 .ignore ((← linesFrom slot) > 0)
        let mut extraTabs := 0
        setComment f.doc
        slot ← recordLine
        if !f.names.isEmpty then
          identList f.names false n
          space sep
          expr1 f.typ 0 1 n
          extraTabs := 1
        else
          expr1 f.typ 0 1 n
          extraTabs := 2
        if let some tag := f.tag then
          if !f.names.isEmpty ∧ sep = .vtab then space sep
          space sep
          expr1 tag 0 1 n
          extraTabs := 0
        if f.comment.isSome then
          for _ in List.range extraTabs do space sep
          setComment f.comment
    else
      let mut slot := 0
      for (f, i) in list.zipIdx do
        if i > 0 then
          let _ ← linebreak (← lineFor (some f.start)) 1 .ignore ((← linesFrom slot) > 0)
        setComment f.doc
        slot ← recordLine
        match f.names, f.typ with
        | name :: _, .funcType sig =>
          expr1 (.ident name) 0 1 n
          signature sig n
        | _, _ => expr1 f.typ 0 1 n
        setComment f.comment
    print [.space .unindent, .space .formfeed]
    setPos rbrace
    token .rbrace
termination_by structural fuel => fuel

def bodySize (b : Block) (maxSize : Nat) : Nat → Print Nat
  | 0 => pure (maxSize + 1)
  | n + 1 => do
    if (← lineFor (some b.lbrace)) ≠ (← lineFor (some b.rbrace)) then return maxSize + 1
    if b.list.length > 5 then return maxSize + 1
    let mut size ← commentSizeBefore (← posFor (some b.rbrace))
    for (s, i) in b.list.zipIdx do
      if size > maxSize then break
      if i > 0 then size := size + 2
      size := size + (← nodeSize (.stmt s) maxSize n)
    return size
termination_by structural fuel => fuel

/-- Print a function body after a header `headerSize` wide: on the header's line, set off by
`sep`, when both fit in 100 columns; otherwise as a block. -/
def funcBody (headerSize : Nat) (sep : Space) (b : Block) : Nat → Print Unit
  | 0 => pure ()
  | n + 1 => do
    let level := (← get).level
    modify fun s => { s with level := 0 }
    if headerSize + (← bodySize b 100 n) ≤ 100 then
      space sep
      setPos (some b.lbrace)
      token .lbrace
      if !b.list.isEmpty then
        space .blank
        for (s, i) in b.list.zipIdx do
          if i > 0 then print [.token .semicolon, .space .blank]
          stmt s (i + 1 = b.list.length) n
        space .blank
      printItem (.toggle false true)
      setPos (some b.rbrace)
      print [.token .rbrace, .toggle false true]
    else
      if sep ≠ .ignore then space .blank
      block b 1 n
    modify fun s => { s with level := level }
termination_by structural fuel => fuel

/-- Print a block; it always spans at least two lines. -/
def block (b : Block) (nindent : Nat) : Nat → Print Unit
  | 0 => pure ()
  | n + 1 => do
    setPos (some b.lbrace)
    token .lbrace
    stmtList b.list nindent true n
    let _ ← linebreak (← lineFor (some b.rbrace)) 1 .ignore true
    setPos (some b.rbrace)
    token .rbrace
termination_by structural fuel => fuel

/-- Print statements, each on its own line, keeping up to one empty line of the text between
them; `nindent` levels deeper. -/
def stmtList (list : List Stmt) (nindent : Nat) (nextIsRBrace : Bool) : Nat → Print Unit
  | 0 => pure ()
  | n + 1 => do
    if nindent > 0 then space .indent
    let mut slot := 0
    let mut i := 0
    for s in list do
      match s with
      | .empty .. => pure ()
      | _ =>
        if !(← get).output.isEmpty then
          let newSection ← if i = 0 ∨ nindent = 0 then pure true else do
            pure ((← linesFrom slot) > 0)
          let _ ← linebreak (← lineFor (some s.start)) 1 .ignore newSection
        slot ← recordLine
        stmt s (nextIsRBrace ∧ i + 1 = list.length) n
        let labels := labelDepth s
        modify fun st => { st with lineSlots := st.lineSlots.modify slot (· + labels) }
        i := i + 1
    if nindent > 0 then space .unindent
termination_by structural fuel => fuel

/-- Print the header of an `if`, `switch` or `for` statement. -/
def controlClause (isForStmt : Bool) (init : Option Stmt) (cond : Option Expr)
    (post : Option Stmt) : Nat → Print Unit
  | 0 => pure ()
  | n + 1 => do
    space .blank
    let mut needsBlank := false
    if init.isNone ∧ post.isNone then
      if let some c := cond then
        expr1 (stripParens c) 0 1 n
        needsBlank := true
    else
      if let some s := init then stmt s false n
      print [.token .semicolon, .space .blank]
      if let some c := cond then
        expr1 (stripParens c) 0 1 n
        needsBlank := true
      if isForStmt then
        print [.token .semicolon, .space .blank]
        needsBlank := false
        if let some s := post then
          stmt s false n
          needsBlank := true
    if needsBlank then space .blank
termination_by structural fuel => fuel

/-- Print a statement; `nextIsRBrace` when a closing brace follows it. -/
def stmt (s : Stmt) (nextIsRBrace : Bool) : Nat → Print Unit
  | 0 => pure ()
  | n + 1 => do
    setPos (some s.start)
    match s with
    | .bad .. => printItem (.name "BadStmt")
    | .decl d => genDecl d n
    | .empty .. => pure ()
    | .labeled label colon body =>
      space .unindent
      expr1 (.ident label) 0 1 n
      setPos (some colon)
      print [.token .colon, .space .indent]
      match body with
      | .empty p _ =>
        if !nextIsRBrace then
          space .newline
          setPos (some p)
          token .semicolon
        else stmt body nextIsRBrace n
      | _ =>
        let _ ← linebreak (← lineFor (some body.start)) 1 .ignore true
        stmt body nextIsRBrace n
    | .expr x => expr1 x 0 1 n
    | .send ch arrow v =>
      expr1 ch 0 1 n
      space .blank
      setPos (some arrow)
      print [.token .arrow, .space .blank]
      expr1 v 0 1 n
    | .incDec x tokPos tok =>
      expr1 x 0 2 n
      setPos (some tokPos)
      token tok
    | .assign lhs tokPos tok rhs =>
      let depth := if lhs.length > 1 ∧ rhs.length > 1 then 2 else 1
      exprList (some s.start) lhs depth false false (some tokPos) n
      space .blank
      setPos (some tokPos)
      print [.token tok, .space .blank]
      exprList (some tokPos) rhs depth false false none n
    | .goStmt _ call =>
      print [.token .goKw, .space .blank]
      expr1 call 0 1 n
    | .deferStmt _ call =>
      print [.token .deferKw, .space .blank]
      expr1 call 0 1 n
    | .returnStmt _ results =>
      token .returnKw
      if !results.isEmpty then
        space .blank
        if ← indentList results then
          space .indent
          exprList none results 1 false true none n
          space .unindent
        else exprList none results 1 false false none n
    | .branch _ tok label =>
      token tok
      if let some l := label then
        space .blank
        expr1 (.ident l) 0 1 n
    | .block b => block b 1 n
    | .ifStmt _ init cond body els =>
      token .ifKw
      controlClause false init (some cond) none n
      block body 1 n
      if let some e := els then
        print [.space .blank, .token .elseKw, .space .blank]
        match e with
        | .block _ | .ifStmt .. => stmt e nextIsRBrace n
        | _ =>
          print [.token .lbrace, .space .indent, .space .formfeed]
          stmt e true n
          print [.space .unindent, .space .formfeed, .token .rbrace]
    | .caseClause _ list colon body =>
      if !list.isEmpty then
        print [.token .caseKw, .space .blank]
        exprList (some s.start) list 1 false false (some colon) n
      else token .defaultKw
      setPos (some colon)
      token .colon
      stmtList body 1 nextIsRBrace n
    | .switchStmt _ init tag body =>
      token .switchKw
      controlClause false init tag none n
      block body 0 n
    | .typeSwitch _ init assign body =>
      token .switchKw
      if let some i := init then
        space .blank
        stmt i false n
        token .semicolon
      space .blank
      stmt assign false n
      space .blank
      block body 0 n
    | .commClause _ comm colon body =>
      match comm with
      | some c =>
        print [.token .caseKw, .space .blank]
        stmt c false n
      | none => token .defaultKw
      setPos (some colon)
      token .colon
      stmtList body 1 nextIsRBrace n
    | .select _ body =>
      print [.token .selectKw, .space .blank]
      if body.list.isEmpty ∧ !(← commentBefore (← posFor (some body.rbrace))) then
        setPos (some body.lbrace)
        token .lbrace
        setPos (some body.rbrace)
        token .rbrace
      else block body 0 n
    | .forStmt _ init cond post body =>
      token .forKw
      controlClause true init cond post n
      block body 1 n
    | .range _ key value tokPos tok _ x body =>
      print [.token .forKw, .space .blank]
      if let some k := key then
        expr1 k 0 1 n
        if let some v := value then
          setPos (some v.start)
          print [.token .comma, .space .blank]
          expr1 v 0 1 n
        space .blank
        setPos (some tokPos)
        print [.token tok, .space .blank]
      print [.token .rangeKw, .space .blank]
      expr1 (stripParens x) 0 1 n
      space .blank
      block body 1 n
termination_by structural fuel => fuel

/-- Print a `const` or `var` spec of a group, in columns: names, type, values, comment. -/
def valueSpec (s : Spec) (keepType : Bool) : Nat → Print Unit
  | 0 => pure ()
  | n + 1 => do
    let .value doc names typ values comment := s | spec s 1 false n
    setComment doc
    identList names false n
    let mut extraTabs := 3
    if typ.isSome ∨ keepType then
      space .vtab
      extraTabs := extraTabs - 1
    if let some t := typ then expr1 t 0 1 n
    if !values.isEmpty then
      print [.space .vtab, .token .assign, .space .blank]
      exprList none values 1 false false none n
      extraTabs := extraTabs - 1
    if comment.isSome then
      for _ in List.range extraTabs do space .vtab
      setComment comment
termination_by structural fuel => fuel

/-- Print a spec of a declaration of `count` specs; `doIndent` indents names that continue on
another line. -/
def spec (s : Spec) (count : Nat) (doIndent : Bool) : Nat → Print Unit
  | 0 => pure ()
  | n + 1 => do
    match s with
    | .importSpec doc name path comment =>
      setComment doc
      if let some x := name then
        expr1 (.ident x) 0 1 n
        space .blank
      expr1 path 0 1 n
      setComment comment
    | .value doc names typ values comment =>
      setComment doc
      identList names doIndent n
      if let some t := typ then
        space .blank
        expr1 t 0 1 n
      if !values.isEmpty then
        print [.space .blank, .token .assign, .space .blank]
        exprList none values 1 false false none n
      setComment comment
    | .type doc name tparams assign typ comment =>
      setComment doc
      expr1 (.ident name) 0 1 n
      if let some tp := tparams then parameters tp .typeTParam n
      space (if count = 1 then .blank else .vtab)
      if assign.isSome then print [.token .assign, .space .blank]
      expr1 typ 0 1 n
      setComment comment
termination_by structural fuel => fuel

/-- Print an `import`, `const`, `var` or `type` declaration. -/
def genDecl (d : GenDecl) : Nat → Print Unit
  | 0 => pure ()
  | n + 1 => do
    setComment d.doc
    setPos (some d.tokPos)
    print [.token d.tok, .space .blank]
    let specs := d.specs
    if d.lparen.isSome ∨ specs.length ≠ 1 then
      setPos d.lparen
      token .lparen
      if !specs.isEmpty then
        print [.space .indent, .space .formfeed]
        let mut slot := 0
        if specs.length > 1 ∧ (d.tok = .constKw ∨ d.tok = .varKw) then
          let keep := keepTypeColumn specs
          for (s, i) in specs.zipIdx do
            if i > 0 then
              let _ ← linebreak (← lineFor (some s.start)) 1 .ignore ((← linesFrom slot) > 0)
            slot ← recordLine
            valueSpec s (keep[i]?.getD false) n
        else
          for (s, i) in specs.zipIdx do
            if i > 0 then
              let _ ← linebreak (← lineFor (some s.start)) 1 .ignore ((← linesFrom slot) > 0)
            slot ← recordLine
            spec s specs.length false n
        print [.space .unindent, .space .formfeed]
      setPos d.rparen
      token .rparen
    else if let some s := specs.head? then spec s 1 true n
termination_by structural fuel => fuel

def printAlone (node : Sized) : Nat → Print Unit
  | 0 => pure ()
  | n + 1 => do
    nextComment
    match node with
    | .expr e => expr1 e 0 1 n
    | .stmt s =>
      if let .labeled .. := s then modify fun st => { st with indent := 1 }
      stmt s false n
    modify fun st => { st with impliedSemi := false }
    let _ ← flush Place.beyond .eof
termination_by structural fuel => fuel

/-- The width of a node printed on one line, or more than `maxSize` when it does not fit in
`maxSize` columns or needs more than one line. Widths are cached per node; a node being
measured counts as too wide. -/
def nodeSize (node : Sized) (maxSize : Nat) : Nat → Print Nat
  | 0 => pure (maxSize + 1)
  | n + 1 => do
    let key := node.key
    let s ← get
    if let some size := s.sizes[key]? then return size
    let sizes := s.sizes.insert key (maxSize + 1)
    let sub : Printer := { Printer.init s.src true with useNodeComments := true, sizes := sizes }
    let ((), sub) := (printAlone node n).run sub
    let text := plainText sub.output
    let size := text.utf8ByteSize
    let fits := size ≤ maxSize ∧ !text.contains '\n'
    let sizes := if fits then sub.sizes.insert key size else sub.sizes
    set { s with sizes := sizes }
    return if fits then size else maxSize + 1
termination_by structural fuel => fuel

end

end TableSource

end PagedAsm
