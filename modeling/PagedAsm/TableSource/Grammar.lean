import PagedAsm.TableSource.Reader

/-!
# Reading the table source

A recursive-descent reader of the whole language: declarations, types, expressions and
statements, building the syntax tree with the positions of all its tokens. It keeps going
after a fault, so that later faults are found too: a missing token is recorded and taken as
present, a list reads on as if a comma stood where one is missing, and where nothing fits it
skips to a token at which reading can resume.

Every reading step takes a bound on its depth of nesting, and every loop a bound on its
rounds; the reader is started with bounds far above what any text of its size needs.
-/

namespace PagedAsm

namespace TableSource

def foldRead {α : Type} (body : α → Read (α × Bool)) : Nat → α → Read α
  | 0, a => pure a
  | fuel + 1, a => do
    let (a, more) ← body a
    if more then foldRead body fuel a else pure a

def loopBound : Read Nat := return (← get).scan.remaining * 16 + 16

def readTypeName (given : Option Ident) : Read Expr := do
  let id ← match given with
    | some i => pure i
    | none => readIdent
  if (← current) = .period then
    step
    return .selector (.ident id) (← readIdent)
  return .ident id

/-- A parameter as read: a name, a type, or both. -/
structure Param where
  name : Option Ident
  typ : Option Expr

def missingName (list : List Param) : Option Nat :=
  (list.reverse.foldl (fun (acc : Option Nat × Option Expr) par =>
    match par.typ with
    | some t => (if par.name.isNone then some t.start else acc.1, some t)
    | none =>
      match acc.2 with
      | some _ => acc
      | none => ((par.name.map Ident.pos).orElse fun _ => acc.1, none)) (none, none)).1

def shareTypes (list : List Param) (stop : Nat) : List (Ident × Expr × Bool) :=
  (list.foldr (fun par (acc : List (Ident × Expr × Bool) × Option Expr) =>
    match par.typ, acc.2 with
    | some t, _ => ((par.name.getD ⟨t.start, "_"⟩, t, false) :: acc.1, some t)
    | none, some t => ((par.name.getD ⟨0, "_"⟩, t, true) :: acc.1, some t)
    | none, none =>
      let n := par.name.getD ⟨0, "_"⟩
      ((n, .bad n.pos stop, false) :: acc.1, none)) ([], none)).1

def groupParams (list : List (Ident × Expr × Bool)) : List Field :=
  (list.foldl (fun (acc : Array Field × Array Ident) (n, t, shared) =>
    if shared then (acc.1, acc.2.push n)
    else (acc.1.push (.mk none (acc.2.push n).toList t none none), #[])) (#[], #[])).1.toList

def paramFields (list : List Param) (named stop : Nat) : List Field :=
  if named = 0 then
    list.filterMap fun par =>
      match par.typ, par.name with
      | some t, _ => some (.mk none [] t none none)
      | none, some n => some (.mk none [] (.ident n) none none)
      | none, none => none
  else groupParams (shareTypes list stop)

def expectedAt (pos : Option Nat) (what : String) : Read Unit :=
  match pos with
  | some p => expected p what
  | none => pure ()

def joinArrow (arrow : Nat) : Expr → Read (Expr × Option Nat × ChanDir)
  | .chanType _ tArrow tDir value => do
    if tDir = .recv then expectedAt tArrow "'chan'"
    if tDir = .send then
      match value, tArrow with
      | .chanType .., some a =>
        let (value, last, dir) ← joinArrow a value
        return (.chanType arrow (some arrow) .recv value, last, dir)
      | _, _ => return (.chanType arrow (some arrow) .recv value, tArrow, tDir)
    else return (.chanType arrow (some arrow) .recv value, tArrow, tDir)
  | x => return (x, some arrow, .both)

def safePos (o : Nat) : Read Nat := do
  let size := (← get).scan.src.size
  return if o ≤ size then o else size

def asExpr (s : Option Stmt) (want : String) : Read (Option Expr) := do
  match s with
  | none => return none
  | some (.expr x) => return some x
  | some s =>
    let found := match s with
      | .assign .. => "assignment"
      | _ => "simple statement"
    fault s.start ("expected " ++ want ++ ", found " ++ found ++
      " (missing parentheses around composite literal?)")
    return some (.bad s.start (← safePos s.stop))

def isTypeSwitchAssert : Expr → Bool
  | .typeAssert _ _ none _ => true
  | _ => false

def isTypeSwitchGuard (s : Option Stmt) : Read Bool := do
  match s with
  | some (.expr x) => return isTypeSwitchAssert x
  | some (.assign [_] tokPos tok [x]) =>
    if !isTypeSwitchAssert x then return false
    if tok = .assign then
      fault tokPos "expected ':=', found '='"
      return true
    return tok = .define
  | _ => return false

/-- Where a simple statement may stand: anywhere, as a labelled statement, or as a range
clause. -/
inductive StmtMode where
  | basic | labelOk | rangeOk
  deriving DecidableEq

/-- Read an import path with its optional name, and the end of the spec. -/
def readImportSpec (doc : Option CommentGroup) : Read Spec := do
  let name ← match ← current with
    | .ident => some <$> readIdent
    | .period => do
      let p ← here
      step
      pure (some ⟨p, "."⟩)
    | _ => pure none
  let r ← get
  let path ← if r.tok = .string then do
      step
      pure r.lit
    else if r.tok.isLiteral then do
      fault r.pos "import path must be a string"
      step
      pure ""
    else do
      fault r.pos "missing import path"
      advance Token.endsExpression
      pure ""
  let comment ← lineEnd
  return .importSpec doc name (.basic r.pos .string path) comment

def readBranch (kw : Token) : Read Stmt := do
  let p ← expect kw
  let label ← if kw ≠ .fallthroughKw ∧ (← current) = .ident then some <$> readIdent
    else pure none
  expectSemi
  return .branch p kw label

def rangeOf (pos : Nat) (x : Expr) : Expr := .unary pos .rangeKw x

mutual

/-- Read a type if one starts here. -/
def readTypeOpt : Nat → Read (Option Expr)
  | 0 => exhausted
  | n + 1 => do
    match ← current with
    | .ident =>
      let typ ← readTypeName none
      if (← current) = .lbrack then return some (← readTypeInstance typ n)
      return some typ
    | .lbrack =>
      let lb ← expect .lbrack
      return some (← readArrayType lb none n)
    | .structKw => return some (← readStructType n)
    | .mul => return some (← readPointerType n)
    | .funcKw => return some (.funcType (← readFuncSig n))
    | .interfaceKw => return some (← readInterfaceType n)
    | .mapKw => return some (← readMapType n)
    | .chanKw | .arrow => return some (← readChanType n)
    | .lparen =>
      let lp ← here
      step
      let t ← readType n
      let rp ← expect .rparen
      return some (.paren lp t rp)
    | _ => return none

def readType : Nat → Read Expr
  | 0 => exhausted
  | n + 1 => do
    match ← readTypeOpt n with
    | some t => return t
    | none =>
      let p ← here
      expected p "type"
      advance Token.endsExpression
      return .bad p (← here)

def readQualified (given : Option Ident) : Nat → Read Expr
  | 0 => exhausted
  | n + 1 => do
    let typ ← readTypeName given
    if (← current) = .lbrack then readTypeInstance typ n else return typ

/-- Read the type arguments `[T1, T2]` of a generic type. -/
def readTypeInstance (typ : Expr) : Nat → Read Expr
  | 0 => exhausted
  | n + 1 => do
    let opening ← expect .lbrack
    nest 1
    let list ← foldRead (fun (acc : Array Expr) => do
      let t ← current
      if t = .rbrack ∨ t = .eof then return (acc, false)
      let acc := acc.push (← readType n)
      if !(← atComma "type argument list" .rbrack) then return (acc, false)
      step
      return (acc, true)) (← loopBound) #[]
    nest (-1)
    let closing ← expectClosing .rbrack "type argument list"
    if list.isEmpty then
      expected closing "type argument list"
      return .index typ opening [.bad (opening + 1) closing] closing
    return .index typ opening list.toList closing

/-- Read an array or slice type after its `[` at `lbrack`; `len` is its length if already
read. -/
def readArrayType (lbrack : Nat) (len : Option Expr) : Nat → Read Expr
  | 0 => exhausted
  | n + 1 => do
    let mut len := len
    if len.isNone then
      nest 1
      let t ← current
      if t = .ellipsis then
        len := some (.ellipsis (← here) none)
        step
      else if t ≠ .rbrack then len := some (← readRhs n)
      nest (-1)
    if (← current) = .comma then
      fault (← here) "unexpected comma; expecting ]"
      step
    let _ ← expect .rbrack
    let elt ← readType n
    return .arrayType lbrack len elt

def readStructType : Nat → Read Expr
  | 0 => exhausted
  | n + 1 => do
    let p ← expect .structKw
    let lb ← expect .lbrace
    let fields ← foldRead (fun (acc : Array Field) => do
      let t ← current
      if t = .ident ∨ t = .mul ∨ t = .lparen then
        return (acc.push (← readFieldDecl n), true)
      return (acc, false)) (← loopBound) #[]
    let rb ← expect .rbrace
    return .structType p (.mk (some lb) fields.toList (some rb))

def readNamedField : Nat → Read (List Ident × Expr)
  | 0 => exhausted
  | n + 1 => do
    let name ← readIdent
    let t ← current
    if t = .period ∨ t = .string ∨ t = .semicolon ∨ t = .rbrace then
      if t = .period then return ([], ← readQualified (some name) n)
      return ([], .ident name)
    let names ← readIdentsFrom (← loopBound) #[name]
    if names.size = 1 ∧ (← current) = .lbrack then
      let (nm, ty) ← readArrayFieldOrInstance name n
      return (if nm.isSome then [name] else [], ty)
    return (names.toList, ← readType n)

/-- Read the type of an embedded field written with `*` or in parentheses (a fault). -/
def readEmbeddedField : Nat → Read Expr
  | 0 => exhausted
  | n + 1 => do
    if (← current) = .mul then
      let star ← here
      step
      if (← current) = .lparen then
        fault (← here) "cannot parenthesize embedded type"
        step
        let t ← readQualified none n
        if (← current) = .rparen then step
        return .star star t
      return .star star (← readQualified none n)
    fault (← here) "cannot parenthesize embedded type"
    step
    let t ← if (← current) = .mul then do
        let star ← here
        step
        pure (Expr.star star (← readQualified none n))
      else readQualified none n
    if (← current) = .rparen then step
    return t

/-- Read a field declaration of a struct type. -/
def readFieldDecl : Nat → Read Field
  | 0 => exhausted
  | n + 1 => do
    let doc := (← get).leadComment
    let (names, typ) ← match ← current with
      | .ident => readNamedField n
      | .mul | .lparen => do
        let t ← readEmbeddedField n
        pure ([], t)
      | _ => do
        let p ← here
        expected p "field name or embedded type"
        advance Token.endsExpression
        pure ([], Expr.bad p (← here))
    let r ← get
    let tag ← if r.tok = .string then do
        step
        pure (some (Expr.basic r.pos .string r.lit))
      else pure none
    let comment ← lineEnd
    return .mk doc names typ tag comment

/-- After a name `x`, read `[...]`: an array type `[N]E` or `[]E` of a field or parameter
named `x`, or the type arguments of a generic type `x`. Returns the name, if any, and the
type. -/
def readArrayFieldOrInstance (x : Ident) : Nat → Read (Option Ident × Expr)
  | 0 => exhausted
  | n + 1 => do
    let lbrack ← expect .lbrack
    let mut args : Array Expr := #[]
    let mut trailing : Option Nat := none
    if (← current) ≠ .rbrack then
      nest 1
      let first ← readRhs n
      let (a, tr) ← foldRead (fun (acc : Array Expr × Option Nat) => do
        if (← current) ≠ .comma then return (acc, false)
        let comma ← here
        step
        if (← current) = .rbrack then return ((acc.1, some comma), false)
        return ((acc.1.push (← readRhs n), acc.2), true)) (← loopBound) (#[first], none)
      args := a
      trailing := tr
      nest (-1)
    let rbrack ← expect .rbrack
    if args.isEmpty then
      let elt ← readType n
      return (some x, .arrayType lbrack none elt)
    if args.size = 1 then
      if let some elt ← readTypeOpt n then
        if let some c := trailing then fault c "unexpected comma; expecting ]"
        return (some x, .arrayType lbrack args[0]? elt)
    return (none, .index (.ident x) lbrack args.toList rbrack)

def readPointerType : Nat → Read Expr
  | 0 => exhausted
  | n + 1 => do
    let p ← expect .mul
    let elt ← readType n
    return .star p elt

def readDotsType : Nat → Read Expr
  | 0 => exhausted
  | n + 1 => do
    let p ← expect .ellipsis
    let elt ← readType n
    return .ellipsis p (some elt)

def readFuncSig : Nat → Read Signature
  | 0 => exhausted
  | n + 1 => do
    let p ← expect .funcKw
    let (tparams, params) ← readParameters true n
    if let some tp := tparams then
      fault tp.start "function type must have no type parameters"
    let results ← readResult n
    return .mk (some p) none params results

/-- Read parameters `(...)`, after type parameters `[...]` where `acceptTypeParams` allows
them; empty type parameters are a fault and count as none. -/
def readParameters (acceptTypeParams : Bool) : Nat → Read (Option FieldList × FieldList)
  | 0 => exhausted
  | n + 1 => do
    let mut tparams : Option FieldList := none
    if acceptTypeParams ∧ (← current) = .lbrack then
      let opening ← here
      step
      let list ← readParamList none none .rbrack n
      let rbrack ← expect .rbrack
      if list.isEmpty then fault rbrack "empty type parameter list"
      else tparams := some (.mk (some opening) list (some rbrack))
    let opening ← expect .lparen
    let list ← if (← current) ≠ .rparen then readParamList none none .rparen n else pure []
    let rparen ← expect .rparen
    return (tparams, .mk (some opening) list (some rparen))

/-- Read a parameter list up to `closing` (`]` for type parameters); `name0` and `typ0` are
its first name and type if already read. -/
def readParamList (name0 : Option Ident) (typ0 : Option Expr) (closing : Token) :
    Nat → Read (List Field)
  | 0 => exhausted
  | n + 1 => do
    let typeParams := closing = .rbrack
    let pos0 ← match name0, typ0 with
      | some x, _ => pure x.pos
      | none, some t => pure t.start
      | none, none => here
    let (list, _, _) ← foldRead (fun (st : Array Param × Option Ident × Option Expr) => do
      let (list, nm0, ty0) := st
      let t ← current
      if nm0.isNone ∧ (t = closing ∨ t = .eof) then return (st, false)
      let par ← match ty0 with
        | some ty => do
          let ty ← if typeParams then readEmbeddedElem (some ty) n else pure ty
          pure (Param.mk nm0 (some ty))
        | none => readParamDecl nm0 typeParams n
      let list := if par.name.isSome ∨ par.typ.isSome then list.push par else list
      if !(← atComma "parameter list" closing) then return ((list, none, none), false)
      step
      return ((list, none, none), true)) (← loopBound) (#[], name0, typ0)
    if list.isEmpty then return []
    let named := (list.filter fun p => p.name.isSome ∧ p.typ.isSome).size
    let typed := (list.filter fun p => p.typ.isSome).size
    let orLength := if list.size = 1 then " or invalid array length" else ""
    if named = 0 then
      if typeParams then
        if named = typed then fault (← here) "missing type constraint"
        else fault pos0 ("missing type parameter name" ++ orLength)
    else if named ≠ list.size then
      if let some e := missingName list.toList then
        fault e (if typeParams then "missing type parameter name" ++ orLength
          else "mixed named and unnamed parameters")
    return paramFields list.toList named (← here)

/-- Read one parameter; `name0` is its name if already read, and type set terms are allowed
in type parameter lists. -/
def readParamDecl (name0 : Option Ident) (typeSets : Bool) : Nat → Read Param
  | 0 => exhausted
  | n + 1 => do
    let t ← current
    if name0.isNone ∧ typeSets ∧ t = .tilde then
      return ⟨none, some (← readEmbeddedElem none n)⟩
    let mut f : Param := ⟨none, none⟩
    if name0.isSome ∨ t = .ident then
      let name ← match name0 with
        | some x => pure x
        | none => readIdent
      f := ⟨some name, none⟩
      match ← current with
      | .ident | .mul | .arrow | .funcKw | .chanKw | .mapKw | .structKw | .interfaceKw
      | .lparen =>
        f := ⟨some name, some (← readType n)⟩
      | .lbrack =>
        let (nm, ty) ← readArrayFieldOrInstance name n
        f := ⟨nm, some ty⟩
      | .ellipsis => return ⟨some name, some (← readDotsType n)⟩
      | .period => f := ⟨none, some (← readQualified (some name) n)⟩
      | .tilde =>
        if typeSets then return ⟨some name, some (← readEmbeddedElem none n)⟩
      | .or =>
        if typeSets then return ⟨none, some (← readEmbeddedElem (some (.ident name)) n)⟩
      | _ => pure ()
    else
      match t with
      | .mul | .arrow | .funcKw | .lbrack | .chanKw | .mapKw | .structKw | .interfaceKw
      | .lparen =>
        f := ⟨none, some (← readType n)⟩
      | .ellipsis => return ⟨none, some (← readDotsType n)⟩
      | _ =>
        expected (← here) "')'"
        advance Token.endsExpression
    if typeSets ∧ (← current) = .or then
      if let some ty := f.typ then
        f := { f with typ := some (← readEmbeddedElem (some ty) n) }
    return f

def readResult : Nat → Read (Option FieldList)
  | 0 => exhausted
  | n + 1 => do
    if (← current) = .lparen then
      let (_, results) ← readParameters false n
      return some results
    match ← readTypeOpt n with
    | some t => return some (.mk none [.mk none [] t none none] none)
    | none => return none

/-- Read an interface type. -/
def readInterfaceType : Nat → Read Expr
  | 0 => exhausted
  | n + 1 => do
    let p ← expect .interfaceKw
    let lb ← expect .lbrace
    let list ← foldRead (fun (acc : Array Field) => do
      match ← current with
      | .ident =>
        let f ← readMethodSpec n
        let f ← if f.names.isEmpty then do
            let t ← readEmbeddedElem (some f.typ) n
            pure (Field.mk f.doc [] t none none)
          else pure f
        let comment ← lineEnd
        return (acc.push (.mk f.doc f.names f.typ none comment), true)
      | .tilde =>
        let t ← readEmbeddedElem none n
        let comment ← lineEnd
        return (acc.push (.mk none [] t none comment), true)
      | _ =>
        match ← readTypeOpt n with
        | some t =>
          let t ← readEmbeddedElem (some t) n
          let comment ← lineEnd
          return (acc.push (.mk none [] t none comment), true)
        | none => return (acc, false)) (← loopBound) #[]
    let rb ← expect .rbrace
    return .interfaceType p (.mk (some lb) list.toList (some rb))

/-- Read a method or an embedded type of an interface. -/
def readMethodSpec : Nat → Read Field
  | 0 => exhausted
  | n + 1 => do
    let doc := (← get).leadComment
    let x ← readTypeName none
    match x with
    | .ident name =>
      match ← current with
      | .lbrack =>
        let lbrack ← here
        step
        nest 1
        let e ← readExpr n
        nest (-1)
        let t ← current
        match e with
        | .ident e0 =>
          if t != .comma && t != .rbrack then
            let _ ← readParamList (some e0) none .rbrack n
            let _ ← expect .rbrack
            fault lbrack "interface method must have no type parameters"
            let (_, params) ← readParameters false n
            let res ← readResult n
            return .mk doc [name] (.funcType (.mk none none params res)) none none
        | _ => pure ()
        let list ← if (← atComma "type argument list" .rbrack) then do
            nest 1
            step
            let l ← foldRead (fun (acc : Array Expr) => do
              let t ← current
              if t = .rbrack ∨ t = .eof then return (acc, false)
              let acc := acc.push (← readType n)
              if !(← atComma "type argument list" .rbrack) then return (acc, false)
              step
              return (acc, true)) (← loopBound) #[e]
            nest (-1)
            pure l
          else pure #[e]
        let rb ← expectClosing .rbrack "type argument list"
        return .mk doc [] (.index x lbrack list.toList rb) none none
      | .lparen =>
        let (_, params) ← readParameters false n
        let res ← readResult n
        return .mk doc [name] (.funcType (.mk none none params res)) none none
      | _ => return .mk doc [] x none none
    | _ =>
      if (← current) = .lbrack then return .mk doc [] (← readTypeInstance x n) none none
      return .mk doc [] x none none

def readEmbeddedElem (x : Option Expr) : Nat → Read Expr
  | 0 => exhausted
  | n + 1 => do
    let x ← match x with
      | some x => pure x
      | none => readEmbeddedTerm n
    foldRead (fun (acc : Expr) => do
      if (← current) ≠ .or then return (acc, false)
      let p ← here
      step
      let y ← readEmbeddedTerm n
      return (.binary acc p .or y, true)) (← loopBound) x

def readEmbeddedTerm : Nat → Read Expr
  | 0 => exhausted
  | n + 1 => do
    if (← current) = .tilde then
      let p ← here
      step
      return .unary p .tilde (← readType n)
    match ← readTypeOpt n with
    | some t => return t
    | none =>
      let p ← here
      expected p "~ term or type"
      advance Token.endsExpression
      return .bad p (← here)

def readMapType : Nat → Read Expr
  | 0 => exhausted
  | n + 1 => do
    let p ← expect .mapKw
    let _ ← expect .lbrack
    let key ← readType n
    let _ ← expect .rbrack
    return .mapType p key (← readType n)

/-- Read a channel type. -/
def readChanType : Nat → Read Expr
  | 0 => exhausted
  | n + 1 => do
    let p ← here
    let (arrow, dir) ← if (← current) = .chanKw then do
        step
        if (← current) = .arrow then
          let a ← here
          step
          pure (some a, ChanDir.send)
        else pure (none, ChanDir.both)
      else do
        let a ← expect .arrow
        let _ ← expect .chanKw
        pure (some a, ChanDir.recv)
    return .chanType p arrow dir (← readType n)

/-- Read an operand: a name, a literal, a parenthesized expression, a function literal, or a
type; where none starts, record a fault and skip to a statement. -/
def readOperand : Nat → Read Expr
  | 0 => exhausted
  | n + 1 => do
    let r ← get
    match r.tok with
    | .ident => return .ident (← readIdent)
    | .int | .float | .imag | .char | .string =>
      step
      return .basic r.pos r.tok r.lit
    | .lparen =>
      step
      nest 1
      let x ← readRhs n
      nest (-1)
      let rp ← expect .rparen
      return .paren r.pos x rp
    | .funcKw => readFuncTypeOrLit n
    | _ =>
      match ← readTypeOpt n with
      | some t => return t
      | none =>
        expected r.pos "operand"
        advance Token.startsStatement
        return .bad r.pos (← here)

def readFuncTypeOrLit : Nat → Read Expr
  | 0 => exhausted
  | n + 1 => do
    let sig ← readFuncSig n
    if (← current) ≠ .lbrace then return .funcType sig
    nest 1
    let body ← readBlock n
    nest (-1)
    return .funcLit sig body

def readBlock : Nat → Read Block
  | 0 => exhausted
  | n + 1 => do
    let lb ← expect .lbrace
    let list ← readStmtList n
    let rb ← expectOpt .rbrace
    let rb := match rb with
      | some q => q
      | none => Stmt.stopOfList (lb + 1) list - 1
    return .mk lb list rb

def readStmtList : Nat → Read (List Stmt)
  | 0 => exhausted
  | n + 1 => do
    let acc ← foldRead (fun (acc : Array Stmt) => do
      let t ← current
      if t = .caseKw ∨ t = .defaultKw ∨ t = .rbrace ∨ t = .eof then return (acc, false)
      return (acc.push (← readStmt n), true)) (← loopBound) #[]
    return acc.toList

/-- Read a primary expression: an operand followed by selectors, indices, slices, type
assertions, calls and composite literal values; `x` is the operand if already read. -/
def readPrimary (x : Option Expr) : Nat → Read Expr
  | 0 => exhausted
  | n + 1 => do
    let x ← match x with
      | some x => pure x
      | none => readOperand n
    foldRead (fun (x : Expr) => do
      match ← current with
      | .period =>
        step
        match ← current with
        | .ident => return (.selector x (← readIdent), true)
        | .lparen => return (← readTypeAssertion x n, true)
        | _ =>
          let p ← here
          expected p "selector or type assertion"
          if (← current) ≠ .rbrace then step
          return (.selector x ⟨p, "_"⟩, true)
      | .lbrack => return (← readIndexOrSlice x n, true)
      | .lparen => return (← readCall x n, true)
      | .lbrace =>
        let t := x.unparen
        let level := (← get).exprLevel
        let literal := match t with
          | .bad .. | .ident .. | .selector .. | .index .. => decide (level ≥ 0)
          | .arrayType .. | .structType .. | .mapType .. => true
          | _ => false
        if !literal then return (x, false)
        if x.isParen then fault t.start "cannot parenthesize type in composite literal"
        return (← readLiteralValue (some x) n, true)
      | _ => return (x, false)) (← loopBound) x

/-- Read an index, slice or type arguments after an expression `x`. -/
def readIndexOrSlice (x : Expr) : Nat → Read Expr
  | 0 => exhausted
  | n + 1 => do
    let lbrack ← expect .lbrack
    if (← current) = .rbrack then
      let rb ← here
      expected rb "operand"
      step
      return .index x lbrack [.bad rb rb] rb
    nest 1
    let first ← if (← current) ≠ .colon then some <$> readRhs n else pure none
    let mut colons : Array Nat := #[]
    let mut mid : Option Expr := none
    let mut last : Option Expr := none
    let mut args : Array Expr := #[]
    match ← current with
    | .colon =>
      let (cs, m, l) ← foldRead (fun (st : Array Nat × Option Expr × Option Expr) => do
        if (← current) ≠ .colon ∨ st.1.size ≥ 2 then return (st, false)
        let c ← here
        step
        let cs := st.1.push c
        let t ← current
        if t ≠ .colon ∧ t ≠ .rbrack ∧ t ≠ .eof then
          let e ← readRhs n
          return (if cs.size = 1 then (cs, some e, st.2.2) else (cs, st.2.1, some e), true)
        return ((cs, st.2.1, st.2.2), true)) (← loopBound) (#[], none, none)
      colons := cs
      mid := m
      last := l
    | .comma =>
      args ← foldRead (fun (acc : Array Expr) => do
        if (← current) ≠ .comma then return (acc, false)
        step
        let t ← current
        if t ≠ .rbrack ∧ t ≠ .eof then return (acc.push (← readType n), true)
        return (acc, true)) (← loopBound) first.toArray
    | _ => pure ()
    nest (-1)
    let rb ← expect .rbrack
    if colons.size > 0 then
      if colons.size = 2 then
        let c0 := colons.getD 0 0
        let c1 := colons.getD 1 0
        if mid.isNone then
          fault c0 "middle index required in 3-index slice"
          mid := some (.bad (c0 + 1) c1)
        if last.isNone then
          fault c1 "final index required in 3-index slice"
          last := some (.bad (c1 + 1) rb)
      return .slice x lbrack first mid last (colons.size = 2) rb
    if args.isEmpty then return .index x lbrack first.toList rb
    return .index x lbrack args.toList rb

/-- Read the arguments of a call or conversion of `fn`. -/
def readCall (fn : Expr) : Nat → Read Expr
  | 0 => exhausted
  | n + 1 => do
    let lp ← expect .lparen
    nest 1
    let (args, spread) ← foldRead (fun (st : Array Expr × Option Nat) => do
      let t ← current
      if t = .rparen ∨ t = .eof ∨ st.2.isSome then return (st, false)
      let a ← readRhs n
      let spread ← if (← current) = .ellipsis then do
          let e ← here
          step
          pure (some e)
        else pure none
      let st := (st.1.push a, spread)
      if !(← atComma "argument list" .rparen) then return (st, false)
      step
      return (st, true)) (← loopBound) (#[], none)
    nest (-1)
    let rp ← expectClosing .rparen "argument list"
    return .call fn lp args.toList spread rp

def readTypeAssertion (x : Expr) : Nat → Read Expr
  | 0 => exhausted
  | n + 1 => do
    let lp ← expect .lparen
    let typ ← if (← current) = .typeKw then do
        step
        pure none
      else some <$> readType n
    let rp ← expect .rparen
    return .typeAssert x lp typ rp

/-- Read a composite literal value `{ ... }` of type `typ`, if given. -/
def readLiteralValue (typ : Option Expr) : Nat → Read Expr
  | 0 => exhausted
  | n + 1 => do
    let lb ← expect .lbrace
    nest 1
    let elts ← if (← current) ≠ .rbrace then
        foldRead (fun (acc : Array Expr) => do
          let t ← current
          if t = .rbrace ∨ t = .eof then return (acc, false)
          let acc := acc.push (← readElement n)
          if !(← atComma "composite literal" .rbrace) then return (acc, false)
          step
          return (acc, true)) (← loopBound) #[]
      else pure #[]
    nest (-1)
    let rb ← expectClosing .rbrace "composite literal"
    return .composite typ lb elts.toList rb

def readElement : Nat → Read Expr
  | 0 => exhausted
  | n + 1 => do
    let x ← readValue n
    if (← current) = .colon then
      let colon ← here
      step
      return .keyValue x colon (← readValue n)
    return x

def readValue : Nat → Read Expr
  | 0 => exhausted
  | n + 1 => do
    if (← current) = .lbrace then readLiteralValue none n else readExpr n

/-- Read a unary expression. -/
def readUnary : Nat → Read Expr
  | 0 => exhausted
  | n + 1 => do
    let r ← get
    match r.tok with
    | .add | .sub | .not | .xor | .and | .tilde =>
      step
      return .unary r.pos r.tok (← readUnary n)
    | .arrow =>
      step
      let x ← readUnary n
      match x with
      | .chanType .. =>
        let (typ, last, dir) ← joinArrow r.pos x
        if dir = .send then expectedAt last "channel type"
        return typ
      | _ => return .unary r.pos .arrow x
    | .mul =>
      step
      return .star r.pos (← readUnary n)
    | _ => readPrimary none n

def readBinary (x : Option Expr) (prec1 : Nat) : Nat → Read Expr
  | 0 => exhausted
  | n + 1 => do
    let x ← match x with
      | some x => pure x
      | none => readUnary n
    foldRead (fun (x : Expr) => do
      let r ← get
      let op := if r.inRhs ∧ r.tok = .assign then Token.eql else r.tok
      let prec := op.precedence
      if prec < prec1 then return (x, false)
      let opPos ← expect op
      let y ← readBinary none (prec + 1) n
      return (.binary x opPos op y, true)) (← loopBound) x

def readExpr : Nat → Read Expr
  | 0 => exhausted
  | n + 1 => readBinary none 1 n

def readRhs : Nat → Read Expr
  | 0 => exhausted
  | n + 1 => withRhs true (readExpr n)

def readExprList : Nat → Read (List Expr)
  | 0 => exhausted
  | n + 1 => do
    let first ← readExpr n
    let acc ← foldRead (fun (acc : Array Expr) => do
      if (← current) ≠ .comma then return (acc, false)
      step
      return (acc.push (← readExpr n), true)) (← loopBound) #[first]
    return acc.toList

def readList (rhs : Bool) : Nat → Read (List Expr)
  | 0 => exhausted
  | n + 1 => withRhs rhs (readExprList n)

/-- Read a simple statement; also whether it is a range clause, which is read as an
assignment of `range x`. -/
def readSimpleStmt (mode : StmtMode) : Nat → Read (Stmt × Bool)
  | 0 => exhausted
  | n + 1 => do
    let x ← readList false n
    let r ← get
    if r.tok.isAssignment then
      step
      if mode = .rangeOk ∧ (← current) = .rangeKw ∧ (r.tok = .define ∨ r.tok = .assign) then
        let rp ← here
        step
        return (.assign x r.pos r.tok [rangeOf rp (← readRhs n)], true)
      return (.assign x r.pos r.tok (← readList true n), false)
    let x0 := x.headD default
    if x.length > 1 then expected x0.start "1 expression"
    let r ← get
    match r.tok with
    | .colon =>
      step
      match x0 with
      | .ident label =>
        if mode = .labelOk then
          return (.labeled label r.pos (← readStmt n), false)
      | _ => pure ()
      fault r.pos "illegal label declaration"
      return (.bad x0.start (r.pos + 1), false)
    | .arrow =>
      step
      return (.send x0 r.pos (← readRhs n), false)
    | .inc | .dec =>
      step
      return (.incDec x0 r.pos r.tok, false)
    | _ => return (.expr x0, false)

def readCallExpr (kind : String) : Nat → Read (Option Expr)
  | 0 => exhausted
  | n + 1 => do
    let x ← readRhs n
    let t := x.unparen
    if x.isParen then fault x.start ("expression in " ++ kind ++ " must not be parenthesized")
    match t with
    | .call .. => return some t
    | .bad .. => return none
    | _ =>
      fault (← safePos t.stop) ("expression in " ++ kind ++ " must be function call")
      return none

def readGoDefer (kw : Token) : Nat → Read Stmt
  | 0 => exhausted
  | n + 1 => do
    let p ← expect kw
    let call ← readCallExpr kw.text n
    expectSemi
    match call with
    | none => return .bad p (p + kw.text.length)
    | some c => return if kw = .goKw then .goStmt p c else .deferStmt p c

def readReturn : Nat → Read Stmt
  | 0 => exhausted
  | n + 1 => do
    let p ← here
    let _ ← expect .returnKw
    let t ← current
    let xs ← if t ≠ .semicolon ∧ t ≠ .rbrace then readList true n else pure []
    expectSemi
    return .returnStmt p xs

/-- Read the header of an `if` statement: an optional simple statement and the condition. -/
def readIfHeader : Nat → Read (Option Stmt × Expr)
  | 0 => exhausted
  | n + 1 => do
    if (← current) = .lbrace then
      let p ← here
      fault p "missing condition in if statement"
      return (none, .bad p p)
    let prevLevel := (← get).exprLevel
    modify fun r => { r with exprLevel := -1 }
    let mut init : Option Stmt := none
    if (← current) ≠ .semicolon then
      if (← current) = .varKw then
        step
        fault (← here) "var declaration not allowed in if initializer"
      init := some (← readSimpleStmt .basic n).1
    let mut condStmt : Option Stmt := none
    let mut semi : Option (Nat × String) := none
    if (← current) ≠ .lbrace then
      if (← current) = .semicolon then
        let r ← get
        semi := some (r.pos, r.lit)
        step
      else
        let _ ← expect .semicolon
      if (← current) ≠ .lbrace then
        condStmt := some (← readSimpleStmt .basic n).1
    else
      condStmt := init
      init := none
    let mut cond : Option Expr := none
    if condStmt.isSome then
      cond ← asExpr condStmt "boolean expression"
    else if let some (p, l) := semi then
      if l = "\n" then fault p "unexpected newline, expecting \x7b after if clause"
      else fault p "missing condition in if statement"
    let p ← here
    modify fun r => { r with exprLevel := prevLevel }
    return (init, cond.getD (.bad p p))

/-- Read an `if` statement. -/
def readIf : Nat → Read Stmt
  | 0 => exhausted
  | n + 1 => do
    let p ← expect .ifKw
    let (init, cond) ← readIfHeader n
    let body ← readBlock n
    if (← current) = .elseKw then
      step
      match ← current with
      | .ifKw => return .ifStmt p init cond body (some (← readIf n))
      | .lbrace =>
        let e ← readBlock n
        expectSemi
        return .ifStmt p init cond body (some (.block e))
      | _ =>
        let q ← here
        expected q "if statement or block"
        return .ifStmt p init cond body (some (.bad q q))
    expectSemi
    return .ifStmt p init cond body none

def readCaseClause : Nat → Read Stmt
  | 0 => exhausted
  | n + 1 => do
    let p ← here
    let list ← if (← current) = .caseKw then do
        step
        readList true n
      else do
        let _ ← expect .defaultKw
        pure []
    let colon ← expect .colon
    return .caseClause p list colon (← readStmtList n)

/-- Read a `switch` statement. -/
def readSwitch : Nat → Read Stmt
  | 0 => exhausted
  | n + 1 => do
    let p ← expect .switchKw
    let mut s1 : Option Stmt := none
    let mut s2 : Option Stmt := none
    if (← current) ≠ .lbrace then
      let prevLevel := (← get).exprLevel
      modify fun r => { r with exprLevel := -1 }
      if (← current) ≠ .semicolon then
        s2 := some (← readSimpleStmt .basic n).1
      if (← current) = .semicolon then
        step
        s1 := s2
        s2 := none
        if (← current) ≠ .lbrace then
          s2 := some (← readSimpleStmt .basic n).1
      modify fun r => { r with exprLevel := prevLevel }
    let typeSwitch ← isTypeSwitchGuard s2
    let lb ← expect .lbrace
    let clauses ← foldRead (fun (acc : Array Stmt) => do
      let t ← current
      if t = .caseKw ∨ t = .defaultKw then return (acc.push (← readCaseClause n), true)
      return (acc, false)) (← loopBound) #[]
    let rb ← expect .rbrace
    expectSemi
    let body : Block := .mk lb clauses.toList rb
    if typeSwitch then
      if let some guard := s2 then return .typeSwitch p s1 guard body
    return .switchStmt p s1 (← asExpr s2 "switch expression") body

/-- Read a `case` or `default` clause of a select statement. -/
def readCommClause : Nat → Read Stmt
  | 0 => exhausted
  | n + 1 => do
    let p ← here
    let mut comm : Option Stmt := none
    if (← current) = .caseKw then
      step
      let lhs ← readList false n
      let x0 := lhs.headD default
      if (← current) = .arrow then
        if lhs.length > 1 then expected x0.start "1 expression"
        let arrow ← here
        step
        comm := some (.send x0 arrow (← readRhs n))
      else
        let t ← current
        if t = .assign ∨ t = .define then
          if lhs.length > 2 then expected x0.start "1 or 2 expressions"
          let tokPos ← here
          step
          comm := some (.assign (lhs.take 2) tokPos t [← readRhs n])
        else
          if lhs.length > 1 then expected x0.start "1 expression"
          comm := some (.expr x0)
    else
      let _ ← expect .defaultKw
    let colon ← expect .colon
    return .commClause p comm colon (← readStmtList n)

def readSelect : Nat → Read Stmt
  | 0 => exhausted
  | n + 1 => do
    let p ← expect .selectKw
    let lb ← expect .lbrace
    let clauses ← foldRead (fun (acc : Array Stmt) => do
      let t ← current
      if t = .caseKw ∨ t = .defaultKw then return (acc.push (← readCommClause n), true)
      return (acc, false)) (← loopBound) #[]
    let rb ← expect .rbrace
    expectSemi
    return .select p (.mk lb clauses.toList rb)

/-- Read a `for` statement. -/
def readFor : Nat → Read Stmt
  | 0 => exhausted
  | n + 1 => do
    let p ← expect .forKw
    let mut s1 : Option Stmt := none
    let mut s2 : Option Stmt := none
    let mut s3 : Option Stmt := none
    let mut isRange := false
    if (← current) ≠ .lbrace then
      let prevLevel := (← get).exprLevel
      modify fun r => { r with exprLevel := -1 }
      if (← current) ≠ .semicolon then
        if (← current) = .rangeKw then
          let rp ← here
          step
          s2 := some (.assign [] 0 .illegal [rangeOf rp (← readRhs n)])
          isRange := true
        else
          let (s, rg) ← readSimpleStmt .rangeOk n
          s2 := some s
          isRange := rg
      if !isRange ∧ (← current) = .semicolon then
        step
        s1 := s2
        s2 := none
        if (← current) ≠ .semicolon then
          s2 := some (← readSimpleStmt .basic n).1
        expectSemi
        if (← current) ≠ .lbrace then
          s3 := some (← readSimpleStmt .basic n).1
      modify fun r => { r with exprLevel := prevLevel }
    let body ← readBlock n
    expectSemi
    if isRange then
      if let some (.assign lhs tokPos tok [.unary rangePos _ x]) := s2 then
        match lhs with
        | [] => return .range p none none tokPos tok rangePos x body
        | [k] => return .range p (some k) none tokPos tok rangePos x body
        | [k, v] => return .range p (some k) (some v) tokPos tok rangePos x body
        | _ =>
          expected ((lhs.getLast?.map Expr.start).getD p) "at most 2 expressions"
          return .bad p body.stop
      return .bad p body.stop
    return .forStmt p s1 (← asExpr s2 "boolean or range expression") s3 body

/-- Read a statement. -/
def readStmt : Nat → Read Stmt
  | 0 => exhausted
  | n + 1 => do
    let r ← get
    match r.tok with
    | .constKw | .typeKw | .varKw => return .decl (← readGenDecl r.tok n)
    | t =>
      if t.startsSimpleStatement then
        let (s, _) ← readSimpleStmt .labelOk n
        match s with
        | .labeled .. => pure ()
        | _ => expectSemi
        return s
      match t with
      | .goKw | .deferKw => readGoDefer t n
      | .returnKw => readReturn n
      | .breakKw | .continueKw | .gotoKw | .fallthroughKw => readBranch t
      | .lbrace =>
        let b ← readBlock n
        expectSemi
        return .block b
      | .ifKw => readIf n
      | .switchKw => readSwitch n
      | .selectKw => readSelect n
      | .forKw => readFor n
      | .semicolon =>
        step
        return .empty r.pos (r.lit = "\n")
      | .rbrace => return .empty r.pos true
      | _ =>
        expected r.pos "statement"
        advance Token.startsStatement
        return .bad r.pos (← here)

def readDecl (sync : Token → Bool) : Nat → Read Decl
  | 0 => exhausted
  | n + 1 => do
    let r ← get
    match r.tok with
    | .importKw | .constKw | .varKw | .typeKw => return .gen (← readGenDecl r.tok n)
    | .funcKw => readFuncDecl n
    | _ =>
      expected r.pos "declaration"
      advance sync
      return .bad r.pos (← here)

/-- Read an `import`, `const`, `var` or `type` declaration, of one spec or a group. -/
def readGenDecl (keyword : Token) : Nat → Read GenDecl
  | 0 => exhausted
  | n + 1 => do
    let doc := (← get).leadComment
    let p ← expect keyword
    if (← current) = .lparen then
      let lp ← here
      step
      let specs ← foldRead (fun (acc : Array Spec) => do
        let t ← current
        if t = .rparen ∨ t = .eof then return (acc, false)
        return (acc.push (← readSpec keyword (← get).leadComment n), true)) (← loopBound) #[]
      let rp ← expect .rparen
      expectSemi
      return .mk doc p keyword (some lp) specs.toList (some rp)
    return .mk doc p keyword none [← readSpec keyword none n] none

def readSpec (keyword : Token) (doc : Option CommentGroup) : Nat → Read Spec
  | 0 => exhausted
  | n + 1 => do
    match keyword with
    | .importKw => readImportSpec doc
    | .typeKw => readTypeSpec doc n
    | _ => readValueSpec keyword doc n

/-- Read a constant or variable spec: names, an optional type and optional values. -/
def readValueSpec (keyword : Token) (doc : Option CommentGroup) : Nat → Read Spec
  | 0 => exhausted
  | n + 1 => do
    let names ← readIdents
    let mut typ : Option Expr := none
    let mut values : List Expr := []
    if keyword = .constKw then
      let t ← current
      if t ≠ .eof ∧ t ≠ .semicolon ∧ t ≠ .rparen then
        typ ← readTypeOpt n
        if (← current) = .assign then
          step
          values ← readList true n
    else
      if (← current) ≠ .assign then typ := some (← readType n)
      if (← current) = .assign then
        step
        values ← readList true n
    let comment ← lineEnd
    return .value doc names typ values comment

/-- Read a type spec: a name, type parameters or an array length, and the type. -/
def readTypeSpec (doc : Option CommentGroup) : Nat → Read Spec
  | 0 => exhausted
  | n + 1 => do
    let name ← readIdent
    let (tparams, assign, typ) ← if (← current) = .lbrack then do
        let lbrack ← here
        step
        if (← current) = .ident then
          let mut x : Expr := .ident (← readIdent)
          if (← current) ≠ .lbrack then
            nest 1
            let lhs ← readPrimary (some x) n
            x ← readBinary (some lhs) 1 n
            nest (-1)
          let comma := (← current) = .comma
          match x.splitName comma with
          | (some pname, ptype) =>
            if ptype.isSome ∨ (← current) ≠ .rbrack then readGenericType lbrack pname ptype n
            else pure (none, none, ← readArrayType lbrack (some x) n)
          | (none, _) => pure (none, none, ← readArrayType lbrack (some x) n)
        else pure (none, none, ← readArrayType lbrack none n)
      else do
        let assign ← if (← current) = .assign then do
            let a ← here
            step
            pure (some a)
          else pure none
        pure (none, assign, ← readType n)
    let comment ← lineEnd
    return .type doc name tparams assign typ comment

def readGenericType (lbrack : Nat) (name0 : Ident) (typ0 : Option Expr) :
    Nat → Read (Option FieldList × Option Nat × Expr)
  | 0 => exhausted
  | n + 1 => do
    let list ← readParamList (some name0) typ0 .rbrack n
    let rbrack ← expect .rbrack
    let assign ← if (← current) = .assign then do
        let a ← here
        step
        pure (some a)
      else pure none
    return (some (.mk (some lbrack) list (some rbrack)), assign, ← readType n)

/-- Read a function or method declaration. -/
def readFuncDecl : Nat → Read Decl
  | 0 => exhausted
  | n + 1 => do
    let doc := (← get).leadComment
    let p ← expect .funcKw
    let recv ← if (← current) = .lparen then do
        let (_, r) ← readParameters false n
        pure (some r)
      else pure none
    let name ← readIdent
    let (tparams, params) ← readParameters true n
    let mut tparams := tparams
    if recv.isSome then
      if let some tp := tparams then
        fault tp.start "method must have no type parameters"
        tparams := none
    let results ← readResult n
    let mut body : Option Block := none
    match ← current with
    | .lbrace =>
      body := some (← readBlock n)
      expectSemi
    | .semicolon =>
      step
      if (← current) = .lbrace then
        fault (← here) "unexpected semicolon or newline before \x7b"
        body := some (← readBlock n)
        expectSemi
    | _ => expectSemi
    return .func doc recv name (.mk (some p) tparams params results) body

end

/-- Read a whole source file: the package clause, imports, then declarations. Reading stops
after the first token or the package clause if they have faults. -/
def readFile (fuel : Nat) : Read File := do
  let start ← here
  if (← get).scan.faults.size ≠ 0 then return ⟨start, ⟨start, "_"⟩, [], []⟩
  let p ← expect .packageKw
  let name ← readIdent
  expectSemi
  if (← get).scan.faults.size ≠ 0 then return ⟨p, name, [], []⟩
  let imports ← foldRead (fun (acc : Array Decl) => do
    if (← current) ≠ .importKw then return (acc, false)
    return (acc.push (.gen (← readGenDecl .importKw fuel)), true)) (← loopBound) #[]
  let (decls, _) ← foldRead (fun (st : Array Decl × Token) => do
    let t ← current
    if t = .eof then return (st, false)
    if t = .importKw ∧ st.2 ≠ .importKw then
      fault (← here) "imports must appear before other declarations"
    return ((st.1.push (← readDecl Token.startsDeclaration fuel), t), true))
    (← loopBound) (imports, .importKw)
  return ⟨p, name, decls.toList, (← get).comments.toList⟩

end TableSource

end PagedAsm
