import PagedAsm.TableSource.Scanner
import PagedAsm.TableSource.Tree

/-!
# The reader's state and its steps

The reader looks one token ahead and records faults in the scanner's list, so that faults of
both kinds stand in the order they were found. A fault on the line of the fault recorded last
is dropped, as likely a consequence of it, and reading stops when more than ten faults are
recorded and another one is found.

After a fault the reader skips to a token where reading can go on: the start of a statement,
a declaration, or the end of an expression. It stops there only if that token lies past the
place of the last such stop, or at the same place fewer than ten times in a row, so that
skipping always makes progress.
-/

namespace PagedAsm

namespace TableSource

/-- The reader: the scanner, the current token, the place of the last stop when skipping
(one past its offset, 0 before any) and how often it was reached in a row, the depth of
expression nesting (negative in the header of a control clause), whether the expression
read is a right-hand side, where `=` reads as `==`, the comment groups so far, and the
groups that document the current token and end the line of the token before it. -/
structure Reader where
  scan : Scanner
  tok : Token
  pos : Nat
  lit : String
  syncPos : Nat
  syncCount : Nat
  exprLevel : Int
  inRhs : Bool
  comments : Array CommentGroup := #[]
  leadComment : Option CommentGroup := none
  lineComment : Option CommentGroup := none

/-- Why reading stopped early: too many faults, or a bound on the steps ran out. -/
inductive Stop where
  | tooManyFaults
  | exhausted

/-- Reading steps: they change the reader and may stop; the reader as it was at a stop is
kept. -/
abbrev Read := ExceptT Stop (StateM Reader)

namespace Reader

def lineOf (r : Reader) (o : Nat) : Int :=
  (r.scan.position o).line

def scanToken (r : Reader) : Reader :=
  let (s, lx) := r.scan.scan
  { r with scan := s, tok := lx.tok, pos := lx.pos, lit := lx.lit }

def takeComment (r : Reader) : Reader × Comment × Int :=
  let block := r.lit.startsWith "/*"
  let newlines := if block then (r.lit.toList.filter (· = '\n')).length else 0
  (r.scanToken, ⟨r.pos, r.lit⟩, r.lineOf r.pos + newlines)

def takeRun (gap : Nat) : Nat → Reader → Array Comment → Int → Reader × Array Comment × Int
  | 0, r, acc, endLine => (r, acc, endLine)
  | fuel + 1, r, acc, endLine =>
    if r.tok = .comment ∧ r.lineOf r.pos ≤ endLine + gap then
      let (r, c, e) := r.takeComment
      takeRun gap fuel r (acc.push c) e
    else (r, acc, endLine)

def takeGroup (gap : Nat) (r : Reader) : Reader × CommentGroup × Int :=
  let (r, list, endLine) := takeRun gap r.scan.remaining r #[] (r.lineOf r.pos)
  let g : CommentGroup := ⟨list.toList⟩
  ({ r with comments := r.comments.push g }, g, endLine)

def takeGroups : Nat → Reader → Option CommentGroup → Int → Reader × Option CommentGroup × Int
  | 0, r, g, e => (r, g, e)
  | fuel + 1, r, g, e =>
    if r.tok = .comment then
      let (r, g, e) := r.takeGroup 1
      takeGroups fuel r (some g) e
    else (r, g, e)

def advanceFrom (prevLine : Int) (r : Reader) : Reader :=
  let r := { r.scanToken with leadComment := none, lineComment := none }
  if r.tok ≠ .comment then r
  else
    let r :=
      if r.lineOf r.pos = prevLine then
        let (r, g, endLine) := r.takeGroup 0
        if r.lineOf r.pos ≠ endLine ∨ r.tok = .semicolon ∨ r.tok = .eof then
          { r with lineComment := some g }
        else r
      else r
    let (r, last, endLine) := takeGroups r.scan.remaining r none (-1)
    if endLine + 1 = r.lineOf r.pos then { r with leadComment := last } else r

def advanceToken (r : Reader) : Reader :=
  advanceFrom (r.lineOf r.pos) r

def start (name text : String) : Reader :=
  advanceFrom 0 ⟨Scanner.start name text, .illegal, 0, "", 0, 0, 0, false, #[], none, none⟩

end Reader

def current : Read Token := return (← get).tok

def here : Read Nat := return (← get).pos

def step : Read Unit := modify Reader.advanceToken

def exhausted {α : Type} : Read α := throw .exhausted

/-- Record a fault at an offset, unless it is on the line of the last fault; stop when more
than ten faults are recorded. -/
def fault (pos : Nat) (message : String) : Read Unit := do
  let r ← get
  let same : Bool := match r.scan.faults.back? with
    | some f => r.lineOf f.offset == r.lineOf pos
    | none => false
  if same then return
  if r.scan.faults.size > 10 then throw .tooManyFaults
  set { r with scan := r.scan.fault pos message }

/-- Record that `what` was expected at an offset; at the current token, say what was found. -/
def expected (pos : Nat) (what : String) : Read Unit := do
  let r ← get
  let msg := "expected " ++ what
  let msg :=
    if pos = r.pos then
      if r.tok = .semicolon ∧ r.lit = "\n" then msg ++ ", found newline"
      else if r.tok.isLiteral then msg ++ ", found " ++ r.lit
      else msg ++ ", found '" ++ r.tok.text ++ "'"
    else msg
  fault pos msg

def expect (t : Token) : Read Nat := do
  let p ← here
  if (← current) ≠ t then expected p ("'" ++ t.text ++ "'")
  step
  return p

def expectOpt (t : Token) : Read (Option Nat) := do
  let r ← get
  let p := if r.tok = t then some r.pos else none
  if r.tok ≠ t then expected r.pos ("'" ++ t.text ++ "'")
  step
  return p

def expectClosing (t : Token) (context : String) : Read Nat := do
  let r ← get
  if r.tok ≠ t ∧ r.tok = .semicolon ∧ r.lit = "\n" then
    fault r.pos ("missing ',' before newline in " ++ context)
    step
  expect t

def skipTo (resume : Token → Bool) : Nat → Read Unit
  | 0 => pure ()
  | fuel + 1 => do
    let r ← get
    if r.tok = .eof then return
    if resume r.tok then
      if r.pos + 1 = r.syncPos ∧ r.syncCount < 10 then
        set { r with syncCount := r.syncCount + 1 }
        return
      if r.pos + 1 > r.syncPos then
        set { r with syncPos := r.pos + 1, syncCount := 0 }
        return
    step
    skipTo resume fuel

def advance (resume : Token → Bool) : Read Unit := do
  skipTo resume ((← get).scan.remaining + 1)

/-- Take a statement end, `;` or a newline; none is needed before `)` or `}`. A comma stands
in for it with a fault; anything else is a fault, and reading resumes at a statement. Returns
the line comment of the line the statement ends on: the one after a written `;`, or the one
before an inserted one. -/
def lineEnd : Read (Option CommentGroup) := do
  let r ← get
  if r.tok = .rparen ∨ r.tok = .rbrace then return none
  match r.tok with
  | .comma =>
    expected r.pos "';'"
    step
    return r.lineComment
  | .semicolon =>
    step
    if r.lit = ";" then return (← get).lineComment else return r.lineComment
  | _ =>
    expected r.pos "';'"
    advance Token.startsStatement
    return none

def expectSemi : Read Unit := do
  let _ ← lineEnd

def atComma (context : String) (follow : Token) : Read Bool := do
  let r ← get
  if r.tok = .comma then return true
  if r.tok ≠ follow then
    let msg := if r.tok = .semicolon ∧ r.lit = "\n" then "missing ',' before newline"
      else "missing ','"
    fault r.pos (msg ++ " in " ++ context)
    return true
  return false

def readIdent : Read Ident := do
  let r ← get
  if r.tok = .ident then
    step
    return ⟨r.pos, r.lit⟩
  else
    let _ ← expect .ident
    return ⟨r.pos, "_"⟩

def readIdentsFrom : Nat → Array Ident → Read (Array Ident)
  | 0, acc => return acc
  | fuel + 1, acc => do
    if (← current) = .comma then
      step
      readIdentsFrom fuel (acc.push (← readIdent))
    else return acc

def readIdents : Read (List Ident) := do
  let first ← readIdent
  return (← readIdentsFrom ((← get).scan.remaining + 1) #[first]).toList

def nest (d : Int) : Read Unit :=
  modify fun r => { r with exprLevel := r.exprLevel + d }

def withRhs {α : Type} (v : Bool) (x : Read α) : Read α := do
  let old := (← get).inRhs
  modify fun r => { r with inRhs := v }
  let a ← x
  modify fun r => { r with inRhs := old }
  return a

end TableSource

end PagedAsm
