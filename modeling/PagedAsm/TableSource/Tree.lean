import PagedAsm.TableSource.Token

/-!
# The syntax tree of the table source

Every form keeps the byte offsets of its own tokens: where it starts, where its brackets and
operators stand, and where it ends. The printer needs them all, because it keeps the line
breaks of the text and puts each comment back before the first token that follows it.

Positions that a form may lack are optional: the parentheses of a single unnamed result, the
`func` keyword of a method in an interface, the parentheses of an ungrouped declaration, the
arrow of a two-way channel type, and the `...` of a call without one.

Besides the tree, the reader keeps every comment, grouped as the text groups them: comments on
adjacent lines form a group. A group on the lines just before a declaration, a field or a spec
is its documentation; a group after its last token on the same line is its line comment.
-/

namespace PagedAsm

namespace TableSource

/-- The directions of a channel type. -/
inductive ChanDir where
  | send | recv | both
  deriving DecidableEq, Repr

/-- A name and where it stands. -/
structure Ident where
  pos : Nat
  name : String
  deriving Inhabited, DecidableEq, Repr

def Ident.stop (x : Ident) : Nat := x.pos + x.name.utf8ByteSize

/-- A comment, with its markers, and where it starts. -/
structure Comment where
  pos : Nat
  text : String
  deriving Inhabited, DecidableEq, Repr

def Comment.stop (c : Comment) : Nat := c.pos + c.text.utf8ByteSize

/-- Comments with no token between them and at most one line between one and the next. -/
structure CommentGroup where
  list : List Comment
  deriving Inhabited, DecidableEq, Repr

def CommentGroup.pos (g : CommentGroup) : Nat := (g.list.head?.map Comment.pos).getD 0

def CommentGroup.stop (g : CommentGroup) : Nat := (g.list.getLast?.map Comment.stop).getD 0

mutual

/-- Expressions and types. -/
inductive Expr where
  | bad (start stop : Nat)
  | ident (x : Ident)
  | basic (pos : Nat) (kind : Token) (value : String)
  | composite (typ : Option Expr) (lbrace : Nat) (elts : List Expr) (rbrace : Nat)
  | funcLit (sig : Signature) (body : Block)
  | paren (lparen : Nat) (x : Expr) (rparen : Nat)
  | selector (x : Expr) (sel : Ident)
  | index (x : Expr) (lbrack : Nat) (indices : List Expr) (rbrack : Nat)
  | slice (x : Expr) (lbrack : Nat) (low high max : Option Expr) (three : Bool) (rbrack : Nat)
  | typeAssert (x : Expr) (lparen : Nat) (typ : Option Expr) (rparen : Nat)
  | call (fn : Expr) (lparen : Nat) (args : List Expr) (ellipsis : Option Nat) (rparen : Nat)
  | star (pos : Nat) (x : Expr)
  | unary (pos : Nat) (op : Token) (x : Expr)
  | binary (x : Expr) (opPos : Nat) (op : Token) (y : Expr)
  | keyValue (key : Expr) (colon : Nat) (value : Expr)
  | arrayType (lbrack : Nat) (len : Option Expr) (elt : Expr)
  | structType (pos : Nat) (fields : FieldList)
  | funcType (sig : Signature)
  | interfaceType (pos : Nat) (methods : FieldList)
  | mapType (pos : Nat) (key value : Expr)
  | chanType (pos : Nat) (arrow : Option Nat) (dir : ChanDir) (value : Expr)
  | ellipsis (pos : Nat) (elt : Option Expr)

/-- A field of a struct, a parameter, a result, or a method or element of an interface. -/
inductive Field where
  | mk (doc : Option CommentGroup) (names : List Ident) (typ : Expr) (tag : Option Expr)
      (comment : Option CommentGroup)

/-- Fields with their brackets, which a single unnamed result lacks. -/
inductive FieldList where
  | mk (opening : Option Nat) (list : List Field) (closing : Option Nat)

/-- The type of a function: the `func` keyword, type parameters, parameters, results. -/
inductive Signature where
  | mk (func : Option Nat) (tparams : Option FieldList) (params : FieldList)
      (results : Option FieldList)

/-- Statements; `case` and `default` clauses stand in the blocks of `switch` and `select`. -/
inductive Stmt where
  | bad (start stop : Nat)
  | decl (d : GenDecl)
  | empty (pos : Nat) (implicit : Bool)
  | labeled (label : Ident) (colon : Nat) (body : Stmt)
  | expr (x : Expr)
  | send (ch : Expr) (arrow : Nat) (value : Expr)
  | incDec (x : Expr) (tokPos : Nat) (tok : Token)
  | assign (lhs : List Expr) (tokPos : Nat) (tok : Token) (rhs : List Expr)
  | goStmt (pos : Nat) (call : Expr)
  | deferStmt (pos : Nat) (call : Expr)
  | returnStmt (pos : Nat) (results : List Expr)
  | branch (pos : Nat) (tok : Token) (label : Option Ident)
  | block (b : Block)
  | ifStmt (pos : Nat) (init : Option Stmt) (cond : Expr) (body : Block) (els : Option Stmt)
  | caseClause (pos : Nat) (list : List Expr) (colon : Nat) (body : List Stmt)
  | switchStmt (pos : Nat) (init : Option Stmt) (tag : Option Expr) (body : Block)
  | typeSwitch (pos : Nat) (init : Option Stmt) (assign : Stmt) (body : Block)
  | commClause (pos : Nat) (comm : Option Stmt) (colon : Nat) (body : List Stmt)
  | select (pos : Nat) (body : Block)
  | forStmt (pos : Nat) (init : Option Stmt) (cond : Option Expr) (post : Option Stmt)
      (body : Block)
  | range (pos : Nat) (key value : Option Expr) (tokPos : Nat) (tok : Token) (rangePos : Nat)
      (x : Expr) (body : Block)

/-- Statements in braces. -/
inductive Block where
  | mk (lbrace : Nat) (list : List Stmt) (rbrace : Nat)

/-- One import, constant or variable, or type of a declaration. -/
inductive Spec where
  | importSpec (doc : Option CommentGroup) (name : Option Ident) (path : Expr)
      (comment : Option CommentGroup)
  | value (doc : Option CommentGroup) (names : List Ident) (typ : Option Expr)
      (values : List Expr) (comment : Option CommentGroup)
  | type (doc : Option CommentGroup) (name : Ident) (tparams : Option FieldList)
      (assign : Option Nat) (typ : Expr) (comment : Option CommentGroup)

/-- An `import`, `const`, `var` or `type` declaration, of one spec or a group in parentheses. -/
inductive GenDecl where
  | mk (doc : Option CommentGroup) (tokPos : Nat) (tok : Token) (lparen : Option Nat)
      (specs : List Spec) (rparen : Option Nat)

end

instance : Inhabited Expr := ⟨.bad 0 0⟩
instance : Inhabited Stmt := ⟨.bad 0 0⟩

/-- A declaration at the top of a file. -/
inductive Decl where
  | bad (start stop : Nat)
  | gen (d : GenDecl)
  | func (doc : Option CommentGroup) (recv : Option FieldList) (name : Ident) (sig : Signature)
      (body : Option Block)

/-- A file: its package clause, its declarations, and all its comments in order. -/
structure File where
  package : Nat
  name : Ident
  decls : List Decl
  comments : List CommentGroup

namespace Field

/-- The documentation of a field. -/
def doc : Field → Option CommentGroup | mk d .. => d
/-- The names of a field. -/
def names : Field → List Ident | mk _ ns .. => ns
/-- The type of a field. -/
def typ : Field → Expr | mk _ _ t .. => t
def tag : Field → Option Expr | mk _ _ _ t _ => t
def comment : Field → Option CommentGroup | mk _ _ _ _ c => c

end Field

namespace FieldList

/-- Where the opening bracket stands. -/
def opening : FieldList → Option Nat | mk o .. => o
/-- The fields. -/
def list : FieldList → List Field | mk _ l _ => l
/-- Where the closing bracket stands. -/
def closing : FieldList → Option Nat | mk _ _ c => c
def numFields (f : FieldList) : Nat :=
  f.list.foldl (fun n fd => n + max fd.names.length 1) 0

end FieldList

namespace Signature

/-- Where the `func` keyword stands. -/
def func : Signature → Option Nat | mk f .. => f
/-- The type parameters. -/
def tparams : Signature → Option FieldList | mk _ t .. => t
def params : Signature → FieldList | mk _ _ p _ => p
def results : Signature → Option FieldList | mk _ _ _ r => r

end Signature

namespace Block

/-- Where the opening brace stands. -/
def lbrace : Block → Nat | mk l .. => l
/-- The statements. -/
def list : Block → List Stmt | mk _ l _ => l
def rbrace : Block → Nat | mk _ _ r => r
def stop (b : Block) : Nat := b.rbrace + 1

end Block

namespace GenDecl

/-- The documentation of a declaration. -/
def doc : GenDecl → Option CommentGroup | mk d .. => d
/-- Where the keyword stands. -/
def tokPos : GenDecl → Nat | mk _ p .. => p
/-- The keyword. -/
def tok : GenDecl → Token | mk _ _ t .. => t
/-- Where the opening parenthesis stands. -/
def lparen : GenDecl → Option Nat | mk _ _ _ l .. => l
def specs : GenDecl → List Spec | mk _ _ _ _ s _ => s
def rparen : GenDecl → Option Nat | mk _ _ _ _ _ r => r

end GenDecl

namespace Spec

def doc : Spec → Option CommentGroup
  | importSpec d .. | value d .. | type d .. => d

end Spec

mutual

/-- Where an expression starts. -/
def Expr.start : Expr → Nat
  | .bad p _ => p
  | .ident x => x.pos
  | .basic p _ _ => p
  | .composite (some t) _ _ _ => t.start
  | .composite none lb _ _ => lb
  | .funcLit sig _ => sig.start
  | .paren lp _ _ => lp
  | .selector x _ | .index x .. | .slice x .. | .typeAssert x .. | .call x .. => x.start
  | .star p _ | .unary p _ _ => p
  | .binary x .. | .keyValue x .. => x.start
  | .arrayType p _ _ | .structType p _ | .interfaceType p _ | .mapType p _ _ => p
  | .funcType sig => sig.start
  | .chanType p .. | .ellipsis p _ => p
termination_by structural e => e

/-- Where a function type starts: at `func`, or at its parameters when it has no keyword. -/
def Signature.start : Signature → Nat
  | .mk (some p) _ _ _ => p
  | .mk none _ params _ => params.start
termination_by structural s => s

/-- Where a field list starts: at its opening bracket, or at its first field. -/
def FieldList.start : FieldList → Nat
  | .mk (some p) _ _ => p
  | .mk none [] _ => 0
  | .mk none (f :: _) _ => f.start
termination_by structural l => l

/-- Where a field starts: at its first name, or at its type. -/
def Field.start : Field → Nat
  | .mk _ (n :: _) _ _ _ => n.pos
  | .mk _ [] t _ _ => t.start
termination_by structural f => f

end

mutual

/-- Where an expression ends: the offset just past it. -/
def Expr.stop : Expr → Nat
  | .bad _ q => q
  | .ident x => x.stop
  | .basic p _ v => p + v.utf8ByteSize
  | .composite _ _ _ rb => rb + 1
  | .funcLit _ body => body.stop
  | .paren _ _ rp => rp + 1
  | .selector _ sel => sel.stop
  | .index _ _ _ rb | .slice _ _ _ _ _ _ rb => rb + 1
  | .typeAssert _ _ _ rp | .call _ _ _ _ rp => rp + 1
  | .star _ x | .unary _ _ x => x.stop
  | .binary _ _ _ y => y.stop
  | .keyValue _ _ v => v.stop
  | .arrayType _ _ elt => elt.stop
  | .structType _ f => f.stop
  | .funcType sig => sig.stop
  | .interfaceType _ m => m.stop
  | .mapType _ _ v | .chanType _ _ _ v => v.stop
  | .ellipsis p none => p + 3
  | .ellipsis _ (some e) => e.stop
termination_by structural e => e

/-- Where a function type ends: after its results, or after its parameters. -/
def Signature.stop : Signature → Nat
  | .mk _ _ _ (some r) => r.stop
  | .mk _ _ params none => params.stop
termination_by structural s => s

/-- Where a field list ends: after its closing bracket, or after its last field. -/
def FieldList.stop : FieldList → Nat
  | .mk _ l none => Field.stopOfList l
  | .mk _ _ (some c) => c + 1
termination_by structural l => l

def Field.stopOfList : List Field → Nat
  | [] => 0
  | [f] => f.stop
  | _ :: rest => Field.stopOfList rest
termination_by structural l => l

/-- Where a field ends: after its tag, or after its type. -/
def Field.stop : Field → Nat
  | .mk _ _ _ (some tag) _ => tag.stop
  | .mk _ _ t none _ => t.stop
termination_by structural f => f

end

namespace Expr

def unparen : Expr → Expr
  | paren _ x _ => unparen x
  | x => x

def isParen : Expr → Bool
  | paren .. => true
  | _ => false

def isTypeElem : Expr → Bool
  | arrayType .. | structType .. | funcType .. | interfaceType .. | mapType .. | chanType .. => true
  | binary x _ _ y => x.isTypeElem || y.isTypeElem
  | unary _ op _ => op == .tilde
  | paren _ x _ => x.isTypeElem
  | _ => false

/-- Split the first expression of a type parameter list into a parameter name and its
constraint, when it can be read so: `P *C`, `P (C)` and unions whose other terms are type
elements, or any of these when `force` holds. A single name gives the name alone. -/
def splitName (force : Bool) : Expr → Option Ident × Option Expr
  | ident x => (some x, none)
  | binary x opPos .mul y =>
    match x with
    | ident n => if force || y.isTypeElem then (some n, some (star opPos y))
      else (none, some (binary x opPos .mul y))
    | _ => (none, some (binary x opPos .mul y))
  | binary x opPos .or y =>
    match splitName (force || y.isTypeElem) x with
    | (some n, some lhs) => (some n, some (binary lhs opPos .or y))
    | _ => (none, some (binary x opPos .or y))
  | call (ident n) lp [arg] none rp =>
    if force || arg.isTypeElem then (some n, some (paren lp arg rp))
    else (none, some (call (ident n) lp [arg] none rp))
  | x => (none, some x)

end Expr

/-- Where a statement starts. -/
def Stmt.start : Stmt → Nat
  | .bad p _ => p
  | .decl d => d.tokPos
  | .empty p _ => p
  | .labeled l _ _ => l.pos
  | .expr x | .send x .. | .incDec x .. => x.start
  | .assign (x :: _) .. => x.start
  | .assign [] p .. => p
  | .goStmt p _ | .deferStmt p _ | .returnStmt p _ | .branch p .. => p
  | .block b => b.lbrace
  | .ifStmt p .. | .caseClause p .. | .switchStmt p .. | .typeSwitch p .. => p
  | .commClause p .. | .select p _ | .forStmt p .. | .range p .. => p

def Expr.stopOfList (dflt : Nat) (l : List Expr) : Nat :=
  (l.getLast?.map Expr.stop).getD dflt

/-- Where a spec ends. -/
def Spec.stop : Spec → Nat
  | .importSpec _ _ path _ => path.stop
  | .value _ names typ values _ =>
    match values.getLast?, typ with
    | some v, _ => v.stop
    | none, some t => t.stop
    | none, none => (names.getLast?.map Ident.stop).getD 0
  | .type _ _ _ _ t _ => t.stop

def GenDecl.stop : GenDecl → Nat
  | .mk _ _ _ _ _ (some rp) => rp + 1
  | .mk _ p _ _ specs none => (specs.head?.map Spec.stop).getD p

mutual

/-- Where a statement ends. -/
def Stmt.stop : Stmt → Nat
  | .bad _ q => q
  | .decl d => d.stop
  | .empty p implicit => if implicit then p else p + 1
  | .labeled _ _ s => s.stop
  | .expr x => x.stop
  | .send _ _ v => v.stop
  | .incDec _ p _ => p + 2
  | .assign _ p _ rhs => Expr.stopOfList p rhs
  | .goStmt _ c | .deferStmt _ c => c.stop
  | .returnStmt p rs => Expr.stopOfList (p + 6) rs
  | .branch p tok none => p + tok.text.utf8ByteSize
  | .branch _ _ (some l) => l.stop
  | .block b => b.stop
  | .ifStmt _ _ _ body none => body.stop
  | .ifStmt _ _ _ _ (some e) => e.stop
  | .caseClause _ _ colon body | .commClause _ _ colon body => Stmt.stopOfList (colon + 1) body
  | .switchStmt _ _ _ b | .typeSwitch _ _ _ b | .select _ b | .forStmt _ _ _ _ b => b.stop
  | .range _ _ _ _ _ _ _ b => b.stop
termination_by structural s => s

def Stmt.stopOfList (dflt : Nat) : List Stmt → Nat
  | [] => dflt
  | [s] => s.stop
  | _ :: rest => Stmt.stopOfList dflt rest
termination_by structural l => l

end

/-- Where a spec starts. -/
def Spec.start : Spec → Nat
  | .importSpec _ (some n) _ _ => n.pos
  | .importSpec _ none path _ => path.start
  | .value _ names _ _ _ => (names.head?.map Ident.pos).getD 0
  | .type _ name .. => name.pos

namespace Decl

/-- Where a declaration starts. -/
def start : Decl → Nat
  | bad p _ => p
  | gen d => d.tokPos
  | func _ _ _ sig _ => sig.start

/-- Where a declaration ends. -/
def stop : Decl → Nat
  | bad _ q => q
  | gen d => d.stop
  | func _ _ _ sig none => sig.stop
  | func _ _ _ _ (some b) => b.stop

/-- The documentation of a declaration. -/
def doc : Decl → Option CommentGroup
  | bad .. => none
  | gen d => d.doc
  | func d .. => d

/-- The keyword of a declaration: `func` for functions, none for a bad one. -/
def tok : Decl → Token
  | bad .. => .illegal
  | gen d => d.tok
  | func .. => .funcKw

end Decl

end TableSource

end PagedAsm
