import PagedAsm.Syntax.Tree
import PagedAsm.Text.Digit
import PagedAsm.Text.Letter

/-!
# Names, label sites and the nodes of expansion

Expansion works on bracket trees whose leaves are atoms: tokens, label definitions (`name:`)
and label references (`$name`) that were tied to a label. A name (of a label, macro, parameter,
constant or loop variable) is an identifier: a non-empty run of letters, decimal digits, `_`
and `.`, not starting with an ASCII digit and without `..`.
-/

namespace PagedAsm

def hasDoubleDot : List Char → Bool
  | '.' :: '.' :: _ => true
  | _ :: rest => hasDoubleDot rest
  | [] => false

def isNameChar (c : Char) : Bool :=
  c = '_' || c = '.' || isLetter c || isDecimalDigit c

/-- Whether a text is an identifier. -/
def isIdentifier (text : String) : Bool :=
  match text.toList with
  | [] => false
  | c :: cs => !c.isDigit && !hasDoubleDot (c :: cs) && (c :: cs).all isNameChar

def keywords : List String := ["FOR", "IN", "ASSIGN", "INCLUDE", "LEN", "ENUMERATE", "__WRITE_STR__"]

def isKeyword (word : String) : Bool := keywords.contains word

def labelName? (text : String) : Option String :=
  match text.toList with
  | '$' :: rest =>
    let name := String.ofList rest
    if isIdentifier name then some name else none
  | _ => none

/-- Where a label is defined or referred to: the label's number, its name, span and line. -/
structure LabelSite where
  id : Nat
  name : String
  span : Span
  line : Nat
  deriving DecidableEq, Repr

def LabelSite.moveTo (l : LabelSite) (span : Span) (line : Nat) : LabelSite :=
  { l with span := span, line := line }

/-- A leaf of an expansion tree. -/
inductive Atom where
  | token (t : Token)
  | labelDef (l : LabelSite)
  | labelRef (l : LabelSite)
  deriving DecidableEq, Repr

/-- A node of an expansion tree. -/
abbrev Node := Tree Atom

/-- What a name may stand for, and what an operand is: a token, or a reference to a label. -/
inductive Operand where
  | token (t : Token)
  | label (l : LabelSite)
  deriving DecidableEq, Repr

namespace Atom

def span : Atom → Span
  | .token t => t.span
  | .labelDef l | .labelRef l => l.span

def line : Atom → Nat
  | .token t => t.line
  | .labelDef l | .labelRef l => l.line

/-- How an atom is written in messages. -/
def display : Atom → String
  | .token t => t.display
  | .labelDef l => l.name ++ ":"
  | .labelRef l => "$" ++ l.name

end Atom

namespace Operand

def toAtom : Operand → Atom
  | .token t => .token t
  | .label l => .labelRef l

def span (o : Operand) : Span := o.toAtom.span

def line (o : Operand) : Nat := o.toAtom.line

def display (o : Operand) : String := o.toAtom.display

end Operand

namespace Tree

def span : Node → Span
  | .leaf a => a.span
  | .group _ _ s _ => s

def line : Node → Nat
  | .leaf a => a.line
  | .group _ _ _ l => l

def written (n : Node) : String := n.display Atom.display

end Tree

def Problem.atNode (p : Problem) (n : Node) : Diagnostic := ⟨p, n.span, n.line⟩

def Problem.atToken (p : Problem) (t : Token) : Diagnostic := ⟨p, t.span, t.line⟩

/-- What expansion produces: label definitions and instructions with their operand. -/
inductive Item where
  | label (l : LabelSite)
  | instruction (mnemonic : Token) (operand : Option Operand)
  deriving DecidableEq, Repr

end PagedAsm
