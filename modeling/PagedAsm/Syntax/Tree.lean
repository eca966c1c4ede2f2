import PagedAsm.Diagnostic
import PagedAsm.Stack
import PagedAsm.Syntax.Token

/-!
# Bracket trees

Brackets arrange the tokens of a text into a tree: every bracketed run becomes a group that
keeps its bracket, the span from its opener to its closer and the line of its opener; all other
tokens are leaves. The document is the top-level run; its span covers every token, starting
from position 0.

Building fails on a closer with no open group (`unexpected "X"`, at the closer), a closer of
the wrong kind (`unmatched "O" (found "X")`, at the opener), and a group still open at the end
(`unclosed "O"`, at the innermost opener).
-/

namespace PagedAsm

/-- A tree of leaves grouped by brackets. -/
inductive Tree (α : Type) where
  | leaf (a : α)
  | group (bracket : Bracket) (children : List (Tree α)) (span : Span) (line : Nat)
  deriving Repr

namespace Tree

variable {α β : Type}

mutual

def mapLeaves (f : α → β) : Tree α → Tree β
  | .leaf a => .leaf (f a)
  | .group b cs s l => .group b (mapForest f cs) s l

def mapForest (f : α → β) : List (Tree α) → List (Tree β)
  | [] => []
  | c :: cs => mapLeaves f c :: mapForest f cs

end

@[simp] theorem mapForest_eq_map (f : α → β) (cs : List (Tree α)) :
    mapForest f cs = cs.map (mapLeaves f) := by
  induction cs with
  | nil => rfl
  | cons c cs ih => simp [mapForest, ih]

def leaves : Tree α → List α
  | .leaf a => [a]
  | .group _ cs _ _ => (cs.attach.map fun ⟨c, _⟩ => c.leaves).flatten

/-- How deep groups nest inside a list of trees: 0 without groups, else one more than the
deepest nesting inside a group. -/
def nesting : List (Tree α) → Nat
  | [] => 0
  | .leaf _ :: rest => nesting rest
  | .group _ cs _ _ :: rest => max (nesting cs + 1) (nesting rest)

/-- The text of a tree: leaves shown by `showLeaf`, children separated by one space, inside the
group's brackets. -/
def display (showLeaf : α → String) : Tree α → String
  | .leaf a => showLeaf a
  | .group b cs _ _ =>
    b.opener ++ " ".intercalate (cs.attach.map fun ⟨c, _⟩ => c.display showLeaf) ++ b.closer

end Tree

/-- The top-level run of a text, with the span that covers all its tokens. -/
structure Document where
  children : List (Tree Token)
  span : Span
  deriving Repr

namespace Document

def display (d : Document) : String :=
  " ".intercalate (d.children.map (Tree.display Token.display))

def depth (d : Document) : Nat := Tree.nesting d.children

def tokens (d : Document) : List Token :=
  (d.children.map Tree.leaves).flatten

end Document

/-- A group being built: its bracket, its opener's span and line, and its children so far,
last first. -/
structure OpenGroup where
  bracket : Bracket
  span : Span
  line : Nat
  children : List (Tree Token)

/-- The state of tree building: the top-level trees so far, last first, the open groups,
innermost on top, and the span of all tokens so far. -/
structure TreeBuilder where
  top : List (Tree Token)
  groups : Stack OpenGroup
  span : Span

namespace TreeBuilder

def start : TreeBuilder := ⟨[], Stack.empty, Span.point 0⟩

/-- Add a finished tree to the innermost open group, or to the top level. -/
def add (st : TreeBuilder) (t : Tree Token) : TreeBuilder :=
  match st.groups.pop? with
  | none => { st with top := t :: st.top }
  | some (g, rest) => { st with groups := rest.push { g with children := t :: g.children } }

/-- Take one more token. -/
def step (st : TreeBuilder) (tok : Token) : Except Diagnostic TreeBuilder :=
  let st := { st with span := st.span.join tok.span }
  match tok.kind with
  | .opening b => .ok { st with groups := st.groups.push ⟨b, tok.span, tok.line, []⟩ }
  | .closing b =>
    match st.groups.pop? with
    | none => .error ⟨.unexpectedBracket tok.text, tok.span, tok.line⟩
    | some (g, rest) =>
      if g.bracket ≠ b then .error ⟨.unmatched g.bracket.opener tok.text, g.span, g.line⟩
      else
        let done := Tree.group g.bracket g.children.reverse (g.span.join tok.span) g.line
        .ok (add { st with groups := rest } done)
  | _ => .ok (st.add (.leaf tok))

/-- Take all tokens, then close the document. -/
def run (st : TreeBuilder) : List Token → Except Diagnostic Document
  | tok :: toks => do
    let st ← st.step tok
    st.run toks
  | [] =>
    match st.groups.top? with
    | some g => .error ⟨.unclosed g.bracket.opener, g.span, g.line⟩
    | none => .ok ⟨st.top.reverse, st.span⟩

end TreeBuilder

def Document.ofTokens (tokens : List Token) : Except Diagnostic Document :=
  TreeBuilder.start.run tokens

end PagedAsm
