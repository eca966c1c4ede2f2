import PagedAsm.Assembly.Atom

/-!
# Bindings of names

Constants, macro parameters and loop variables bind names to operands. A binding applies to a
word token in three ways: the whole word is a bound name (the token becomes the value, at the
word's place); the word is `$name` with `name` bound (to a token: the word becomes `$` and the
token's text, or just the text if it already starts with `$`; to a label: a reference to that
label); or the word is `a..b` (each side that is bound to a token is replaced by its text).
Newest bindings come first.
-/

namespace PagedAsm

/-- Names bound to operands, newest first. -/
structure Bindings where
  entries : List (String × Operand)
  deriving Repr

namespace Bindings

def empty : Bindings := ⟨[]⟩

def find? (b : Bindings) (name : String) : Option Operand :=
  (b.entries.find? (·.1 == name)).map (·.2)

def contains (b : Bindings) (name : String) : Bool := (b.find? name).isSome

def insert (b : Bindings) (name : String) (v : Operand) : Bindings :=
  ⟨(name, v) :: b.entries.filter (·.1 != name)⟩

def ofList (pairs : List (String × Operand)) : Bindings :=
  pairs.foldl (fun b (n, v) => b.insert n v) empty

def sideText (b : Bindings) (name : String) : String :=
  match b.find? name with
  | some (.token t) => t.text
  | _ => name

def cutRange : List Char → Option (List Char × List Char)
  | '.' :: '.' :: rest => some ([], rest)
  | c :: rest => (cutRange rest).map fun (l, r) => (c :: l, r)
  | [] => none

def splitRange? (text : String) : Option (String × String) :=
  (cutRange text.toList).map fun (l, r) => (String.ofList l, String.ofList r)

/-- Apply the bindings to a token. -/
def apply (b : Bindings) (tok : Token) : Operand :=
  if b.entries.isEmpty || tok.kind != .word then .token tok
  else match b.find? tok.text with
    | some (.token v) => .token (v.moveTo tok.span tok.line)
    | some (.label l) => .label (l.moveTo tok.span tok.line)
    | none =>
      match tok.text.toList with
      | '$' :: rest =>
        match b.find? (String.ofList rest) with
        | some (.token v) =>
          if v.text.startsWith "$" then .token (tok.withText v.text)
          else .token (tok.withText ("$" ++ v.text))
        | some (.label l) => .label (l.moveTo tok.span tok.line)
        | none => .token tok
      | _ =>
        match splitRange? tok.text with
        | some (lhs, rhs) => .token (tok.withText (b.sideText lhs ++ ".." ++ b.sideText rhs))
        | none => .token tok

def rewrite (b : Bindings) (n : Node) : Node :=
  n.mapLeaves fun
    | .token t => (b.apply t).toAtom
    | a => a

end Bindings

end PagedAsm
