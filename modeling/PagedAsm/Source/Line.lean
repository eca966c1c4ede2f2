import PagedAsm.Source.Span

/-!
# Physical lines

A source text is a list of characters; its physical lines are the runs between newlines, the
newline itself excluded. A text that ends in a newline has no empty line after it, but the
line that encloses a position past the end is the (possibly empty) run after the last newline.

* `Line.linesOf` lists the lines with their numbers from 1.
* `Line.enclosing` finds the line of a position: the line that holds it, or for a position at
  or past the end, the run after the last newline.
-/

namespace PagedAsm

/-- A physical line: its number, counted from 1, and the span of its characters. -/
structure Line where
  number : Nat
  span : Span
  deriving DecidableEq, Repr

def spanChars (text : List Char) (s : Span) : List Char :=
  (text.drop s.start).take s.length

def spanText (text : List Char) (s : Span) : String :=
  String.ofList (spanChars text s)

namespace Line

/-- The lines of the rest `cs` of a text, where the current line started at `start`, the rest
starts at position `pos`, and the current line has number `n`. -/
def linesFrom : List Char → (start pos n : Nat) → start ≤ pos → List Line
  | [], start, pos, n, h => if start < pos then [⟨n, ⟨start, pos, h⟩⟩] else []
  | c :: cs, start, pos, n, h =>
    if c = '\n' then ⟨n, ⟨start, pos, h⟩⟩ :: linesFrom cs (pos + 1) (pos + 1) (n + 1) (by omega)
    else linesFrom cs start (pos + 1) n (by omega)

/-- The physical lines of a text; a trailing newline starts no empty line. -/
def linesOf (text : List Char) : List Line :=
  linesFrom text 0 0 1 (Nat.le_refl 0)

def lineLength (cs : List Char) : Nat :=
  (cs.takeWhile (· ≠ '\n')).length

def enclosingFrom (p : Nat) : List Char → (start pos n : Nat) → start ≤ pos → Line
  | [], start, pos, n, h => ⟨n, ⟨start, pos, h⟩⟩
  | c :: cs, start, pos, n, h =>
    if pos = p then ⟨n, ⟨start, pos + lineLength (c :: cs), by omega⟩⟩
    else if c = '\n' then enclosingFrom p cs (pos + 1) (pos + 1) (n + 1) (by omega)
    else enclosingFrom p cs start (pos + 1) n (by omega)

/-- The line enclosing position `p`: the line holding it, or for `p` at or past the end of the
text, the run after the last newline. -/
def enclosing (text : List Char) (p : Nat) : Line :=
  enclosingFrom p text 0 0 1 (Nat.le_refl 0)

def text (l : Line) (source : List Char) : String :=
  spanText source l.span

def start (l : Line) : Nat := l.span.start

def length (l : Line) : Nat := l.span.length

end Line

end PagedAsm
