import PagedAsm.Source.Span

/-!
# Tokens

A source text is read as words, brackets and line ends. A word is any run of characters up to a
blank, a comma, a line end, a comment or a bracket, where quoted strings may hold those
characters. Every token keeps its text, its span and the line it starts on.
-/

namespace PagedAsm

/-- The three kinds of brackets. -/
inductive Bracket where
  | round | curly | square
  deriving DecidableEq, Repr

namespace Bracket

/-- The opening character. -/
def opener : Bracket → String
  | .round => "("
  | .curly => "\x7b"
  | .square => "["

def closer : Bracket → String
  | .round => ")"
  | .curly => "\x7d"
  | .square => "]"

end Bracket

/-- What a token is. -/
inductive TokenKind where
  /-- The end of a statement. -/
  | newline
  | opening (b : Bracket)
  | closing (b : Bracket)
  /-- Any other run of characters, strings included. -/
  | word
  deriving DecidableEq, Repr

/-- The number of a token kind: 3 for a line end, 4 to 9 for `(`, `)`, `{`, `}`, `[`, `]`,
10 for a word. -/
def TokenKind.code : TokenKind → Nat
  | .newline => 3
  | .opening .round => 4
  | .closing .round => 5
  | .opening .curly => 6
  | .closing .curly => 7
  | .opening .square => 8
  | .closing .square => 9
  | .word => 10

/-- A token: its kind, its text, the span it covers and the line it starts on. In a word, every
string delimiter reads `"`. -/
structure Token where
  kind : TokenKind
  text : String
  span : Span
  line : Nat
  deriving DecidableEq, Repr

namespace Token

def isNewline (t : Token) : Bool := t.kind == .newline

def display (t : Token) : String :=
  if t.kind = .newline then "\\n" else t.text

def withText (t : Token) (text : String) : Token := { t with text := text }

def moveTo (t : Token) (span : Span) (line : Nat) : Token := { t with span := span, line := line }

end Token

end PagedAsm
