import PagedAsm.Diagnostic
import PagedAsm.Scanner.Rules
import PagedAsm.Source.Line
import PagedAsm.Syntax.Token

/-!
# Reading a source text into tokens

The text is cut into lexemes by rules tried in this order: a comment from `;` to the end of the
line, a line end, a run of blanks (space, tab, carriage return, comma), one of the six
brackets, a word, the end of the input. Comments and blanks are dropped, line ends at the start
or after another line end are dropped, and a final line end is added at the end of the text when
the tokens do not already end with one.

A word ends at a delimiter outside quotes. A quote (`"` or `'`) opens a string unless a
backslash stands right before it; the same quote closes it. Inside a string a backslash takes
the next character with it, unless that is a line end, and a line end means the string is not
terminated. When no rule matches, lexing fails with `unterminated string` over the rest of the
line where the failing word starts.
-/

namespace PagedAsm

/-- What a lexeme of a source text is, before comments and blanks are dropped. -/
inductive LexemeClass where
  | comment | newline | blank
  | opening (b : Bracket)
  | closing (b : Bracket)
  | word
  | endOfInput
  deriving DecidableEq, Repr

def wordDelimiters : List Char := [' ', '\t', '\r', ',', '\n', ';', '(', ')', '{', '}', '[', ']']

/-- Walk a word from the front of `cs`, given the open quote (if inside a string), the
character before `cs`, and the characters walked so far, last first. Returns the characters of
the word, last first, with every opening and closing quote written `"`, and whether every
string in it was closed. -/
def walkWord : Option Char → Option Char → List Char → List Char → List Char × Bool
  | quote, _, [], acc => (acc, quote.isNone)
  | some q, _, c :: cs, acc =>
    match cs with
    | d :: rest =>
      if c = '\\' ∧ d ≠ '\n' then walkWord (some q) (some d) rest (d :: c :: acc)
      else if c = '\n' then ([], false)
      else if c = q then walkWord none (some c) (d :: rest) ('"' :: acc)
      else walkWord (some q) (some c) (d :: rest) (c :: acc)
    | [] =>
      if c = '\n' then ([], false)
      else if c = q then ('"' :: acc, true)
      else (c :: acc, false)
  | none, prev, c :: cs, acc =>
    if c = '"' ∨ c = '\'' then
      if prev = some '\\' then walkWord none (some c) cs (c :: acc)
      else walkWord (some c) (some c) cs ('"' :: acc)
    else if c ∈ wordDelimiters then (acc, true)
    else walkWord none (some c) cs (c :: acc)
termination_by _ _ cs _ => cs.length

def wordScanner : Scanner Char := fun cs =>
  let r := walkWord none none cs []
  if r.2 then r.1.length else 0

def sourceRules : List (Rule Char LexemeClass) :=
  [ ⟨Scanner.allOf [Scanner.unit [';'], Scanner.upTo '\n'], .comment⟩,
    ⟨Scanner.unit ['\n'], .newline⟩,
    ⟨Scanner.many (Scanner.oneOf [' ', '\t', '\r', ',']), .blank⟩,
    ⟨Scanner.unit ['('], .opening .round⟩,
    ⟨Scanner.unit [')'], .closing .round⟩,
    ⟨Scanner.unit ['{'], .opening .curly⟩,
    ⟨Scanner.unit ['}'], .closing .curly⟩,
    ⟨Scanner.unit ['['], .opening .square⟩,
    ⟨Scanner.unit [']'], .closing .square⟩,
    ⟨wordScanner, .word⟩,
    ⟨Scanner.endOfInput, .endOfInput⟩ ]

def LexemeClass.tokenKind? : LexemeClass → Option TokenKind
  | .newline => some .newline
  | .opening b => some (.opening b)
  | .closing b => some (.closing b)
  | .word => some .word
  | .comment | .blank | .endOfInput => none

def countNewlines (text : Array Char) (lo hi : Nat) : Nat :=
  ((text.extract lo hi).toList.filter (· = '\n')).length

def lexemeText (text : Array Char) (kind : TokenKind) (span : Span) : String :=
  let cs := (text.extract span.start span.stop).toList
  if kind = .word then String.ofList (walkWord none none cs []).1.reverse else String.ofList cs

def tokensFrom (text : Array Char) :
    List (Lexeme LexemeClass) → (pos line : Nat) → List Token → List Token × Nat × Nat
  | [], pos, line, acc => (acc, pos, line)
  | l :: ls, pos, line, acc =>
    match l.tag.tokenKind? with
    | none => tokensFrom text ls pos line acc
    | some kind =>
      let line := line + countNewlines text pos l.span.start
      let pos := max pos l.span.start
      let afterNewline := match acc with
        | [] => true
        | t :: _ => t.isNewline
      if kind == .newline && afterNewline then tokensFrom text ls pos line acc
      else tokensFrom text ls pos line (⟨kind, lexemeText text kind l.span, l.span, line⟩ :: acc)

/-- The tokens of a source text, or the diagnostic of an unterminated string. -/
def tokenize (source : List Char) : Except Diagnostic (List Token) :=
  let (lexemes, stop) := Rule.lex sourceRules source
  if stop < source.length then
    let line := Line.enclosing source stop
    let lineEnd := stop + Line.lineLength (source.drop stop)
    .error ⟨.unterminatedString, ⟨stop, lineEnd, Nat.le_add_right stop _⟩, line.number⟩
  else
    let text := source.toArray
    let (acc, pos, line) := tokensFrom text lexemes 0 1 []
    let endsInNewline := match acc with
      | [] => false
      | t :: _ => t.isNewline
    if endsInNewline then .ok acc.reverse
    else
      let line := line + countNewlines text pos text.size
      .ok (⟨.newline, "\n", Span.point text.size, line⟩ :: acc).reverse

end PagedAsm
