import PagedAsm.TableSource.Directive
import PagedAsm.TableSource.Source
import PagedAsm.TableSource.Token
import PagedAsm.Text.Digit
import PagedAsm.Text.Letter
import PagedAsm.Text.Printable
import PagedAsm.Text.Quoted

/-!
# Scanning the table source

The scanner cuts a source text into tokens, left to right, and records every fault it meets
on the way. Blanks, tabs and carriage returns separate tokens. A newline ends a statement,
and becomes a `;` token, when the token before it is a name, a literal, one of the keywords
`break`, `continue`, `fallthrough` and `return`, one of `++ -- ) ] }`; the end of the input
does the same. A block comment that spans lines counts as a newline there. A comment that is
a line directive leaves a mark from which positions are reported as it says.

Names are a letter or `_` followed by letters, digits and `_`, in the Unicode sense. Numbers
follow the usual grammar with `0x`, `0o`, `0b` and `0` prefixes, `_` separators, fractions,
`e` and `p` exponents and an `i` suffix; strings, characters and raw strings follow the usual
escapes. A NUL character or a byte order mark anywhere but at the start is a fault where it
stands, and a character that starts no token is an illegal character.
-/

namespace PagedAsm

namespace TableSource

/-- A token as scanned: where it starts, its kind, and its text where that matters (names,
literals, comments, illegal characters, and `;` written or `\n` inserted). -/
structure Lexeme where
  pos : Nat
  tok : Token
  lit : String

/-- The scanner: the text and the name of its file, the index of the current character,
whether a newline now ends a statement, a pending statement end at a newline inside a comment,
the faults so far, and the marks of line directives so far. -/
structure Scanner where
  src : Source
  name : String
  idx : Nat
  insertSemi : Bool
  nlPos : Option Nat
  faults : Array Fault
  marks : Array LineMark := #[]

def unicodeName (c : Char) : String :=
  let hex := String.ofList ((Nat.toDigits 16 c.toNat).map Char.toUpper)
  let padded := "".pushn '0' (4 - hex.length) ++ hex
  "U+" ++ padded ++ (if isPrintable c then " '" ++ c.toString ++ "'" else "")

def isNameStart (c : Char) : Bool :=
  ('a' ≤ c ∧ c ≤ 'z') ∨ ('A' ≤ c ∧ c ≤ 'Z') ∨ c = '_' ∨ (c.toNat ≥ 0x80 ∧ isLetter c)

def isDecimal (c : Char) : Bool :=
  '0' ≤ c ∧ c ≤ '9'

def isNameChar (c : Char) : Bool :=
  isNameStart c ∨ isDecimal c ∨ (c.toNat ≥ 0x80 ∧ isDecimalDigit c)

def lowerAscii (c : Char) : Char :=
  if 'A' ≤ c ∧ c ≤ 'Z' then Char.ofNat (c.toNat + 32) else c

def isHex (c : Char) : Bool :=
  isDecimal c ∨ ('a' ≤ lowerAscii c ∧ lowerAscii c ≤ 'f')

def digitValue : Option Char → Nat
  | some c =>
    if isDecimal c then c.toNat - '0'.toNat
    else if 'a' ≤ lowerAscii c ∧ lowerAscii c ≤ 'f' then (lowerAscii c).toNat - 'a'.toNat + 10
    else 16
  | none => 16

/-- The prefix of a number literal. -/
inductive NumberPrefix where
  | none | zero | hex | octal | binary
  deriving DecidableEq

/-- How a number literal with a prefix is named in messages. -/
def NumberPrefix.name : NumberPrefix → String
  | .hex => "hexadecimal literal"
  | .octal | .zero => "octal literal"
  | .binary => "binary literal"
  | .none => "decimal literal"

/-- The first misplaced `_` of a number literal: one that does not stand between two digits
(a prefix counts as a digit). -/
def misplacedSeparator (x : List Char) : Option Nat :=
  let (hex, start, d0) : Bool × Nat × Char :=
    match x with
    | '0' :: c :: _ =>
      let l := lowerAscii c
      if l = 'x' ∨ l = 'o' ∨ l = 'b' then (l = 'x', 2, '0') else (false, 0, '.')
    | _ => (false, 0, '.')
  let rec go : List Char → Nat → Char → Option Nat
    | [], i, d => if d = '_' then some (i - 1) else none
    | c :: cs, i, p =>
      if c = '_' then
        if p ≠ '0' then some i else go cs (i + 1) '_'
      else if isDecimal c ∨ (hex ∧ isHex c) then go cs (i + 1) '0'
      else if p = '_' then some (i - 1)
      else go cs (i + 1) '.'
  go (x.drop start) start d0

namespace Scanner

def ch (s : Scanner) : Option Char :=
  s.src.chars[s.idx]?

def peek (s : Scanner) : Option Char :=
  s.src.chars[s.idx + 1]?

def offset (s : Scanner) : Nat :=
  s.src.offsetAt s.idx

def remaining (s : Scanner) : Nat :=
  s.src.chars.size + 1 - s.idx

def fault (s : Scanner) (o : Nat) (message : String) : Scanner :=
  { s with faults := s.faults.push ⟨o, message⟩ }

/-- The position of a byte offset as reported, after the marks of line directives before it. -/
def position (s : Scanner) (o : Nat) : Position :=
  let line := s.src.line o
  match (s.marks.toList.filter (·.offset ≤ o)).getLast? with
  | none => ⟨s.name, line, s.src.column o⟩
  | some m =>
    let d := (line : Int) - s.src.line m.offset
    let column : Int :=
      if m.column = 0 then 0
      else if d = 0 then m.column + (o - m.offset : Nat)
      else s.src.column o
    ⟨m.file, m.line + d, column⟩

/-- Follow a line directive: the comment text `lit` starts at byte `offs`, and the text after
it at byte `next`. A malformed number is a fault; a mark is kept when it lies after the last
one and before the end of the text. A relative file name is taken from the directory of this
file, and an empty one, given with a column, stays the file of the position. -/
def follow (s : Scanner) (offs next : Nat) (lit : List Char) : Scanner :=
  let body := if lit.take 2 = ['/', '*'] then lit.dropLast.dropLast else lit
  match Directive.read (body.drop 7) with
  | .none => s
  | .fault i message => s.fault (offs + 7 + i) message
  | .mark file line column =>
    let file :=
      if file.isEmpty then (if column ≠ 0 then (s.position (offs + 7)).file else "")
      else
        let cleaned := FileName.clean file
        if FileName.isAbsolute cleaned then cleaned
        else FileName.join (FileName.dir s.name) cleaned
    let later : Bool := match s.marks.back? with
      | some m => m.offset < next
      | none => true
    if later && next < s.src.size then
      { s with marks := s.marks.push ⟨next, file, line, column⟩ }
    else s

/-- Move to the next character, recording a NUL or a byte order mark found there. -/
def next (s : Scanner) : Scanner :=
  if s.idx < s.src.chars.size then
    let s := { s with idx := s.idx + 1 }
    match s.ch with
    | some '\x00' => s.fault s.offset "illegal character NUL"
    | some '﻿' => s.fault s.offset "illegal byte order mark"
    | _ => s
  else s

/-- The scanner at the start of the text of a file named `name`; a byte order mark there is
skipped. -/
def start (name text : String) : Scanner :=
  let s : Scanner := ⟨Source.ofString text, name, 0, false, none, #[], #[]⟩
  match s.ch with
  | some '\x00' => s.fault 0 "illegal character NUL"
  | some '﻿' => s.next
  | _ => s

def skipWhile (p : Char → Bool) : Nat → Scanner → Scanner
  | 0, s => s
  | fuel + 1, s =>
    match s.ch with
    | some c => if p c then skipWhile p fuel s.next else s
    | none => s

def textFrom (s : Scanner) (i : Nat) : String :=
  s.src.slice i s.idx

/-- Digits of a base and `_` separators, at most `fuel` of them. Returns the bits `1` (a digit
was seen) and `2` (a separator was seen), and the first digit too large for a base up to 10. -/
def digits (base : Nat) : Nat → Scanner → Nat → Option (Nat × Char) →
    Scanner × Nat × Option (Nat × Char)
  | 0, s, seen, bad => (s, seen, bad)
  | fuel + 1, s, seen, bad =>
    match s.ch with
    | some c =>
      if c = '_' then digits base fuel s.next (seen ||| 2) bad
      else if (base ≤ 10 ∧ isDecimal c) ∨ (base > 10 ∧ isHex c) then
        let bad := if bad.isNone ∧ base ≤ 10 ∧ c.toNat ≥ '0'.toNat + base then
          some (s.offset, c) else bad
        digits base fuel s.next (seen ||| 1) bad
      else (s, seen, bad)
    | none => (s, seen, bad)

/-- Scan a number literal starting at the current character. -/
def scanNumber (s0 : Scanner) : Scanner × Token × String := Id.run do
  let mut s := s0
  let offs := s.offset
  let first := s.idx
  let mut tok := Token.illegal
  let mut base := 10
  let mut pfx := NumberPrefix.none
  let mut seen := 0
  let mut bad : Option (Nat × Char) := none
  if s.ch ≠ some '.' then
    tok := .int
    if s.ch = some '0' then
      s := s.next
      match s.ch.map lowerAscii with
      | some 'x' => s := s.next; base := 16; pfx := .hex
      | some 'o' => s := s.next; base := 8; pfx := .octal
      | some 'b' => s := s.next; base := 2; pfx := .binary
      | _ => base := 8; pfx := .zero; seen := 1
    let (s', d, b) := digits base s.remaining s 0 bad
    s := s'; seen := seen ||| d; bad := b
  if s.ch = some '.' then
    tok := .float
    if pfx = .octal ∨ pfx = .binary then
      s := s.fault s.offset ("invalid radix point in " ++ pfx.name)
    s := s.next
    let (s', d, b) := digits base s.remaining s 0 bad
    s := s'; seen := seen ||| d; bad := b
  if seen &&& 1 = 0 then
    s := s.fault s.offset (pfx.name ++ " has no digits")
  match s.ch with
  | some c =>
    let e := lowerAscii c
    if e = 'e' ∨ e = 'p' then
      if e = 'e' ∧ pfx ≠ .none ∧ pfx ≠ .zero then
        s := s.fault s.offset (quoteChar c ++ " exponent requires decimal mantissa")
      else if e = 'p' ∧ pfx ≠ .hex then
        s := s.fault s.offset (quoteChar c ++ " exponent requires hexadecimal mantissa")
      s := s.next
      tok := .float
      if s.ch = some '+' ∨ s.ch = some '-' then s := s.next
      let (s', d, _) := digits 10 s.remaining s 0 none
      s := s'; seen := seen ||| d
      if d &&& 1 = 0 then s := s.fault s.offset "exponent has no digits"
    else if pfx = .hex ∧ tok = .float then
      s := s.fault s.offset "hexadecimal mantissa requires a 'p' exponent"
  | none =>
    if pfx = .hex ∧ tok = .float then
      s := s.fault s.offset "hexadecimal mantissa requires a 'p' exponent"
  if s.ch = some 'i' then
    tok := .imag
    s := s.next
  let lit := s.textFrom first
  if tok = .int then
    if let some (o, c) := bad then
      s := s.fault o ("invalid digit " ++ quoteChar c ++ " in " ++ pfx.name)
  if seen &&& 2 ≠ 0 then
    if let some i := misplacedSeparator lit.toList then
      s := s.fault (offs + i) "'_' must separate successive digits"
  return (s, tok, lit)

def escapeDigits (base : Nat) : Nat → Scanner → Nat → Scanner × Option Nat
  | 0, s, x => (s, some x)
  | n + 1, s, x =>
    let d := digitValue s.ch
    if d ≥ base then
      match s.ch with
      | some c => (s.fault s.offset ("illegal character " ++ unicodeName c ++
          " in escape sequence"), none)
      | none => (s.fault s.offset "escape sequence not terminated", none)
    else escapeDigits base n s.next (x * base + d)

/-- Scan an escape after its backslash, inside quotes `quote`; whether it is well formed. -/
def scanEscape (quote : Char) (s : Scanner) : Scanner × Bool :=
  let offs := s.offset
  match s.ch with
  | none => (s.fault offs "escape sequence not terminated", false)
  | some c =>
    if c = quote ∨ c ∈ ['a', 'b', 'f', 'n', 'r', 't', 'v', '\\'] then (s.next, true)
    else
      let shape : Option (Scanner × Nat × Nat × Nat) :=
        if '0' ≤ c ∧ c ≤ '7' then some (s, 3, 8, 255)
        else if c = 'x' then some (s.next, 2, 16, 255)
        else if c = 'u' then some (s.next, 4, 16, 0x10FFFF)
        else if c = 'U' then some (s.next, 8, 16, 0x10FFFF)
        else none
      match shape with
      | none => (s.fault offs "unknown escape sequence", false)
      | some (s, n, base, max) =>
        match escapeDigits base n s 0 with
        | (s, none) => (s, false)
        | (s, some x) =>
          if x > max ∨ (0xD800 ≤ x ∧ x < 0xE000) then
            (s.fault offs "escape sequence is invalid Unicode code point", false)
          else (s, true)

def scanStringBody (offs : Nat) : Nat → Scanner → Scanner
  | 0, s => s
  | fuel + 1, s =>
    match s.ch with
    | none => s.fault offs "string literal not terminated"
    | some '\n' => s.fault offs "string literal not terminated"
    | some c =>
      let s := s.next
      if c = '"' then s
      else if c = '\\' then scanStringBody offs fuel (scanEscape '"' s).1
      else scanStringBody offs fuel s

def scanRuneBody (offs : Nat) : Nat → Scanner → Bool → Nat → Scanner × Bool × Nat
  | 0, s, valid, n => (s, valid, n)
  | fuel + 1, s, valid, n =>
    match s.ch with
    | none | some '\n' =>
      if valid then (s.fault offs "rune literal not terminated", false, n) else (s, valid, n)
    | some c =>
      let s := s.next
      if c = '\'' then (s, valid, n)
      else if c = '\\' then
        let (s, ok) := scanEscape '\'' s
        scanRuneBody offs fuel s (valid && ok) (n + 1)
      else scanRuneBody offs fuel s valid (n + 1)

def scanRune (s : Scanner) : Scanner :=
  let offs := s.offset - 1
  let (s, valid, n) := scanRuneBody offs s.remaining s true 0
  if valid ∧ n ≠ 1 then s.fault offs "illegal rune literal" else s

def scanRawBody (offs : Nat) : Nat → Scanner → Scanner
  | 0, s => s
  | fuel + 1, s =>
    match s.ch with
    | none => s.fault offs "raw string literal not terminated"
    | some c => if c = '\x60' then s.next else scanRawBody offs fuel s.next

def scanBlockBody (offs : Nat) : Nat → Scanner → Option Nat → Scanner × Option Nat × Bool
  | 0, s, nl => (s, nl, false)
  | fuel + 1, s, nl =>
    match s.ch with
    | none => (s.fault offs "comment not terminated", nl, false)
    | some c =>
      let nl := if c = '\n' ∧ nl.isNone then some s.offset else nl
      let s := s.next
      if c = '*' ∧ s.ch = some '/' then (s.next, nl, true)
      else scanBlockBody offs fuel s nl

def startsDirective (s : Scanner) (i : Nat) : Bool :=
  (s.src.chars.extract (i + 2) (i + 7)).toList = "line ".toList

def stripReturns (block : Bool) : List Char → List Char → Nat → List Char
  | [], acc, _ => acc.reverse
  | c :: rest, acc, n =>
    if c ≠ '\r' ∨ (block ∧ n > 2 ∧ acc.head? = some '*' ∧ rest.head? = some '/') then
      stripReturns block rest (c :: acc) (n + 1)
    else stripReturns block rest acc n

/-- Scan a comment after its first `/`: the scanner after it, the offset of the first
newline inside a block comment, and the text of the comment without carriage returns. A line
directive in it is followed: a `//` one only when the comment starts a line. -/
def scanComment (s : Scanner) : Scanner × Option Nat × String :=
  let offs := s.offset - 1
  let first := s.idx - 1
  if s.ch = some '/' then
    let s := skipWhile (· ≠ '\n') s.remaining s.next
    let next := if s.ch = some '\n' then s.offset + 1 else s.offset
    let lit := (s.src.chars.extract first s.idx).toList
    let lit := if lit.getLast? = some '\r' then lit.dropLast else lit
    let text := String.ofList (stripReturns false lit [] 0)
    let atLineStart := first = 0 ∨ s.src.chars[first - 1]? = some '\n'
    if atLineStart ∧ s.startsDirective first then (s.follow offs next lit, none, text)
    else (s, none, text)
  else
    let (s, nl, closed) := scanBlockBody offs s.remaining s.next none
    let lit := (s.src.chars.extract first s.idx).toList
    let text := String.ofList (stripReturns true lit [] 0)
    if closed ∧ s.startsDirective first then (s.follow offs s.offset lit, nl, text)
    else (s, nl, text)

def pick2 (s : Scanner) (a b : Token) : Scanner × Token :=
  if s.ch = some '=' then (s.next, b) else (s, a)

def pick3 (s : Scanner) (a b : Token) (d : Char) (c : Token) : Scanner × Token :=
  if s.ch = some '=' then (s.next, b)
  else if s.ch = some d then (s.next, c)
  else (s, a)

def pick4 (s : Scanner) (a b : Token) (d : Char) (c e : Token) : Scanner × Token :=
  if s.ch = some '=' then (s.next, b)
  else if s.ch = some d then
    let s := s.next
    if s.ch = some '=' then (s.next, e) else (s, c)
  else (s, a)

/-- The token of an operator, delimiter, literal or comment starting with `c`, the current
character already passed: the scanner after it, the token, its text, and whether a newline
after it ends a statement. -/
def scanOther (c : Char) (pos : Nat) (s : Scanner) : Scanner × Token × String × Bool :=
  let plain := fun (p : Scanner × Token) => (p.1, p.2, "", false)
  match c with
  | '"' => (scanStringBody pos s.remaining s, .string, "", true)
  | '\'' => (scanRune s, .char, "", true)
  | '\x60' => (scanRawBody pos s.remaining s, .string, "", true)
  | ':' => plain (s.pick2 .colon .define)
  | '.' =>
    if s.ch = some '.' ∧ s.peek = some '.' then (s.next.next, .ellipsis, "", false)
    else (s, .period, "", false)
  | ',' => (s, .comma, "", false)
  | ';' => (s, .semicolon, ";", false)
  | '(' => (s, .lparen, "", false)
  | ')' => (s, .rparen, "", true)
  | '[' => (s, .lbrack, "", false)
  | ']' => (s, .rbrack, "", true)
  | '\x7b' => (s, .lbrace, "", false)
  | '\x7d' => (s, .rbrace, "", true)
  | '+' => let (s, t) := s.pick3 .add .addAssign '+' .inc; (s, t, "", t = .inc)
  | '-' => let (s, t) := s.pick3 .sub .subAssign '-' .dec; (s, t, "", t = .dec)
  | '*' => plain (s.pick2 .mul .mulAssign)
  | '/' =>
    if s.ch = some '/' ∨ s.ch = some '*' then
      let (s', nl, text) := scanComment s
      match nl with
      | some o =>
        if s.insertSemi then ({ s' with nlPos := some o }, .comment, text, false)
        else (s', .comment, text, s.insertSemi)
      | none => (s', .comment, text, s.insertSemi)
    else plain (s.pick2 .quo .quoAssign)
  | '%' => plain (s.pick2 .rem .remAssign)
  | '^' => plain (s.pick2 .xor .xorAssign)
  | '<' =>
    if s.ch = some '-' then (s.next, .arrow, "", false)
    else plain (s.pick4 .lss .leq '<' .shl .shlAssign)
  | '>' => plain (s.pick4 .gtr .geq '>' .shr .shrAssign)
  | '=' => plain (s.pick2 .assign .eql)
  | '!' => plain (s.pick2 .not .neq)
  | '&' =>
    if s.ch = some '^' then plain (s.next.pick2 .andNot .andNotAssign)
    else plain (s.pick3 .and .andAssign '&' .land)
  | '|' => plain (s.pick3 .or .orAssign '|' .lor)
  | '~' => (s, .tilde, "", false)
  | _ =>
    let s :=
      if c = '﻿' then s
      else if c = '“' ∨ c = '”' then
        s.fault pos ("curly quotation mark " ++ quoteChar c ++ " (use neutral " ++
          quoteChar '"' ++ ")")
      else s.fault pos ("illegal character " ++ unicodeName c)
    (s, .illegal, c.toString, s.insertSemi)

/-- Scan the next token. -/
def scan (s : Scanner) : Scanner × Lexeme :=
  match s.nlPos with
  | some p => ({ s with nlPos := none }, ⟨p, .semicolon, "\n"⟩)
  | none =>
    let semi := s.insertSemi
    let s := skipWhile (fun c => c = ' ' ∨ c = '\t' ∨ c = '\r' ∨ (c = '\n' ∧ !semi))
      s.remaining s
    let pos := s.offset
    match s.ch with
    | none =>
      if s.insertSemi then ({ s with insertSemi := false }, ⟨pos, .semicolon, "\n"⟩)
      else (s, ⟨pos, .eof, ""⟩)
    | some '\n' => ({ s.next with insertSemi := false }, ⟨pos, .semicolon, "\n"⟩)
    | some c =>
      if isNameStart c then
        let first := s.idx
        let s := skipWhile isNameChar s.remaining s
        let lit := s.textFrom first
        let tok := if lit.utf8ByteSize > 1 then Token.ofWord lit else .ident
        let semi := tok = .ident ∨ tok = .breakKw ∨ tok = .continueKw ∨
          tok = .fallthroughKw ∨ tok = .returnKw
        ({ s with insertSemi := semi }, ⟨pos, tok, lit⟩)
      else if isDecimal c ∨ (c = '.' ∧ s.peek.any isDecimal) then
        let (s, tok, lit) := scanNumber s
        ({ s with insertSemi := true }, ⟨pos, tok, lit⟩)
      else
        let first := s.idx
        let (s, tok, lit, semi) := scanOther c pos s.next
        let lit := if tok = .string ∨ tok = .char then s.textFrom first else lit
        ({ s with insertSemi := semi }, ⟨pos, tok, lit⟩)

end Scanner

end TableSource

end PagedAsm
