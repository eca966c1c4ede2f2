import Std.Data.HashMap
import PagedAsm.Text.Blank
import PagedAsm.TableSource.Tree
import PagedAsm.TableSource.Source
import PagedAsm.TableSource.Columns

/-!
# The printer and its whitespace

The printer writes tokens one by one. Whitespace asked for between them (blanks, cell ends,
line breaks, changes of indentation) is held back until the next token comes; then any
comments of the text that stand before that token are written first, mixed into the held
whitespace so that they keep their place: on the line of the token before them, on a line of
their own, or before the token on its line. Only then is the rest of the whitespace written.

The printer follows the text through its positions: each token is written at its own place
in the text when the tree has it, and at the place just after what was written before
otherwise. From these places it knows how many lines the text left between two tokens (it
keeps up to one empty line) and which comments come before a token.

It also keeps the line and column of what it has written, which tell how wide a header is,
and a cache of the width of nodes printed on one line.
-/

namespace PagedAsm

namespace TableSource

/-- A place in the text: byte offset, line and column (from one; line 0 for none), and
whether it is a place of the file. -/
structure Place where
  offset : Nat
  line : Nat
  column : Nat
  inFile : Bool
  deriving DecidableEq, Repr, Inhabited

namespace Place

def none : Place := ⟨0, 0, 0, false⟩

def valid (p : Place) : Bool := p.line > 0

def beyond : Place := ⟨Nat.pow 2 30, Nat.pow 2 30, 0, false⟩

end Place

/-- Whitespace between tokens. -/
inductive Space where
  | ignore | blank | vtab | newline | formfeed | indent | unindent
  deriving DecidableEq, Repr, Inhabited

/-- What the printer is asked to print: whitespace, a token, a name, a literal, or a change
of its two modes (no blank, no line break added after a block comment). -/
inductive Item where
  | space (s : Space)
  | token (t : Token)
  | name (s : String)
  | literal (kind : Token) (value : String)
  | toggle (noBlank noLinebreak : Bool)

/-- A node whose printed width is cached: its kind, form, start and end. -/
structure SizeKey where
  kind : Nat
  form : Nat
  start : Nat
  stop : Nat
  deriving DecidableEq, Hashable, Repr

/-- The printer's state. -/
structure Printer where
  src : Source
  /-- Whether numbers are written as they are (when measuring nodes). -/
  raw : Bool
  output : Array Piece := #[]
  indent : Nat := 0
  level : Nat := 0
  noExtraBlank : Bool := false
  noExtraLinebreak : Bool := false
  endAlignment : Bool := false
  impliedSemi : Bool := false
  lastTok : Token := .illegal
  prevOpen : Token := .illegal
  wsbuf : Array Space := #[]
  pos : Place := ⟨0, 1, 1, false⟩
  out : Place := ⟨0, 1, 1, false⟩
  last : Place := Place.none
  lineSlots : Array Nat := #[]
  pendingSlot : Option Nat := none
  comments : Array CommentGroup := #[]
  cindex : Nat := 0
  comment : Option CommentGroup := none
  commentOffset : Nat := Nat.pow 2 30
  commentNewline : Bool := false
  useNodeComments : Bool := false
  sizes : Std.HashMap SizeKey Nat := {}

/-- Printing steps. -/
abbrev Print := StateM Printer

def infinity : Nat := Nat.pow 2 30

def countStarts (starts : Array Nat) (o : Nat) : Nat → Nat → Nat → Nat
  | 0, lo, _ => lo
  | fuel + 1, lo, hi =>
    if lo < hi then
      let mid := (lo + hi) / 2
      if starts[mid]?.getD 0 ≤ o then countStarts starts o fuel (mid + 1) hi
      else countStarts starts o fuel lo mid
    else lo

def Source.placeOf (src : Source) (o : Nat) : Place :=
  let n := src.lineStarts.size
  let line := countStarts src.lineStarts o (Nat.log2 n + 2) 0 n
  ⟨o, line, o - src.lineStarts[line - 1]?.getD 0 + 1, true⟩

namespace Printer

def init (src : Source) (raw : Bool) : Printer := { src := src, raw := raw }

end Printer

def posFor (o : Option Nat) : Print Place := do
  match o with
  | some o => return (← get).src.placeOf o
  | none => return Place.none

def lineFor (o : Option Nat) : Print Nat := return (← posFor o).line

/-- Make a position of the tree the place of the next token. -/
def setPos (o : Option Nat) : Print Unit := do
  if o.isSome then
    let p ← posFor o
    modify fun s => { s with pos := p }

def commentsHaveNewline (src : Source) (list : List Comment) : Bool :=
  let line := (list.head?.map fun c => (src.placeOf c.pos).line).getD 0
  list.any fun c =>
    (src.placeOf c.pos).line ≠ line ∨
      (c.text.utf8ByteSize ≥ 2 ∧ (c.text.startsWith "//" ∨ c.text.contains '\n'))

def nextCommentFrom : Nat → Printer → Printer
  | 0, s => { s with commentOffset := infinity }
  | fuel + 1, s =>
    match s.comments[s.cindex]? with
    | none => { s with commentOffset := infinity }
    | some g =>
      let s := { s with cindex := s.cindex + 1 }
      match g.list with
      | [] => nextCommentFrom fuel s
      | c :: _ =>
        { s with comment := some g, commentOffset := c.pos,
                 commentNewline := commentsHaveNewline s.src g.list }

def nextComment : Print Unit :=
  modify fun s => nextCommentFrom (s.comments.size + 1) s

def commentBefore (next : Place) : Print Bool := do
  let s ← get
  return s.commentOffset < next.offset ∧ (!s.impliedSemi ∨ !s.commentNewline)

def commentSizeFrom (next : Place) : Nat → Nat → Print Nat
  | 0, size => return size
  | fuel + 1, size => do
    if !(← commentBefore next) then return size
    let g := (← get).comment
    let size := size + ((g.map CommentGroup.list).getD []).foldl
      (fun n c => n + c.text.utf8ByteSize) 0
    nextComment
    commentSizeFrom next fuel size

def commentSizeBefore (next : Place) : Print Nat := do
  let s ← get
  let size ← commentSizeFrom next (s.comments.size + 1) 0
  modify fun t => { t with cindex := s.cindex, comment := s.comment,
                           commentOffset := s.commentOffset, commentNewline := s.commentNewline }
  return size

def recordLine : Print Nat := do
  let s ← get
  set { s with lineSlots := s.lineSlots.push 0, pendingSlot := some s.lineSlots.size }
  return s.lineSlots.size

def linesFrom (slot : Nat) : Print Int := do
  let s ← get
  return (s.out.line : Int) - (s.lineSlots[slot]?.getD 0 : Int)

def writeIndent : Print Unit := modify fun s =>
  { s with output := s.output ++ Array.replicate s.indent (.tab true),
           pos := { s.pos with offset := s.pos.offset + s.indent,
                               column := s.pos.column + s.indent },
           out := { s.out with column := s.out.column + s.indent } }

/-- Write a whitespace character `n` times: a blank, a tab, a vertical tab, a newline or a
form feed. After literal text that spans lines, tabs become blanks and the next line break
is a form feed, so that nothing aligns with the lines before it. -/
def writeByte (ch : Char) (n : Nat) : Print Unit := do
  let mut ch := ch
  if (← get).endAlignment then
    if ch = '\t' ∨ ch = '\x0b' then ch := ' '
    else if ch = '\n' ∨ ch = '\x0c' then
      ch := '\x0c'
      modify fun s => { s with endAlignment := false }
  if (← get).out.column = 1 then writeIndent
  let piece : Piece := match ch with
    | '\t' => .tab true
    | '\x0b' => .tab false
    | '\n' => .newline false
    | '\x0c' => .newline true
    | c => .text c.toString
  modify fun s =>
    let s := { s with output := s.output ++ Array.replicate n piece,
                      pos := { s.pos with offset := s.pos.offset + n } }
    if ch = '\n' ∨ ch = '\x0c' then
      { s with pos := { s.pos with line := s.pos.line + n, column := 1 },
               out := { s.out with line := s.out.line + n, column := 1 } }
    else
      { s with pos := { s.pos with column := s.pos.column + n },
               out := { s.out with column := s.out.column + n } }

def lastBreak (s : String) : Nat × Nat :=
  (s.toList.foldl (fun (acc : Nat × Nat × Nat) c =>
    let (i, li, n) := acc
    if c = '\n' ∨ c = '\x0c' then (i + c.utf8Size, i, n + 1) else (i + c.utf8Size, li, n))
    (0, 0, 0)).2

/-- Write a token, a name, a literal or a comment at `pos`, the place it has in the text (or
none); literal text passes the column writer unchanged. -/
def writeString (pos : Place) (s : String) (isLit : Bool) : Print Unit := do
  if (← get).out.column = 1 then writeIndent
  modify fun st =>
    let st := if pos.valid then { st with pos := pos } else st
    let st := { st with output := st.output.push (if isLit then .lit s else .text s) }
    let (li, nlines) := lastBreak s
    let size := s.utf8ByteSize
    let st := if nlines > 0 then { st with endAlignment := true } else st
    let st := { st with pos := { st.pos with offset := st.pos.offset + size } }
    let st := if nlines > 0 then
        let c := size - li
        { st with pos := { st.pos with line := st.pos.line + nlines, column := c },
                  out := { st.out with line := st.out.line + nlines, column := c } }
      else
        { st with pos := { st.pos with column := st.pos.column + size },
                  out := { st.out with column := st.out.column + size } }
    { st with last := st.pos }

/-- Write the first `n` entries of the held whitespace, and drop them; a line break followed
by an unindentation is written after it, as a form feed, so that a label moves left. At most
`fuel` steps. -/
def writeSpaces (n : Nat) : Nat → Nat → Print Unit
  | 0, _ => pure ()
  | fuel + 1, i => do
    if i ≥ n then return
    let buf := (← get).wsbuf
    match buf[i]? with
    | none => return
    | some ch =>
      match ch with
      | .ignore => writeSpaces n fuel (i + 1)
      | .indent =>
        modify fun s => { s with indent := s.indent + 1 }
        writeSpaces n fuel (i + 1)
      | .unindent =>
        modify fun s => { s with indent := s.indent - 1 }
        writeSpaces n fuel (i + 1)
      | .newline | .formfeed =>
        if i + 1 < n ∧ buf[i + 1]? = some .unindent then
          modify fun s => { s with wsbuf := (s.wsbuf.set! i .unindent).set! (i + 1) .formfeed }
          writeSpaces n fuel i
        else
          writeByte (if ch = .newline then '\n' else '\x0c') 1
          writeSpaces n fuel (i + 1)
      | .blank =>
        writeByte ' ' 1
        writeSpaces n fuel (i + 1)
      | .vtab =>
        writeByte '\x0b' 1
        writeSpaces n fuel (i + 1)

def writeWhitespace (n : Nat) : Print Unit := do
  writeSpaces n (2 * n + 2) 0
  modify fun s => { s with wsbuf := s.wsbuf.extract n s.wsbuf.size }

def containsLinebreak : Print Bool := do
  return (← get).wsbuf.any fun w => w = .newline ∨ w = .formfeed

def scanSameLine (buf : Array Space) : Nat × Bool × Array Space :=
  let rec go (i : Nat) (hasSep : Bool) (buf : Array Space) (fuel : Nat) : Nat × Bool × Array Space :=
    match fuel with
    | 0 => (0, hasSep, buf)
    | fuel + 1 =>
      match buf[i]? with
      | none => (0, hasSep, buf)
      | some .blank => go (i + 1) hasSep (buf.set! i .ignore) fuel
      | some .vtab => go (i + 1) true buf fuel
      | some .indent => go (i + 1) hasSep buf fuel
      | some _ => (i, hasSep, buf)
  go 0 false buf (buf.size + 1)

/-- Before a comment on a line of its own: the first index of held whitespace that stops the
search, dropping blanks and tabs and the first line break (whether one was dropped is
returned), and passing indentation and the unindentations that belong to what came before. -/
def scanOtherLine (buf : Array Space) (closing : Bool) (aligned : Bool) :
    Nat × Bool × Array Space :=
  let rec go (i : Nat) (dropped : Bool) (buf : Array Space) (fuel : Nat) :
      Nat × Bool × Array Space :=
    match fuel with
    | 0 => (0, dropped, buf)
    | fuel + 1 =>
      match buf[i]? with
      | none => (0, dropped, buf)
      | some .blank | some .vtab => go (i + 1) dropped (buf.set! i .ignore) fuel
      | some .indent => go (i + 1) dropped buf fuel
      | some .unindent =>
        if buf[i + 1]? = some .unindent then go (i + 1) dropped buf fuel
        else if !closing ∧ aligned then go (i + 1) dropped buf fuel
        else (i, dropped, buf)
      | some .newline | some .formfeed => (i, true, buf.set! i .ignore)
      | some _ => (i, dropped, buf)
  go 0 false buf (buf.size + 1)

def Comment.isLine (c : Comment) : Bool := c.text.startsWith "//"

/-- Write the whitespace before a comment at `pos`, the token after the comments being `tok`
at `next`, and `prev` the comment before it in its group. A comment on the line of what was
written last is set off by a separator: a blank if the token follows on its line, a tab
otherwise. A comment on a line of its own keeps the line breaks of the text before it (up to
one empty line), and at the top level also an empty line that the held whitespace asked
for. -/
def writeCommentPrefix (pos next : Place) (prev : Option Comment) (tok : Token) :
    Print Unit := do
  let s ← get
  if s.output.isEmpty then return
  if pos.valid ∧ pos.inFile ≠ s.last.inFile then
    writeByte '\x0c' 2
    return
  if pos.line = s.last.line ∧ (prev.all fun c => !c.isLine) then
    let mut hasSep := false
    if prev.isNone then
      let (j, sep, buf) := scanSameLine s.wsbuf
      hasSep := sep
      modify fun t => { t with wsbuf := buf }
      writeWhitespace j
    if !hasSep then
      writeByte (if pos.line = next.line then ' ' else '\t') 1
  else
    let (j, dropped, buf) := scanOtherLine s.wsbuf (tok = .rbrace) (pos.column = next.column)
    let droppedLinebreak := dropped ∧ prev.isNone
    modify fun t => { t with wsbuf := buf }
    writeWhitespace j
    let s ← get
    let mut n : Nat := 0
    if pos.valid ∧ s.last.valid then n := pos.line - s.last.line
    if s.indent = 0 ∧ droppedLinebreak then n := n + 1
    if n = 0 ∧ (prev.any Comment.isLine) then n := 1
    if n > 0 then writeByte '\x0c' (min n 2)

def trimRight (s : String) : String :=
  String.ofList (s.toList.reverse.dropWhile isBlank).reverse

def isBlankText (s : List Char) : Bool := s.all fun c => c.toNat ≤ 32

def commonPrefix : List Char → List Char → List Char
  | a :: as, b :: bs => if a = b ∧ (a.toNat ≤ 32 ∨ a = '*') then a :: commonPrefix as bs else []
  | _, _ => []

def dropSuffix (s suffix : List Char) : List Char :=
  if suffix.isSuffixOf s then s.take (s.length - suffix.length) else s

def beforeClosing : List Char → List Char
  | '*' :: '/' :: _ => []
  | c :: cs => c :: beforeClosing cs
  | [] => []

/-- The inner lines of a block comment, with the indentation they share taken off, so that
they can be indented anew: a column of stars on the left stays aligned with the opening
`/*`, text on the first line counts as indented by the width of `/*`, and a last line that
only closes the comment lines up with the first. -/
def stripCommonPrefix (lines : List (List Char)) : List (List Char) :=
  match lines with
  | [] | [_] => lines
  | first :: rest =>
    let inner := rest.dropLast
    let lastLine := rest.getLast?.getD []
    let inner := inner.map fun l => if isBlankText l then [] else l
    let (pfx, set) := inner.foldl (fun (acc : List Char × Bool) l =>
      if l.isEmpty then acc
      else if !acc.2 then (commonPrefix l l, true)
      else (commonPrefix acc.1 l, true)) ([], false)
    let pfx := if set then pfx else commonPrefix lastLine lastLine
    let (pfx, stars) :=
      match pfx.findIdx? (· = '*') with
      | some k =>
        let p := pfx.take k
        (if p.getLast? = some ' ' then p.dropLast else p, true)
      | none =>
        let afterOpen : List Char := first.drop 2
        if isBlankText afterOpen then
          let blanks := (pfx.reverse.takeWhile (· = ' ')).length
          let cut := min blanks 3
          let p := pfx.take (pfx.length - cut)
          let p := if cut = 0 ∧ p.getLast? = some '\t' then p.dropLast else p
          (p, false)
        else
          let ws := afterOpen.takeWhile fun (c : Char) => c.toNat ≤ 32
          let suffix := if ws.head? = some '\t' then ws else ' ' :: ' ' :: ws
          (dropSuffix pfx suffix, false)
    let closing := "*/".toList
    let before := beforeClosing lastLine
    let (lastLine, pfx) :=
      if isBlankText before then
        (pfx ++ (if stars then ' ' :: closing else closing), pfx)
      else (lastLine, commonPrefix pfx lastLine)
    let cut := fun (l : List Char) => if l.isEmpty then l else l.drop pfx.length
    first :: (inner.map cut ++ [cut lastLine])

/-- Write a comment. A line comment is written as it is; a block comment line by line, each
line after the first re-indented, with form feeds between them. -/
def writeComment (c : Comment) : Print Unit := do
  let pos := (← get).src.placeOf c.pos
  let oldIndent := (← get).indent
  if c.text.startsWith "//line " ∧ pos.column = 1 then
    modify fun s => { s with indent := 0 }
  if c.isLine then
    writeString pos (trimRight c.text) true
  else
    let lines := c.text.toList.splitOn '\n'
    let lines := if pos.column = 1 ∧ oldIndent > 0 then
        lines.headD [] :: (lines.drop 1).map fun l => ' ' :: ' ' :: ' ' :: l
      else lines
    let lines := stripCommonPrefix lines
    let mut first := true
    let mut place := pos
    for line in lines do
      if !first then
        writeByte '\x0c' 1
        place := (← get).pos
      first := false
      if !line.isEmpty then writeString place (trimRight (String.ofList line)) true
  modify fun s => { s with indent := oldIndent }

/-- Write the whitespace after comments: a line break if `needsLinebreak`, keeping at most
one of the held ones; held blanks and tabs are dropped. Returns whether a newline was written
and whether a form feed was dropped. -/
def writeCommentSuffix (needsLinebreak : Bool) : Print (Bool × Bool) := do
  let buf := (← get).wsbuf
  let (buf, needs, wrote, dropped) := buf.zipIdx.foldl
    (fun (acc : Array Space × Bool × Bool × Bool) (ch, i) =>
      let (buf, needs, wrote, dropped) := acc
      match ch with
      | .blank | .vtab => (buf.set! i .ignore, needs, wrote, dropped)
      | .newline | .formfeed =>
        if needs then (buf, false, true, dropped)
        else (buf.set! i .ignore, needs, wrote, dropped || ch = .formfeed)
      | _ => acc) (buf, needsLinebreak, false, false)
  modify fun s => { s with wsbuf := buf }
  writeWhitespace buf.size
  if needs then
    writeByte '\n' 1
    return (true, dropped)
  return (wrote, dropped)

/-- Write the comments of the current group and those after it that stand before `next`,
the place of token `tok`, at most `fuel` groups; `last` is the comment written last. -/
def writeGroups (next : Place) (tok : Token) : Nat → Option Comment → Print (Option Comment)
  | 0, last => return last
  | fuel + 1, last => do
    if !(← commentBefore next) then return last
    let s ← get
    let g := s.comment.getD ⟨[]⟩
    let start := s.src.placeOf g.pos
    let docComment := s.lastTok ≠ .importKw ∧ start.column = 1 ∧
      s.src.placeOf (g.stop + 1) = next
    let mut last := last
    for c in g.list do
      writeCommentPrefix (s.src.placeOf c.pos) next last tok
      writeComment c
      last := some c
    if docComment then
      if let some c := g.list.getLast? then
        let p := s.src.placeOf c.stop
        modify fun t => { t with pos := p, last := p }
    nextComment
    writeGroups next tok fuel last

def intersperseComments (next : Place) (tok : Token) : Print (Bool × Bool) := do
  let last ← writeGroups next tok ((← get).comments.size + 1) none
  match last with
  | none => return (false, false)
  | some c =>
    let s ← get
    let mut needsLinebreak := false
    let closesOpen := (tok ≠ .rparen ∨ s.prevOpen = .lparen) ∧ (tok ≠ .rbrack ∨ s.prevOpen = .lbrack)
    if !s.noExtraBlank ∧ !c.isLine ∧ (s.src.placeOf c.pos).line = next.line ∧ tok ≠ .comma ∧
        closesOpen then
      if (← containsLinebreak) ∧ !s.noExtraLinebreak ∧ s.level = 0 then needsLinebreak := true
      else writeByte ' ' 1
    if c.isLine ∨ tok = .eof ∨ (tok = .rbrace ∧ !s.noExtraLinebreak) then needsLinebreak := true
    writeCommentSuffix needsLinebreak

/-- Write the comments and whitespace before the token `tok` at `next`. -/
def flush (next : Place) (tok : Token) : Print (Bool × Bool) := do
  if ← commentBefore next then intersperseComments next tok
  else
    writeWhitespace (← get).wsbuf.size
    return (false, false)

def mayCombine (prev : Token) (next : Char) : Bool :=
  match prev with
  | .int => next = '.'
  | .add => next = '+'
  | .sub => next = '-'
  | .quo => next = '*'
  | .lss => next = '-' ∨ next = '<'
  | .and => next = '&' ∨ next = '^'
  | _ => false

def endsStatement : Token → Bool
  | .breakKw | .continueKw | .fallthroughKw | .returnKw | .inc | .dec
  | .rparen | .rbrack | .rbrace => true
  | _ => false

/-- Write a token, name or literal `data` after the comments and whitespace before it;
`implied` tells whether a line break after it ends a statement. -/
def emit (data : String) (isLit implied : Bool) (tok : Token) : Print Unit := do
  modify fun s => { s with lastTok := tok }
  let next := (← get).pos
  let (wroteNewline, droppedFF) ← flush next tok
  let mut implied := implied
  if !(← get).impliedSemi then
    let d : Int := (next.line : Int) - ((← get).pos.line : Int)
    let mut n : Int := min d 2
    if wroteNewline ∧ n = 2 then n := 1
    if n > 0 then
      writeByte (if droppedFF then '\x0c' else '\n') n.toNat
      implied := false
  modify fun s => match s.pendingSlot with
    | some k => { s with lineSlots := s.lineSlots.set! k s.out.line, pendingSlot := none }
    | none => s
  writeString next data isLit
  modify fun s => { s with impliedSemi := implied }

/-- Print one item. -/
def printItem (item : Item) : Print Unit := do
  modify fun s => match s.lastTok with
    | .illegal => s
    | .lparen | .lbrack => { s with prevOpen := s.lastTok }
    | _ => { s with prevOpen := .illegal }
  match item with
  | .toggle b l =>
    modify fun s => { s with noExtraBlank := s.noExtraBlank != b,
                             noExtraLinebreak := s.noExtraLinebreak != l }
  | .space .ignore => pure ()
  | .space x =>
    if (← get).wsbuf.size = 16 then writeWhitespace 16
    modify fun s => { s with wsbuf := s.wsbuf.push x, lastTok := .illegal }
    if x = .newline ∨ x = .formfeed then modify fun s => { s with impliedSemi := false }
  | .name s => emit s false true .ident
  | .literal k v => emit v true true k
  | .token t =>
    let text := t.text
    if mayCombine (← get).lastTok text.front then
      modify fun s => { s with wsbuf := #[.blank] }
    emit text false (endsStatement t) t

def print (items : List Item) : Print Unit := do
  for item in items do printItem item

def space (s : Space) : Print Unit := printItem (.space s)

def token (t : Token) : Print Unit := printItem (.token t)

/-- Print at least `min` line breaks, as many as the text has up to `line` (at most two);
the first is a form feed if `newSection`, and `ws` comes before them. Returns 0 for none, 1
for one newline, and more for a form feed or more newlines. -/
def linebreak (line min : Nat) (ws : Space) (newSection : Bool) : Print Nat := do
  let d : Int := (line : Int) - ((← get).pos.line : Int)
  let n : Int := max (Min.min d 2) min
  if n ≤ 0 then return 0
  space ws
  let mut n := n.toNat
  let mut nbreaks := 0
  if newSection then
    space .formfeed
    n := n - 1
    nbreaks := 2
  for _ in List.range n do space .newline
  return nbreaks + n

/-- Set the comment group of a node as the next comment, when node comments are used (when
printing a node by itself, without the comments of the file). -/
def setComment (g : Option CommentGroup) : Print Unit := do
  let s ← get
  match g with
  | none => return
  | some g =>
    if !s.useNodeComments then return
    if s.cindex < s.comments.size then
      let _ ← flush (s.src.placeOf g.pos) .illegal
      modify fun t => { t with comments := t.comments.extract 0 1 }
    modify fun t => { t with comments := if t.comments.isEmpty then #[g] else t.comments.set! 0 g,
                             cindex := 0 }
    if (← get).commentOffset = infinity then nextComment

end TableSource

end PagedAsm
