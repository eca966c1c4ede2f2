/-!
# Aligned columns

The printer writes text in cells: a tab ends a cell, and the cells of consecutive lines that
stand in the same column are padded to one width, so that what follows them lines up. This is
the rule of elastic tab stops.

A column is a run of consecutive lines that all have a cell in that position, the last cell
of a line not counting (it ends at the line break, not at a tab). Its width is that of its
widest cell plus one blank. A column whose cells are all empty and all ended by a soft tab
(a vertical tab) has width zero. Cells are padded with blanks, except that the empty cells at
the start of a line, its indentation, become one tab for each eight columns of width.

A form feed ends a section: no column reaches across it. A line of a single cell ends a
section too, since nothing on it can line up with what follows.

Literal text (names, literals, comments) passes unchanged: a tab or a line break inside it
does not end a cell, and it counts as wide as its characters.

Last, blanks and tabs that end a line are dropped, unless they belong to literal text.
-/

namespace PagedAsm

namespace TableSource

/-- A piece of printed text. -/
inductive Piece where
  /-- Text without tabs or line breaks. -/
  | text (s : String)
  /-- Literal text, passed as it is. -/
  | lit (s : String)
  /-- The end of a cell: a hard tab, or a soft (vertical) one. -/
  | tab (hard : Bool)
  /-- The end of a line: a newline, or a form feed, which also ends a section. -/
  | newline (formfeed : Bool)
  deriving DecidableEq, Repr

/-- A cell: its text, its width in characters, and whether a hard tab ended it. -/
structure Cell where
  parts : Array Piece := #[]
  width : Nat := 0
  hard : Bool := false

def Cell.isEmpty (c : Cell) : Bool := c.parts.isEmpty

def Piece.width : Piece → Nat
  | text s | lit s => s.length
  | _ => 0

namespace Columns

def tabWidth : Nat := 8

def padding (textWidth cellWidth : Nat) (useTabs : Bool) : Array Piece :=
  if useTabs then
    let cellWidth := (cellWidth + tabWidth - 1) / tabWidth * tabWidth
    Array.replicate ((cellWidth - textWidth + tabWidth - 1) / tabWidth) (.tab true)
  else if cellWidth > textWidth then #[.text (String.ofList (List.replicate (cellWidth - textWidth) ' '))]
  else #[]

def writeLine (ws : Array Nat) (line : Array Cell) (last : Bool) (out : Array Piece) :
    Array Piece :=
  let (out, _) := line.zipIdx.foldl (fun (acc : Array Piece × Bool) (c, j) =>
    let (out, useTabs) := acc
    if c.isEmpty then
      if h : j < ws.size then (out ++ padding c.width ws[j] useTabs, useTabs) else (out, useTabs)
    else
      let out := out ++ c.parts
      if h : j < ws.size then (out ++ padding c.width ws[j] false, false) else (out, false))
    (out, true)
  if last then out else out.push (.newline false)

def writeLines (lines : Array (Array Cell)) (ws : Array Nat) (l0 l1 : Nat) (out : Array Piece) :
    Array Piece :=
  (List.range' l0 (l1 - l0)).foldl (fun out i =>
    writeLine ws (lines[i]?.getD #[]) (i + 1 = lines.size) out) out

def hasColumn (lines : Array (Array Cell)) (column i : Nat) : Bool :=
  column + 1 < (lines[i]?.getD #[]).size

def blockEnd (lines : Array (Array Cell)) (column l1 : Nat) : Nat → Nat → Nat
  | 0, i => i
  | fuel + 1, i => if i < l1 ∧ hasColumn lines column i then blockEnd lines column l1 fuel (i + 1) else i

def columnWidth (lines : Array (Array Cell)) (column l0 l1 : Nat) : Nat :=
  let cells := (List.range' l0 (l1 - l0)).filterMap fun i => (lines[i]?.getD #[])[column]?
  if cells.all (fun c => c.width = 0 ∧ !c.hard) then 0
  else cells.foldl (fun w c => max w (c.width + 1)) 0

mutual

def format (lines : Array (Array Cell)) : Nat → Array Nat → Nat → Nat → Array Piece → Array Piece
  | 0, ws, l0, l1, out => writeLines lines ws l0 l1 out
  | fuel + 1, ws, l0, l1, out => formatFrom lines fuel ws l0 l0 l1 out (l1 - l0 + 1)

def formatFrom (lines : Array (Array Cell)) (fuel : Nat) (ws : Array Nat) (l0 this l1 : Nat)
    (out : Array Piece) : Nat → Array Piece
  | 0 => writeLines lines ws l0 l1 out
  | steps + 1 =>
    if this ≥ l1 then writeLines lines ws l0 l1 out
    else if !hasColumn lines ws.size this then formatFrom lines fuel ws l0 (this + 1) l1 out steps
    else
      let out := writeLines lines ws l0 this out
      let stop := blockEnd lines ws.size l1 (l1 - this) this
      let width := columnWidth lines ws.size this stop
      let out := format lines fuel (ws.push width) this stop out
      formatFrom lines fuel ws stop (stop + 1) l1 out steps

end

end Columns

/-- The column writer: the lines of the current section, the cell being written, and what is
written so far. -/
structure ColumnWriter where
  lines : Array (Array Cell) := #[#[]]
  cell : Cell := {}
  out : Array Piece := #[]

namespace ColumnWriter

def endCell (w : ColumnWriter) (hard : Bool) : ColumnWriter × Nat :=
  let line := (w.lines.back?.getD #[]).push { w.cell with hard := hard }
  ({ w with lines := w.lines.pop.push line, cell := {} }, line.size)

/-- Write out the section so far. -/
def flush (w : ColumnWriter) : ColumnWriter :=
  let w := if w.cell.isEmpty then w else (w.endCell false).1
  let depth := w.lines.foldl (fun n l => max n l.size) 0
  { lines := #[#[]], cell := {},
    out := Columns.format w.lines (depth + 1) #[] 0 w.lines.size w.out }

/-- Take one piece of printed text. -/
def put (w : ColumnWriter) : Piece → ColumnWriter
  | .tab hard => (w.endCell hard).1
  | .newline ff =>
    let (w, cells) := w.endCell false
    let w := { w with lines := w.lines.push #[] }
    if ff ∨ cells = 1 then w.flush else w
  | p => { w with cell := { w.cell with parts := w.cell.parts.push p,
                                        width := w.cell.width + p.width } }

end ColumnWriter

def trimLines : List Piece → String → String → String
  | [], acc, _ => acc
  | p :: ps, acc, pending =>
    match p with
    | .text s =>
      let (acc, pending) := s.toList.foldl (fun (st : String × String) c =>
        if c = ' ' ∨ c = '\t' then (st.1, st.2.push c) else (st.1 ++ st.2 |>.push c, "")) (acc, pending)
      trimLines ps acc pending
    | .lit s => trimLines ps (acc ++ pending ++ s) ""
    | .tab _ => trimLines ps acc (pending.push '\t')
    | .newline _ => trimLines ps (acc.push '\n') ""

def alignColumns (pieces : Array Piece) : String :=
  let w := (pieces.foldl ColumnWriter.put {}).flush
  trimLines w.out.toList "" ""

def plainText (pieces : Array Piece) : String :=
  trimLines pieces.toList "" ""

end TableSource

end PagedAsm
