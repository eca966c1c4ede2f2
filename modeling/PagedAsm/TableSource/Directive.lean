import PagedAsm.Files.Path

/-!
# Line directives

A comment `//line FILE:LINE` at the start of a line, or `/*line FILE:LINE*/` anywhere, says
that the text after it comes from line `LINE` of `FILE`; a third number, `FILE:LINE:COLUMN`,
also gives the column of the first character after the comment. Positions after such a mark
are reported as the mark says: the line counts on from `LINE`, the column counts on from
`COLUMN` on the line of the mark and is as it is on later lines, and without a column the
columns are unknown from the mark on.

The numbers are read from the right, so that a file name may hold colons. A text after `line `
without a colon is no directive at all; a last part that is not a decimal number of at most 64
bits, or a number that is 0 or above 2^30, is a fault. Numbers from 2^63 on wrap around to
negative values as machine integers do, and so pass the bound.
-/

namespace PagedAsm

namespace TableSource

/-- What a comment that starts with `line ` says. -/
inductive Directive where
  /-- No directive: the text has no colon. -/
  | none
  /-- A malformed number, at a byte index of the text after `line `. -/
  | fault (index : Nat) (message : String)
  /-- A file (possibly empty), a line, and a column, which is 0 when none is written. -/
  | mark (file : String) (line column : Int)
  deriving DecidableEq, Repr

namespace Directive

def byteSize (cs : List Char) : Nat :=
  cs.foldl (fun n c => n + c.utf8Size) 0

def wordValue (ds : List Char) : Option Int :=
  if ds.isEmpty ∨ !ds.all (fun c => '0' ≤ c ∧ c ≤ '9') then Option.none
  else
    let v : Nat := ds.foldl (fun n c => n * 10 + (c.toNat - 48)) 0
    if v ≥ Nat.pow 2 64 then Option.none
    else if v ≥ Nat.pow 2 63 then some ((v : Int) - Int.pow 2 64)
    else some v

def splitLastColon (cs : List Char) : Option (List Char × Nat × List Char) :=
  let rev := cs.reverse
  match rev.findIdx? (· = ':') with
  | Option.none => Option.none
  | some k =>
    let before := (rev.drop (k + 1)).reverse
    some (before, byteSize before + 1, (rev.take k).reverse)

def limit : Int := Int.pow 2 30

def fits (n : Int) : Bool :=
  n ≠ 0 ∧ n ≤ limit

/-- Read the text of a directive after `line ` (and before `*/`). -/
def read (text : List Char) : Directive :=
  match splitLastColon text with
  | Option.none => .none
  | some (before, i, after) =>
    match wordValue after with
    | Option.none => .fault i ("invalid line number: " ++ String.ofList after)
    | some n =>
      let lineOnly : Directive :=
        if fits n then .mark (String.ofList before) n 0
        else .fault i ("invalid line number: " ++ String.ofList after)
      match splitLastColon before with
      | some (file, i2, lineDigits) =>
        match wordValue lineDigits with
        | some line =>
          if !fits n then .fault i ("invalid column number: " ++ String.ofList after)
          else if !fits line then
            .fault i2 ("invalid line number: " ++ String.ofList lineDigits)
          else .mark (String.ofList file) line n
        | Option.none => lineOnly
      | Option.none => lineOnly

end Directive

/-- A mark left by a directive: from byte `offset` on, the text comes from `line` and `column`
of `file`; column 0 means the columns are unknown. -/
structure LineMark where
  offset : Nat
  file : String
  line : Int
  column : Int
  deriving DecidableEq, Repr

/-- A position as reported: a file, a line and a column. A line below 1 is unknown, and so is
column 0. -/
structure Position where
  file : String
  line : Int
  column : Int
  deriving DecidableEq, Repr

namespace Position

/-- The text of a position: `FILE:LINE:COLUMN`, without the column when it is unknown, only
the file when the line is unknown, and `-` when that leaves nothing. -/
def text (p : Position) : String :=
  let s :=
    if p.line > 0 then
      (if p.file.isEmpty then "" else p.file ++ ":") ++ toString p.line ++
        (if p.column ≠ 0 then ":" ++ toString p.column else "")
    else p.file
  if s.isEmpty then "-" else s

def report (p : Position) (message : String) : String :=
  if !p.file.isEmpty ∨ p.line > 0 then p.text ++ ": " ++ message else message

/-- The order of reports: by file, line, column, then message. -/
def before (a b : Position × String) : Bool :=
  if a.1.file ≠ b.1.file then decide (a.1.file < b.1.file)
  else if a.1.line ≠ b.1.line then decide (a.1.line < b.1.line)
  else if a.1.column ≠ b.1.column then decide (a.1.column < b.1.column)
  else decide (a.2 ≤ b.2)

end Position

end TableSource

end PagedAsm
