/-!
# Source texts and their positions

A source text is read character by character, but positions are byte offsets: a fault is
reported at a line and a column, both counted from one, the column in bytes. A line starts
after each newline, except that a newline at the very end starts no line, so the end of a
text that ends in a newline is on its last line.
-/

namespace PagedAsm

namespace TableSource

/-- A text prepared for reading: its characters, the byte offset of each followed by the size
of the text, and the offsets at which its lines start. -/
structure Source where
  chars : Array Char
  offsets : Array Nat
  lineStarts : Array Nat

/-- A fault found in a text: its byte offset and what it is. -/
structure Fault where
  offset : Nat
  message : String
  deriving DecidableEq, Repr

namespace Source

def offsetsOf (chars : List Char) : List Nat :=
  (chars.foldl (fun (acc : List Nat × Nat) c => (acc.2 :: acc.1, acc.2 + c.utf8Size))
    ([], 0)) |> fun (before, size) => (size :: before).reverse

/-- Prepare a text for reading. -/
def ofString (text : String) : Source :=
  let chars := text.toList
  let offsets := offsetsOf chars
  let size := text.utf8ByteSize
  let starts := (chars.zip offsets).filterMap fun (c, o) =>
    if c = '\n' ∧ o + 1 < size then some (o + 1) else none
  { chars := chars.toArray, offsets := offsets.toArray, lineStarts := (0 :: starts).toArray }

def size (src : Source) : Nat :=
  src.offsets.back?.getD 0

def offsetAt (src : Source) (i : Nat) : Nat :=
  src.offsets[i]?.getD src.size

def lineStart (src : Source) (o : Nat) : Nat :=
  (src.lineStarts.filter (· ≤ o)).back?.getD 0

def line (src : Source) (o : Nat) : Nat :=
  (src.lineStarts.filter (· ≤ o)).size

def column (src : Source) (o : Nat) : Nat :=
  o - src.lineStart o + 1

def slice (src : Source) (i j : Nat) : String :=
  String.ofList (src.chars.extract i j).toList

end Source

end TableSource

end PagedAsm
