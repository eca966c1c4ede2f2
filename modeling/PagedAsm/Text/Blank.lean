import PagedAsm.Text.RangeTable

/-!
# Blank characters

The characters with the Unicode property `White_Space` (Unicode 17.0): the ASCII tab, line
feed, vertical tab, form feed, carriage return and space, the Latin-1 next-line and no-break
space, and the spaces of the higher planes. Declaration files split their lines into fields
at these characters.
-/

namespace PagedAsm

def blankTable : RangeTable where
  ranges := #[
    (0x9, 0xD), (0x20, 0x20), (0x85, 0x85), (0xA0, 0xA0), (0x1680, 0x1680), (0x2000, 0x200A),
    (0x2028, 0x2029), (0x202F, 0x202F), (0x205F, 0x205F), (0x3000, 0x3000)
  ]

def isBlank (c : Char) : Bool :=
  blankTable.contains c

def fieldRuns : List Char → List Char → List (List Char)
  | [], run => if run.isEmpty then [] else [run.reverse]
  | c :: cs, run =>
    if isBlank c then
      if run.isEmpty then fieldRuns cs [] else run.reverse :: fieldRuns cs []
    else fieldRuns cs (c :: run)

def fields (s : String) : List String :=
  (fieldRuns s.toList []).map String.ofList

end PagedAsm
