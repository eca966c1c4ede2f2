import PagedAsm.Text.Blank

/-!
# Padding and trimming

Texts are padded with spaces to a width counted in characters, on the left for numbers in a
column and on the right for names in a column; trailing white space is trimmed from blocks
of text.
-/

namespace PagedAsm

def padLeft (s : String) (width : Nat) : String :=
  String.ofList (List.replicate (width - s.length) ' ') ++ s

def padRight (s : String) (width : Nat) : String :=
  s ++ String.ofList (List.replicate (width - s.length) ' ')

def trimEnd (s : String) : String :=
  String.ofList (s.toList.reverse.dropWhile isBlank).reverse

end PagedAsm
