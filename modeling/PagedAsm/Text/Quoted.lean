import PagedAsm.Text.Printable
import PagedAsm.Text.Utf8

/-!
# Quoted text

Messages name a value by writing it between double quotes with backslash escapes: the quote
and the backslash get a backslash, printable characters stand as they are, the seven C control
escapes are used where they exist, other characters below U+0020 and U+007F become `\xNN`,
other non-printable characters `\uNNNN` or `\UNNNNNNNN`, and a byte that is not part of a
well-formed UTF-8 sequence becomes `\xNN`. Hex digits are lower case.

A single character is quoted the same way between single quotes, where the single quote gets
the backslash instead of the double quote. A list of texts may also be shown raw between back
quotes, when the text has no back quote, no control character but the tab, and no byte order
mark; otherwise it is quoted.
-/

namespace PagedAsm

def hexDigit (n : Nat) : Char :=
  "0123456789abcdef".toList.getD (n % 16) '0'

def hexDigits (width n : Nat) : List Char :=
  (List.range width).reverse.map fun i => hexDigit (n / Nat.pow 16 i)

/-- The escaped form of one character between quotes `mark`. -/
def escapeCharWithin (mark c : Char) : List Char :=
  if c = mark ∨ c = '\\' then ['\\', c]
  else if isPrintable c then [c]
  else match c with
    | '\x07' => ['\\', 'a']
    | '\x08' => ['\\', 'b']
    | '\x0c' => ['\\', 'f']
    | '\n' => ['\\', 'n']
    | '\r' => ['\\', 'r']
    | '\t' => ['\\', 't']
    | '\x0b' => ['\\', 'v']
    | _ =>
      if c.toNat < 0x20 ∨ c.toNat = 0x7F then ['\\', 'x'] ++ hexDigits 2 c.toNat
      else if c.toNat < 0x10000 then ['\\', 'u'] ++ hexDigits 4 c.toNat
      else ['\\', 'U'] ++ hexDigits 8 c.toNat

def escapeChar (c : Char) : List Char :=
  escapeCharWithin '"' c

def escapeBytes : List UInt8 → List Char
  | [] => []
  | b0 :: bs =>
    if b0 < 0x80 then escapeChar (Char.ofNat b0.toNat) ++ escapeBytes bs
    else match sequence? b0 bs with
      | some (c, n) => escapeChar c ++ escapeBytes (bs.drop n)
      | none => ['\\', 'x'] ++ hexDigits 2 b0.toNat ++ escapeBytes bs
termination_by bs => bs.length
decreasing_by all_goals (simp only [List.length_drop, List.length_cons]; omega)

def quoteBytes (bs : List UInt8) : String :=
  String.ofList ('"' :: escapeBytes bs ++ ['"'])

def quote (s : String) : String :=
  quoteBytes s.toUTF8.toList

def quoteChar (c : Char) : String :=
  String.ofList ('\'' :: escapeCharWithin '\'' c ++ ['\''])

def backQuote : Char := '\x60'

def rawQuotable (s : String) : Bool :=
  s.toList.all fun c =>
    c ≠ backQuote ∧ c ≠ '\uFEFF' ∧ (c = '\t' ∨ (c.toNat ≥ 0x20 ∧ c.toNat ≠ 0x7F))

def quoteRaw (s : String) : String :=
  if rawQuotable s then String.ofList (backQuote :: s.toList ++ [backQuote]) else quote s

def quoteRawList (ss : List String) : String :=
  "[" ++ " ".intercalate (ss.map quoteRaw) ++ "]"

end PagedAsm
