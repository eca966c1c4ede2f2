/-!
# String literals

A word is a string literal when it has at least two characters and starts and ends with `"`.
Its value is the text between the quotes with the escapes `\n`, `\t`, `\r`, `\0`, `\\`, `\"`
and `\'` decoded. Any other backslash stays as it is, with the character after it, and a
backslash at the very end stays too.
-/

namespace PagedAsm

namespace StringLiteral

def isQuoted (text : String) : Bool :=
  let cs := text.toList
  2 ≤ cs.length && cs.head? == some '"' && cs.getLast? == some '"'

def escaped? : Char → Option Char
  | 'n' => some '\n'
  | 't' => some '\t'
  | 'r' => some '\r'
  | '0' => some '\x00'
  | '\\' => some '\\'
  | '"' => some '"'
  | '\'' => some '\''
  | _ => none

def decodeEscapes : List Char → List Char
  | [] => []
  | '\\' :: c :: rest =>
    match escaped? c with
    | some e => e :: decodeEscapes rest
    | none => '\\' :: c :: decodeEscapes rest
  | c :: rest => c :: decodeEscapes rest

/-- The value of a string literal, or the reason it is none. -/
def unquote (text : String) : Except String String :=
  if isQuoted text then
    .ok (String.ofList (decodeEscapes (text.toList.drop 1).dropLast))
  else .error ("expected string literal, found " ++ text)

end StringLiteral

end PagedAsm
