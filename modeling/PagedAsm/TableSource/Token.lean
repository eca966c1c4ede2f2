/-!
# Tokens of the table source

The generated table is a source file of a C-like language with automatic semicolons. Its
tokens are the end of the input, illegal characters, comments, five kinds of literal (names,
integers, floating-point and imaginary numbers, characters, strings), the operators and
delimiters, and twenty-five keywords. Each token has a spelling, used in messages, and binary
operators a precedence from 1 (`||`) to 5 (`*` and its kin).
-/

namespace PagedAsm

namespace TableSource

/-- The kinds of token. -/
inductive Token where
  | illegal | eof | comment
  | ident | int | float | imag | char | string
  | add | sub | mul | quo | rem | and | or | xor | shl | shr | andNot
  | addAssign | subAssign | mulAssign | quoAssign | remAssign
  | andAssign | orAssign | xorAssign | shlAssign | shrAssign | andNotAssign
  | land | lor | arrow | inc | dec
  | eql | lss | gtr | assign | not | neq | leq | geq | define | ellipsis
  | lparen | lbrack | lbrace | comma | period | rparen | rbrack | rbrace | semicolon | colon
  | breakKw | caseKw | chanKw | constKw | continueKw | defaultKw | deferKw | elseKw
  | fallthroughKw | forKw | funcKw | goKw | gotoKw | ifKw | importKw | interfaceKw | mapKw
  | packageKw | rangeKw | returnKw | selectKw | structKw | switchKw | typeKw | varKw
  | tilde
  deriving DecidableEq, Repr, Inhabited

namespace Token

/-- How a token is spelled in messages: literal kinds by their upper-case names, the others
as written. -/
def text : Token → String
  | illegal => "ILLEGAL" | eof => "EOF" | comment => "COMMENT"
  | ident => "IDENT" | int => "INT" | float => "FLOAT" | imag => "IMAG" | char => "CHAR"
  | string => "STRING"
  | add => "+" | sub => "-" | mul => "*" | quo => "/" | rem => "%"
  | and => "&" | or => "|" | xor => "^" | shl => "<<" | shr => ">>" | andNot => "&^"
  | addAssign => "+=" | subAssign => "-=" | mulAssign => "*=" | quoAssign => "/="
  | remAssign => "%=" | andAssign => "&=" | orAssign => "|=" | xorAssign => "^="
  | shlAssign => "<<=" | shrAssign => ">>=" | andNotAssign => "&^="
  | land => "&&" | lor => "||" | arrow => "<-" | inc => "++" | dec => "--"
  | eql => "==" | lss => "<" | gtr => ">" | assign => "=" | not => "!"
  | neq => "!=" | leq => "<=" | geq => ">=" | define => ":=" | ellipsis => "..."
  | lparen => "(" | lbrack => "[" | lbrace => "\x7b" | comma => "," | period => "."
  | rparen => ")" | rbrack => "]" | rbrace => "\x7d" | semicolon => ";" | colon => ":"
  | breakKw => "break" | caseKw => "case" | chanKw => "chan" | constKw => "const"
  | continueKw => "continue" | defaultKw => "default" | deferKw => "defer"
  | elseKw => "else" | fallthroughKw => "fallthrough" | forKw => "for" | funcKw => "func"
  | goKw => "go" | gotoKw => "goto" | ifKw => "if" | importKw => "import"
  | interfaceKw => "interface" | mapKw => "map" | packageKw => "package"
  | rangeKw => "range" | returnKw => "return" | selectKw => "select"
  | structKw => "struct" | switchKw => "switch" | typeKw => "type" | varKw => "var"
  | tilde => "~"

/-- The keywords, each with its spelling. -/
def keywords : List Token :=
  [breakKw, caseKw, chanKw, constKw, continueKw, defaultKw, deferKw, elseKw, fallthroughKw,
    forKw, funcKw, goKw, gotoKw, ifKw, importKw, interfaceKw, mapKw, packageKw, rangeKw,
    returnKw, selectKw, structKw, switchKw, typeKw, varKw]

def ofWord (w : String) : Token :=
  (keywords.find? (·.text == w)).getD ident

def isLiteral : Token → Bool
  | ident | int | float | imag | char | string => true
  | _ => false

/-- The binding strength of a binary operator; 0 for other tokens. -/
def precedence : Token → Nat
  | lor => 1
  | land => 2
  | eql | neq | lss | leq | gtr | geq => 3
  | add | sub | or | xor => 4
  | mul | quo | rem | shl | shr | and | andNot => 5
  | _ => 0

def isAssignment : Token → Bool
  | define | assign | addAssign | subAssign | mulAssign | quoAssign | remAssign
  | andAssign | orAssign | xorAssign | shlAssign | shrAssign | andNotAssign => true
  | _ => false

/-- Statement keywords at which the reader may resume after an error. -/
def startsStatement : Token → Bool
  | breakKw | constKw | continueKw | deferKw | fallthroughKw | forKw | goKw | gotoKw
  | ifKw | returnKw | selectKw | switchKw | typeKw | varKw => true
  | _ => false

def startsDeclaration : Token → Bool
  | importKw | constKw | typeKw | varKw => true
  | _ => false

def endsExpression : Token → Bool
  | comma | colon | semicolon | rparen | rbrack | rbrace => true
  | _ => false

def startsSimpleStatement : Token → Bool
  | ident | int | float | imag | char | string | funcKw | lparen
  | lbrack | structKw | mapKw | chanKw | interfaceKw
  | add | sub | mul | and | xor | arrow | not => true
  | _ => false

end Token

end TableSource

end PagedAsm
