/-!
# Integer numerals

The numerals of operands, ranges and command-line numbers. A numeral is an optional sign, then
either a base prefix (`0b`, `0o`, `0x`, any case) and digits of that base, a leading `0` and
octal digits, or decimal digits. Where the base is read off the numeral, single underscores may
separate digits, or a base prefix from a digit. Digits are read left to right and the first
digit that makes the value leave its range stops the reading with a range failure, before any
later digit is looked at; a misplaced underscore is found only after all digits are read.
-/

namespace PagedAsm

/-- Why a numeral was refused. -/
inductive NumeralError where
  /-- The text is not a numeral of the expected form. -/
  | invalidSyntax
  /-- The numeral is well formed but its value lies outside the range. -/
  | outOfRange
  deriving DecidableEq, Repr

def NumeralError.message : NumeralError → String
  | .invalidSyntax => "invalid syntax"
  | .outOfRange => "value out of range"

def foldCase (c : Char) : Char :=
  Char.ofNat (c.toNat ||| 0x20)

def digitValue? (c : Char) : Option Nat :=
  if '0' ≤ c ∧ c ≤ '9' then some (c.toNat - '0'.toNat)
  else
    let l := foldCase c
    if 'a' ≤ l ∧ l ≤ 'z' then some (l.toNat - 'a'.toNat + 10) else none

/-- Where the base of a numeral comes from. -/
inductive Radix where
  /-- Read the base off the numeral: prefixes, a leading `0` for octal, underscores allowed. -/
  | auto
  /-- A fixed base between 2 and 36; no prefix and no underscore. -/
  | fixed (base : Nat)
  deriving DecidableEq, Repr

def splitPrefix : Radix → List Char → Nat × List Char
  | .fixed b, cs => (b, cs)
  | .auto, '0' :: c :: d :: rest =>
    if foldCase c = 'b' then (2, d :: rest)
    else if foldCase c = 'o' then (8, d :: rest)
    else if foldCase c = 'x' then (16, d :: rest)
    else (8, c :: d :: rest)
  | .auto, '0' :: rest => (8, rest)
  | .auto, cs => (10, cs)

def readDigits (base limit : Nat) (underscores : Bool) :
    Nat → Bool → List Char → Except NumeralError (Nat × Bool)
  | acc, seen, [] => .ok (acc, seen)
  | acc, seen, c :: cs =>
    if c = '_' ∧ underscores then readDigits base limit underscores acc true cs
    else match digitValue? c with
      | none => .error .invalidSyntax
      | some d =>
        if base ≤ d then .error .invalidSyntax
        else if acc * base + d > limit then .error .outOfRange
        else readDigits base limit underscores (acc * base + d) seen cs

/-- The classes of the underscore check: start, digit or prefix, underscore, other. -/
inductive Seen where
  | start | digit | underscore | other
  deriving DecidableEq

def underscoresWalk (hex : Bool) : Seen → List Char → Bool
  | seen, [] => seen != .underscore
  | seen, c :: cs =>
    let l := foldCase c
    if ('0' ≤ c ∧ c ≤ '9') ∨ (hex ∧ 'a' ≤ l ∧ l ≤ 'f') then underscoresWalk hex .digit cs
    else if c = '_' then
      if seen = .digit then underscoresWalk hex .underscore cs else false
    else if seen = .underscore then false
    else underscoresWalk hex .other cs

def underscoresPlaced (s : List Char) : Bool :=
  let body := match s with
    | '+' :: r => r
    | '-' :: r => r
    | r => r
  match body with
  | '0' :: c :: rest =>
    let l := foldCase c
    if l = 'b' ∨ l = 'o' ∨ l = 'x' then underscoresWalk (l = 'x') .digit rest
    else underscoresWalk false .start body
  | _ => underscoresWalk false .start body

def readUnsigned (radix : Radix) (limit : Nat) (s : List Char) : Except NumeralError Nat :=
  if s.isEmpty then .error .invalidSyntax
  else
    let (base, digits) := splitPrefix radix s
    match readDigits base limit (radix = .auto) 0 false digits with
    | .error e => .error e
    | .ok (n, seen) =>
      if seen ∧ ¬ underscoresPlaced s then .error .invalidSyntax else .ok n

def parseNat (radix : Radix) (bits : Nat) (s : String) : Except NumeralError Nat :=
  readUnsigned radix (Nat.pow 2 bits - 1) s.toList

def parseIntBits (bits : Nat) (s : String) : Except NumeralError Int :=
  let cs := s.toList
  let (negative, body) := match cs with
    | '+' :: r => (false, r)
    | '-' :: r => (true, r)
    | r => (false, r)
  let bound := Nat.pow 2 (bits - 1)
  match readUnsigned .auto (Nat.pow 2 bits - 1) body with
  | .error .invalidSyntax => .error .invalidSyntax
  | .error .outOfRange => .error .outOfRange
  | .ok n =>
    if negative then
      if n > bound then .error .outOfRange else .ok (-(n : Int))
    else if n ≥ bound then .error .outOfRange else .ok n

def parseInt64 (s : String) : Except NumeralError Int :=
  parseIntBits 64 s

@[irreducible]
def wrapInt64 (x : Int) : Int :=
  (x + Int.pow 2 63) % Int.pow 2 64 - Int.pow 2 63

end PagedAsm
