import PagedAsm.Assembly.Session
import PagedAsm.Syntax.StringLiteral
import PagedAsm.Text.Numeral

/-!
# Loop ranges and string lengths

A `FOR` loop runs over a range written after `IN`:

* `n` runs over `0 .. n-1`; `a..b` over `a .. b-1`, or from `a-1` down to `b` when `a > b`;
* a string runs over the code points of its characters;
* `LEN "text"` runs over `0 .. length-1`;
* `ENUMERATE "text"` gives two variables: the index and the code point of each character.

No loop may run more than 65536 times. `LEN "text"` as an operand is the number of characters
of the string.
-/

namespace PagedAsm

namespace Loop

def unquoteAt (t : Token) : Except Diagnostic String :=
  match StringLiteral.unquote t.text with
  | .ok v => .ok v
  | .error _ => .error ((Problem.expectedString t.text).atToken t)

def lengthOf (constants : Bindings) (keyword : Token) (operand : Node) : Except Diagnostic Nat :=
  match operand with
  | .leaf (.token t) =>
    match constants.apply t with
    | .token t' => do return (← unquoteAt t').length
    | .label _ => .error ((Problem.expectedStringAfter keyword.text).atNode operand)
  | _ => .error ((Problem.expectedStringAfter keyword.text).atNode operand)

def ascending (site : Token) (start stop : Int) : Except Diagnostic (List Int) :=
  if wrapInt64 (stop - start) > maxIterations ∨ wrapInt64 (stop - start) < 0 then
    .error (Problem.rangeTooLong.atToken site)
  else .ok ((List.range (stop - start).toNat).map fun (i : Nat) => start + (i : Int))

def checkCount (site : Token) (n : Nat) : Except Diagnostic Unit :=
  if n > maxIterations then .error (Problem.rangeTooLong.atToken site) else .ok ()

/-- The values of a one-variable range. -/
def rangeValues (constants : Bindings) : List Token → Except Diagnostic (List Int)
  | [] => .ok []
  | head :: rest =>
    if rest.length = 1 ∧ head.text = "LEN" then
      match rest with
      | [operand] => do ascending head 0 (← lengthOf constants head (.leaf (.token operand)))
      | _ => .ok []
    else match rest with
    | second :: _ => .error ((Problem.unexpectedInRange second.text).atToken second)
    | [] =>
      if StringLiteral.isQuoted head.text then do
        let s ← unquoteAt head
        checkCount head s.length
        return s.toList.map fun c => (c.toNat : Int)
      else match Bindings.splitRange? head.text with
        | some (lhs, rhs) =>
          match parseInt64 lhs, parseInt64 rhs with
          | .ok a, .ok b =>
            if a ≤ b then ascending head a b
            else do return (← ascending head b a).reverse
          | _, _ => .error ((Problem.invalidRange head.text).atToken head)
        | none =>
          match parseInt64 head.text with
          | .ok n =>
            if n < 0 then .error ((Problem.invalidRange head.text).atToken head)
            else ascending head 0 n
          | .error _ => .error ((Problem.invalidRange head.text).atToken head)

/-- The values of the loop variables for each iteration, as texts. -/
def iterations (constants : Bindings) (keyword : Token) (arity : Nat) (range : List Token) :
    Except Diagnostic (List (List String)) :=
  match range with
  | [] => .error (Problem.expectedRange.atToken keyword)
  | head :: rest =>
    if head.text = "ENUMERATE" then
      if arity ≠ 2 ∨ rest.length ≠ 1 then .error (Problem.enumerateShape.atToken head)
      else match rest with
        | [s] => do
          let text ← unquoteAt s
          let values := text.toList.zipIdx.map fun (c, i) => [toString i, toString c.toNat]
          checkCount head values.length
          return values
        | _ => .ok []
    else if arity ≠ 1 then .error (Problem.twoVariablesNeedEnumerate.atToken keyword)
    else do
      let ints ← rangeValues constants range
      return ints.map fun i => [toString i]

end Loop

end PagedAsm
