import PagedAsm.Assembly.Session
import PagedAsm.Program
import PagedAsm.Syntax.StringLiteral
import PagedAsm.Text.Numeral

/-!
# Typed operands

Each operand of an expanded instruction gets a type: `$n` is a pointer (a numeral after `$`),
a one-character string is an integer (its code point), any other word is an integer numeral,
and a label reference stays a label. Numerals are signed 64-bit with base prefixes. A jump with
an integer operand is legal but gets a warning: its target cannot move with the code.

The typed code is a list of elements: label definitions between instructions.
-/

namespace PagedAsm

/-- A typed operand; labels are still named by their number. -/
inductive Argument where
  | none
  | integer (v : Int)
  | pointer (v : Int)
  | label (id : Nat)
  deriving DecidableEq, Repr

/-- An instruction whose label operands are not yet placed. -/
structure Pending where
  mnemonic : String
  argument : Argument
  line : Nat
  span : Span
  synthetic : Bool := false
  deriving DecidableEq, Repr

/-- A label definition or an instruction of typed code. -/
inductive Element where
  | label (id : Nat)
  | instruction (p : Pending)
  deriving DecidableEq, Repr

namespace Typing

/-- The argument a token operand stands for. -/
def argumentOf (t : Token) : Except Diagnostic Argument :=
  match t.text.toList with
  | '$' :: rest =>
    match parseInt64 (String.ofList rest) with
    | .ok v => .ok (.pointer v)
    | .error _ => .error ((Problem.invalidPointer t.text).atToken t)
  | _ =>
    if StringLiteral.isQuoted t.text then
      match StringLiteral.unquote t.text with
      | .ok v =>
        match v.toList with
        | [c] => .ok (.integer c.toNat)
        | _ => .error ((Problem.expectedCharacter t.text).atToken t)
      | .error _ => .error ((Problem.expectedCharacter t.text).atToken t)
    else match parseInt64 t.text with
      | .ok v => .ok (.integer v)
      | .error _ => .error ((Problem.invalidInteger t.text).atToken t)

/-- Type one instruction; a jump to a fixed number is warned about. -/
def instruction (set : InstructionSet) (mnemonic : Token) (operand : Option Operand) :
    Expand Pending := do
  let span := match operand with
    | some o => mnemonic.span.join o.span
    | none => mnemonic.span
  let argument ← match operand with
    | none => pure Argument.none
    | some (.label l) => pure (Argument.label l.id)
    | some (.token t) =>
      match argumentOf t with
      | .ok a => pure a
      | .error d => throw d
  if let .integer v := argument then
    if set.isJump mnemonic.text then
      Session.warn ⟨.staticJumpTarget v, span, mnemonic.line⟩
  return ⟨mnemonic.text, argument, mnemonic.line, span, false⟩

/-- Type expanded items, in order. -/
def elements (set : InstructionSet) (items : List Item) : Expand (List Element) :=
  items.mapM fun
    | .label l => pure (.label l.id)
    | .instruction m o => do return .instruction (← instruction set m o)

end Typing

end PagedAsm
