import PagedAsm.Limits
import PagedAsm.Source.Span

/-!
# Diagnostics

A diagnostic is a problem found in a source text, with the span and line where it was found.
Each problem is one constructor of `Problem`; `Problem.kind` sorts them into the seven kinds of
diagnostic and `Problem.message` gives their text. A diagnostic reads
`line N: kind: message`, or `kind: message` when no line is known (line 0).
-/

namespace PagedAsm

/-- The seven kinds of diagnostic, numbered 0 to 6. -/
inductive DiagnosticKind where
  | malformed | name | type | value | recursion | internal | warning
  deriving DecidableEq, Repr

namespace DiagnosticKind

/-- The name of a kind as it appears in diagnostics. -/
def text : DiagnosticKind → String
  | .malformed => "syntax error"
  | .name => "name error"
  | .type => "type error"
  | .value => "value error"
  | .recursion => "recursion error"
  | .internal => "internal error"
  | .warning => "warning"

def ofCode? : Nat → Option DiagnosticKind
  | 0 => some .malformed
  | 1 => some .name
  | 2 => some .type
  | 3 => some .value
  | 4 => some .recursion
  | 5 => some .internal
  | 6 => some .warning
  | _ => none

def textOfCode (n : Nat) : String :=
  match ofCode? n with
  | some k => k.text
  | none => "unknown error"

end DiagnosticKind

/-- What went wrong, or what deserves a warning. Texts of source nodes are kept as written. -/
inductive Problem where
  -- reading the text
  | unterminatedString
  | unexpectedBracket (text : String)
  | unmatched (opener found : String)
  | unclosed (opener : String)
  -- macro definitions
  | expectedMacroName
  | expectedMacroArguments (name : String)
  | expectedMacroBody (name : String)
  | invalidParameter (param name : String)
  | duplicateParameter (param name : String)
  -- labels and statements
  | invalidLabelName (name : String)
  | unexpectedLabelReference (text : String)
  | unexpectedLabelDefinition (text : String)
  | unexpectedBracketInOperand (opener : String)
  | unexpectedInOperand (word : String)
  | unexpectedKeyword (word : String)
  | tooManyOperands (mnemonic : String)
  | expectedStringAfter (keyword : String)
  | expectedString (text : String)
  | macroArgumentsNotTokens
  | undefinedMacro (name : String)
  | undefinedSymbol (name : String)
  | undefinedLabel (name : String)
  | noOverload (name : String) (arity : Nat)
  | depthExceeded (maxDepth : Nat)
  -- loops
  | expectedIn
  | invalidLoopVariable (name : String)
  | loopVariableCount
  | invalidRangeItem (text : String)
  | expectedLoopBody
  | expectedRange
  | enumerateShape
  | twoVariablesNeedEnumerate
  | unexpectedInRange (text : String)
  | invalidRange (text : String)
  | rangeTooLong
  -- other keywords
  | expectedConstantName
  | invalidConstantName (text : String)
  | assignShape
  | includeShape
  | invalidPackageName (text : String)
  | emptyPackageName
  | writeShape
  | expectedPointer (text : String)
  | invalidPointer (text : String)
  -- operands and layout
  | invalidInteger (text : String)
  | expectedCharacter (text : String)
  | programTooLarge
  | addressTooLarge (address : Int)
  | pagingDiverged
  | noOpcode (mnemonic : String)
  -- warnings
  | macroRedefined (signature : String)
  | macroShadowedByInstruction (signature name : String)
  | macroShadowedByKeyword (signature name : String)
  | labelRedefined (name : String)
  | constantReassigned (name : String)
  | packageAlreadyIncluded (name : String)
  | unknownPackage (name : String)
  | staticJumpTarget (value : Int)
  deriving DecidableEq, Repr

namespace Problem

/-- The kind of diagnostic a problem gives. -/
def kind : Problem → DiagnosticKind
  | .unterminatedString | .unexpectedBracket _ | .unmatched _ _ | .unclosed _
  | .expectedMacroName | .expectedMacroArguments _ | .expectedMacroBody _
  | .invalidParameter _ _ | .duplicateParameter _ _ | .invalidLabelName _
  | .unexpectedLabelReference _ | .unexpectedLabelDefinition _
  | .unexpectedBracketInOperand _ | .unexpectedInOperand _ | .unexpectedKeyword _
  | .tooManyOperands _ | .expectedStringAfter _ | .expectedString _
  | .macroArgumentsNotTokens | .expectedIn | .invalidLoopVariable _ | .loopVariableCount
  | .invalidRangeItem _ | .expectedLoopBody | .expectedRange | .enumerateShape
  | .twoVariablesNeedEnumerate | .unexpectedInRange _ | .expectedConstantName
  | .invalidConstantName _ | .assignShape | .includeShape | .invalidPackageName _
  | .emptyPackageName | .writeShape | .expectedPointer _ => .malformed
  | .undefinedMacro _ | .undefinedSymbol _ | .undefinedLabel _ => .name
  | .noOverload _ _ => .type
  | .invalidRange _ | .rangeTooLong | .invalidPointer _ | .invalidInteger _
  | .expectedCharacter _ | .programTooLarge | .addressTooLarge _ => .value
  | .depthExceeded _ => .recursion
  | .pagingDiverged | .noOpcode _ => .internal
  | .macroRedefined _ | .macroShadowedByInstruction _ _ | .macroShadowedByKeyword _ _
  | .labelRedefined _ | .constantReassigned _ | .packageAlreadyIncluded _
  | .unknownPackage _ | .staticJumpTarget _ => .warning

/-- The text of a problem. -/
def message : Problem → String
  | .unterminatedString => "unterminated string"
  | .unexpectedBracket t => "unexpected \"" ++ t ++ "\""
  | .unmatched o f => "unmatched \"" ++ o ++ "\" (found \"" ++ f ++ "\")"
  | .unclosed o => "unclosed \"" ++ o ++ "\""
  | .expectedMacroName => "expected macro name"
  | .expectedMacroArguments n => "expected \"(\" after macro " ++ n
  | .expectedMacroBody n => "expected \"\x7b\" for body of macro " ++ n
  | .invalidParameter p n => "invalid parameter " ++ p ++ " for macro " ++ n
  | .duplicateParameter p n => "duplicate parameter " ++ p ++ " for macro " ++ n
  | .invalidLabelName n => "invalid label name \"" ++ n ++ "\""
  | .unexpectedLabelReference t => "unexpected label reference " ++ t
  | .unexpectedLabelDefinition t => "unexpected label definition " ++ t
  | .unexpectedBracketInOperand o => "unexpected \"" ++ o ++ "\" in operand"
  | .unexpectedInOperand w => "unexpected " ++ w ++ " in operand"
  | .unexpectedKeyword w => "unexpected " ++ w
  | .tooManyOperands m => "too many operands for " ++ m
  | .expectedStringAfter k => "expected string after " ++ k
  | .expectedString t => "expected string, found " ++ t
  | .macroArgumentsNotTokens => "macro arguments must be single tokens"
  | .undefinedMacro n => "undefined macro " ++ n
  | .undefinedSymbol n => "undefined instruction or symbol " ++ n
  | .undefinedLabel n => "undefined label " ++ n
  | .noOverload n k => "no overload of macro " ++ n ++ " takes " ++ toString k ++ " argument(s)"
  | .depthExceeded d => "maximum expansion depth (" ++ toString d ++ ") exceeded"
  | .expectedIn => "expected IN in FOR loop"
  | .invalidLoopVariable n => "invalid loop variable " ++ n
  | .loopVariableCount => "FOR loop requires one or two variables"
  | .invalidRangeItem t => "invalid range " ++ t
  | .expectedLoopBody => "expected \"\x7b\" for body of FOR loop"
  | .expectedRange => "expected range for FOR loop"
  | .enumerateShape => "ENUMERATE requires two variables and a string"
  | .twoVariablesNeedEnumerate => "FOR loop over two variables requires ENUMERATE"
  | .unexpectedInRange t => "unexpected " ++ t ++ " in range"
  | .invalidRange t => "invalid range " ++ t
  | .rangeTooLong => "range exceeds " ++ toString maxIterations ++ " iterations"
  | .expectedConstantName => "expected constant name"
  | .invalidConstantName t => "invalid constant name " ++ t
  | .assignShape => "ASSIGN expects a name and exactly one value"
  | .includeShape => "INCLUDE expects a package name"
  | .invalidPackageName t => "invalid package name " ++ t
  | .emptyPackageName => "empty package name"
  | .writeShape => "__WRITE_STR__ expects a pointer and a string"
  | .expectedPointer t => "expected pointer, found " ++ t
  | .invalidPointer t => "invalid pointer " ++ t
  | .invalidInteger t => "invalid integer " ++ t
  | .expectedCharacter t => "expected single character, found " ++ t
  | .programTooLarge => "program exceeds " ++ toString maxInstructions ++ " instructions"
  | .addressTooLarge a => "address " ++ toString a ++ " exceeds 64 KiB"
  | .pagingDiverged => "page fixup failed to converge"
  | .noOpcode m => "no opcode for " ++ m
  | .macroRedefined s => "macro " ++ s ++ " redefined"
  | .macroShadowedByInstruction s n => "macro " ++ s ++ " is shadowed by instruction " ++ n
  | .macroShadowedByKeyword s n => "macro " ++ s ++ " is shadowed by keyword " ++ n
  | .labelRedefined n => "label " ++ n ++ " redefined"
  | .constantReassigned n => "constant " ++ n ++ " reassigned"
  | .packageAlreadyIncluded n => "package " ++ n ++ " already included"
  | .unknownPackage n => "unknown package " ++ n
  | .staticJumpTarget v => "static jump target " ++ toString v

end Problem

def diagnosticText (kind : String) (line : Int) (message : String) : String :=
  if line = 0 then kind ++ ": " ++ message
  else "line " ++ toString line ++ ": " ++ kind ++ ": " ++ message

/-- A problem found at a span of the source, on a line counted from 1 (0 when unknown). -/
structure Diagnostic where
  problem : Problem
  span : Span
  line : Nat
  deriving DecidableEq, Repr

namespace Diagnostic

/-- The kind of the diagnostic. -/
def kind (d : Diagnostic) : DiagnosticKind := d.problem.kind

/-- The message of the diagnostic, without line and kind. -/
def message (d : Diagnostic) : String := d.problem.message

/-- The full text of the diagnostic. -/
def text (d : Diagnostic) : String :=
  diagnosticText d.kind.text d.line d.message

end Diagnostic

end PagedAsm
