import PagedAsm.Text.Numeral
import PagedAsm.Text.Quoted

/-!
# Flags

A flag has a long name, perhaps a one-letter short name, a usage text and a default value. Its
value is a switch, a 64-bit unsigned number, a text, or a list of texts that grows by one at
each use.

Arguments are read left to right. A lone `--` ends the flags: every argument after it is
positional. An argument that is empty, is `-`, or does not start with `-` is positional.

* `--name=value` and `--name value` set a flag; a switch may stand alone and is then on.
* `-abc` is a group of short names. A switch takes no value; another flag takes `=value`, the
  rest of the group, or the next argument.

A value is read by the flag's kind: switches take `1 t T TRUE true True` and `0 f F FALSE false
False`, numbers are unsigned numerals with base prefixes.
-/

namespace PagedAsm

/-- The value of a flag. -/
inductive FlagValue where
  | switch (on : Bool)
  | number (n : Nat)
  | text (s : String)
  | texts (ss : List String)
  deriving DecidableEq, Repr

namespace FlagValue

def kindName : FlagValue → String
  | .switch _ => "bool"
  | .number _ => "uint"
  | .text _ => "string"
  | .texts _ => "stringArray"

def placeholder (v : FlagValue) : String :=
  if v.kindName = "bool" then "" else v.kindName

def implied : FlagValue → Option String
  | .switch _ => some "true"
  | _ => none

/-- The text of a value. -/
def display : FlagValue → String
  | .switch b => if b then "true" else "false"
  | .number n => toString n
  | .text s => s
  | .texts ss => "[" ++ ",".intercalate ss ++ "]"

def isZero : FlagValue → Bool
  | .switch b => !b
  | .number n => n == 0
  | .text s => s.isEmpty
  | .texts ss => ss.isEmpty

def shownDefault : FlagValue → String
  | .text s => quote s
  | v => v.display

end FlagValue

def readSwitch (s : String) : Option Bool :=
  if ["1", "t", "T", "TRUE", "true", "True"].contains s then some true
  else if ["0", "f", "F", "FALSE", "false", "False"].contains s then some false
  else none

/-- A flag: its long name, short name, usage text and default value. -/
structure Flag where
  name : String
  short : Option Char := none
  usage : String
  default : FlagValue
  deriving DecidableEq, Repr

namespace Flag

def title (f : Flag) : String :=
  match f.short with
  | some c => "-" ++ c.toString ++ ", --" ++ f.name
  | none => "--" ++ f.name

/-- The value after giving the text `s`, where `current` is the value given before, if any. A
list of texts starts afresh at its first use and then grows. -/
def read (f : Flag) (current : Option FlagValue) (s : String) : Except String FlagValue :=
  match f.default with
  | .switch _ =>
    match readSwitch s with
    | some b => .ok (.switch b)
    | none => .error ("strconv.ParseBool: parsing " ++ quote s ++ ": invalid syntax")
  | .number _ =>
    match parseNat .auto 64 s with
    | .ok n => .ok (.number n)
    | .error e => .error ("strconv.ParseUint: parsing " ++ quote s ++ ": " ++ e.message)
  | .text _ => .ok (.text s)
  | .texts _ =>
    match current with
    | some (.texts ss) => .ok (.texts (ss ++ [s]))
    | _ => .ok (.texts [s])

def help (name : String) : Flag :=
  ⟨"help", some 'h', "help for " ++ name, .switch false⟩

/-- The first line part of a flag's usage: its names and placeholder. -/
def head (f : Flag) : String :=
  let names := match f.short with
    | some c => "  -" ++ c.toString ++ ", --" ++ f.name
    | none => "      --" ++ f.name
  let p := f.default.placeholder
  if p.isEmpty then names else names ++ " " ++ p

def tail (f : Flag) : String :=
  if f.default.isZero then f.usage else f.usage ++ " (default " ++ f.default.shownDefault ++ ")"

end Flag

def flagBlock (fs : List Flag) : String :=
  let sorted := fs.mergeSort fun a b => a.name ≤ b.name
  let width := (sorted.map fun f => f.head.length).foldl max 0 + 1
  String.join (sorted.map fun f =>
    f.head ++ " " ++ String.ofList (List.replicate (width - f.head.length) ' ') ++ " " ++
      f.tail ++ "\n")

/-- Why the flags of a command line were refused. -/
inductive FlagError where
  | badSyntax (arg : String)
  | unknown (name : String)
  | unknownShort (c : Char) (group : String)
  | needsValue (arg : String)
  | needsValueShort (c : Char) (group : String)
  | invalid (value title reason : String)
  deriving DecidableEq, Repr

/-- The message of a refusal. -/
def FlagError.message : FlagError → String
  | .badSyntax a => "bad flag syntax: " ++ a
  | .unknown n => "unknown flag: --" ++ n
  | .unknownShort c g => "unknown shorthand flag: " ++ quoteChar c ++ " in -" ++ g
  | .needsValue a => "flag needs an argument: " ++ a
  | .needsValueShort c g => "flag needs an argument: " ++ quoteChar c ++ " in -" ++ g
  | .invalid v t r => "invalid argument " ++ quote v ++ " for " ++ quote t ++ " flag: " ++ r

def leadByte (c : Char) : Char :=
  Char.ofNat ((String.singleton c).toUTF8.toList.headD 0).toNat

/-- The flags given on a command line, latest value per name, and the positional arguments. -/
structure Parsed where
  given : List (String × FlagValue) := []
  args : List String := []
  deriving DecidableEq, Repr

namespace Parsed

def find? (p : Parsed) (name : String) : Option FlagValue :=
  p.given.lookup name

/-- Give flag `f` the text `s`. -/
def give (p : Parsed) (f : Flag) (s : String) : Except FlagError Parsed :=
  match f.read (p.find? f.name) s with
  | .ok v => .ok { p with given := (f.name, v) :: p.given.filter (·.1 ≠ f.name) }
  | .error r => .error (.invalid s f.title r)

/-- The value of flag `f`: given or default. -/
def value (p : Parsed) (f : Flag) : FlagValue :=
  (p.find? f.name).getD f.default

/-- Whether the switch `name` is on. -/
def isOn (p : Parsed) (name : String) : Bool :=
  match p.find? name with
  | some (.switch b) => b
  | _ => false

def numberOr (p : Parsed) (name : String) (fallback : Nat) : Nat :=
  match p.find? name with
  | some (.number n) => n
  | _ => fallback

def textOr (p : Parsed) (name : String) : String :=
  match p.find? name with
  | some (.text s) => s
  | _ => ""

def textsOf (p : Parsed) (name : String) : List String :=
  match p.find? name with
  | some (.texts ss) => ss
  | _ => []

end Parsed

namespace FlagParse

def byName (flags : List Flag) (name : String) : Option Flag :=
  flags.find? (·.name = name)

def byShort (flags : List Flag) (c : Char) : Option Flag :=
  flags.find? (·.short = some c)

/-- Read a long flag `--body` where `next` are the arguments after it. Returns whether the
next argument was taken as the value. -/
def long (flags : List Flag) (p : Parsed) (arg body : String) (next : List String) :
    Except FlagError (Parsed × Bool) :=
  match body.toList with
  | [] => .error (.badSyntax arg)
  | c :: _ =>
    if c = '-' ∨ c = '=' then .error (.badSyntax arg)
    else
      let name := String.ofList (body.toList.takeWhile (· ≠ '='))
      let inline := match body.toList.dropWhile (· ≠ '=') with
        | _ :: v => some (String.ofList v)
        | [] => none
      match byName flags name with
      | none => .error (.unknown name)
      | some f =>
        match inline, f.default.implied, next with
        | some v, _, _ => do return (← p.give f v, false)
        | none, some v, _ => do return (← p.give f v, false)
        | none, none, v :: _ => do return (← p.give f v, true)
        | none, none, [] => .error (.needsValue arg)

/-- Read a group of short names `shorts` where `next` are the arguments after the group.
Returns whether the next argument was taken as a value. -/
def group (flags : List Flag) (p : Parsed) (next : List String) :
    List Char → Except FlagError (Parsed × Bool)
  | [] => .ok (p, false)
  | c :: more =>
    if "test.".toList.isPrefixOf (c :: more) then .ok (p, false)
    else
      match byShort flags c with
      | none => .error (.unknownShort (leadByte c) (String.ofList (c :: more)))
      | some f =>
        match more with
        | '=' :: v@(_ :: _) => do return (← p.give f (String.ofList v), false)
        | _ =>
          match f.default.implied with
          | some v => do group flags (← p.give f v) next more
          | none =>
            if more.isEmpty then
              match next with
              | v :: _ => do return (← p.give f v, true)
              | [] => .error (.needsValueShort c (String.ofList (c :: more)))
            else do return (← p.give f (String.ofList more), false)

end FlagParse

def parseFlagsOnto (flags : List Flag) (p : Parsed) : List String → Except FlagError Parsed
  | [] => .ok p
  | s :: rest =>
    match s.toList with
    | '-' :: '-' :: [] => .ok { p with args := p.args ++ rest }
    | '-' :: '-' :: body => do
      let (p, took) ← FlagParse.long flags p s (String.ofList body) rest
      parseFlagsOnto flags p (rest.drop (if took then 1 else 0))
    | '-' :: c :: more => do
      let (p, took) ← FlagParse.group flags p rest (c :: more)
      parseFlagsOnto flags p (rest.drop (if took then 1 else 0))
    | _ => parseFlagsOnto flags { p with args := p.args ++ [s] } rest
termination_by args => args.length
decreasing_by all_goals (simp only [List.length_drop, List.length_cons]; omega)

def parseFlags (flags : List Flag) (args : List String) : Except FlagError Parsed :=
  parseFlagsOnto flags {} args

end PagedAsm
