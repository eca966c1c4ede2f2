import PagedAsm.CommandLine.Flag
import PagedAsm.Text.Pad

/-!
# Commands and their help

A command line is a tree of commands. Each command has a name, a use line, a short and a long
description, its own flags, flags that its subcommands inherit, and perhaps an action; a
command without an action only groups its subcommands.

A command's usage text lists, in this order and each only when it has something to show: the
use lines, the available subcommands with their short descriptions, the command's own flags,
the flags it inherits, and a pointer to the subcommands' help. A subcommand is available when
it has an action or available subcommands of its own; the `help` command is listed but not
counted as available. Its help text is the long description, or the short one, followed by
the usage text. The flag `-h, --help` belongs to a command once the command is run or its help
is shown.
-/

namespace PagedAsm

/-- How a command checks its positional arguments. -/
inductive ArgsRule where
  /-- Any arguments; the top command, when it has subcommands, refuses a word that names
  none of them. -/
  | free
  /-- No positional argument. -/
  | empty
  deriving DecidableEq, Repr

/-- A command of a command line, with actions of type `α`. -/
structure Command (α : Type) where
  name : String
  use : String
  short : String
  long : String := ""
  flags : List Flag := []
  persistent : List Flag := []
  action : Option α := none
  argsRule : ArgsRule := .free
  flagsInUseLine : Bool := true
  children : List (Command α) := []

/-- What a finished run prints and its exit status. -/
structure Outcome where
  stdout : String := ""
  stderr : String := ""
  exit : Nat := 0
  deriving DecidableEq, Repr

namespace Command

variable {α : Type}

mutual

def offered : Command α → Bool
  | ⟨_, _, _, _, _, _, action, _, _, children⟩ => action.isSome || offeredAmong children

def offeredAmong : List (Command α) → Bool
  | [] => false
  | c :: cs => (c.name != "help" && offered c) || offeredAmong cs

end

def runnable (c : Command α) : Bool :=
  c.action.isSome

def hasOffered (c : Command α) : Bool :=
  offeredAmong c.children

def sortedChildren (c : Command α) : List (Command α) :=
  c.children.mergeSort fun a b => a.name ≤ b.name

def namePadding (c : Command α) : Nat :=
  (c.children.map fun d => d.name.length).foldl max 11

end Command

/-- A command with the commands above it, nearest first. -/
structure Located (α : Type) where
  command : Command α
  above : List (Command α) := []

namespace Located

variable {α : Type}

def top (c : Command α) : Located α := ⟨c, []⟩

def enter (l : Located α) (d : Command α) : Located α :=
  ⟨d, l.command :: l.above⟩

def path (l : Located α) : String :=
  " ".intercalate ((l.above.reverse.map (·.name)) ++ [l.command.name])

def inherited (l : Located α) : List Flag :=
  let own := l.command.flags ++ l.command.persistent
  (l.above.flatMap (·.persistent)).filter fun f => !own.any (·.name == f.name)

def localFlags (l : Located α) (withHelp : Bool) : List Flag :=
  let own := l.command.flags ++ l.command.persistent
  if withHelp && !own.any (·.name == "help") then own ++ [Flag.help l.command.name] else own

def allFlags (l : Located α) (withHelp : Bool) : List Flag :=
  l.localFlags withHelp ++ l.inherited

def useLine (l : Located α) (withHelp : Bool) : String :=
  let line := match l.above with
    | [] => l.command.use
    | _ :: _ => (⟨l.above.headD l.command, l.above.tail⟩ : Located α).path ++ " " ++ l.command.use
  if l.command.flagsInUseLine && !(l.allFlags withHelp).isEmpty &&
      !((line.splitOn "[flags]").length > 1) then line ++ " [flags]"
  else line

/-- The usage text. -/
def usage (l : Located α) (withHelp : Bool) : String :=
  let c := l.command
  let subs := c.hasOffered
  let listed := c.sortedChildren.filter fun d => d.offered || d.name == "help"
  let own := l.localFlags withHelp
  let inherited := l.inherited
  "Usage:" ++
  (if c.runnable then "\n  " ++ l.useLine withHelp else "") ++
  (if subs then "\n  " ++ l.path ++ " [command]" else "") ++
  (if subs then
    "\n\nAvailable Commands:" ++
      String.join (listed.map fun d => "\n  " ++ padRight d.name c.namePadding ++ " " ++ d.short)
  else "") ++
  (if own.isEmpty then "" else "\n\nFlags:\n" ++ trimEnd (flagBlock own)) ++
  (if inherited.isEmpty then "" else "\n\nGlobal Flags:\n" ++ trimEnd (flagBlock inherited)) ++
  (if subs then
    "\n\nUse \"" ++ l.path ++ " [command] --help\" for more information about a command."
  else "") ++ "\n"

/-- The help text: the description, then the usage text. -/
def help (l : Located α) : String :=
  let c := l.command
  let about := trimEnd (if c.long.isEmpty then c.short else c.long)
  (if about.isEmpty then "" else about ++ "\n\n") ++
  (if c.runnable || !c.children.isEmpty then l.usage true else "")

end Located

end PagedAsm
