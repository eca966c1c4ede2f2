import PagedAsm.CommandLine.Command
import PagedAsm.Text.Case

/-!
# Choosing and running a command

The words of a command line that are neither flags nor flag values name a path of
subcommands from the top. A flag takes the next argument as its value unless it is a switch
or is written `--name=value`; an unknown flag counts as one that takes a value. The first word
that names no subcommand stops the descent. At the top command, such a word is refused as an
unknown command, with the subcommands whose name is within two edits of it, or starts with
it, offered as suggestions.

The chosen command then reads its flags. A refused flag prints the error and the usage text on
standard error. `-h` or `--help`, or a command without action, prints the help text. Two more
commands join every tree with subcommands: `help`, which prints the help of the command its
words name, and `completion`, which groups the shell script generators.
-/

namespace PagedAsm

/-- What a command does when it runs. -/
inductive Behaviour (α : Type) where
  /-- An action of the program itself. -/
  | own (a : α)
  /-- Print the help of the command named by the positional arguments. -/
  | helpTopic
  /-- Write a completion script for a shell. -/
  | script (shell : String)
  deriving Repr

/-- Where a command line leads: a finished run, or the program's own action to perform. -/
inductive Step (α : Type) where
  | finish (o : Outcome)
  | run (action : α) (site : Located (Behaviour α)) (parsed : Parsed)

namespace Dispatch

variable {α : Type}

def takesValue (flags : List Flag) (s : String) : Bool :=
  let isSwitch := fun (f : Option Flag) => (f.bind fun f => f.default.implied).isSome
  if s.startsWith "--" then
    !s.contains '=' && !isSwitch (FlagParse.byName flags (String.ofList (s.toList.drop 2)))
  else
    s.startsWith "-" && !s.contains '=' && s.utf8ByteSize == 2 &&
      !isSwitch ((s.toList.drop 1).head?.bind (FlagParse.byShort flags))

def commandWords (flags : List Flag) : List String → List String
  | [] => []
  | s :: rest =>
    if s = "--" then []
    else if takesValue flags s then
      match rest with
      | _ :: r => commandWords flags r
      | [] => []
    else if s ≠ "" ∧ ¬ s.startsWith "-" then s :: commandWords flags rest
    else commandWords flags rest
termination_by structural args => args

def withoutWord (flags : List Flag) (x : String) : List String → List String
  | [] => []
  | s :: rest =>
    if s = "--" then s :: rest
    else if takesValue flags s then
      match rest with
      | v :: r => s :: v :: withoutWord flags x r
      | [] => [s]
    else if ¬ s.startsWith "-" ∧ s = x then rest
    else s :: withoutWord flags x rest

def distanceRow (a : UInt8) : List UInt8 → List Nat → Nat → List Nat
  | b :: bs, p0 :: p1 :: ps, left =>
    let v := if a = b then p0 else min (min p1 left) p0 + 1
    v :: distanceRow a bs (p1 :: ps) v
  | _, _, _ => []

def editDistance (s t : List UInt8) : Nat :=
  let last := (s.zip (List.range s.length)).foldl
    (fun row (a, i) => (i + 1) :: distanceRow a t row (i + 1)) (List.range (t.length + 1))
  last.getLastD 0

def folded (s : String) : List UInt8 :=
  (lowerText s).toUTF8.toList

/-- The suggestions for a word that names no subcommand of `c`. -/
def suggestions (c : Command α) (typed : String) : String :=
  let hits := (c.children.filter fun d => d.name != "help" && d.offered).filter fun d =>
    editDistance (folded typed) (folded d.name) ≤ 2 || (folded typed).isPrefixOf (folded d.name)
  if hits.isEmpty then ""
  else "\n\nDid you mean this?\n" ++ String.join (hits.map fun d => "\t" ++ d.name ++ "\n")

def descend : Nat → Located α → List String → Located α × List String
  | 0, l, args => (l, args)
  | fuel + 1, l, args =>
    match commandWords (l.allFlags false) args with
    | [] => (l, args)
    | w :: _ =>
      match l.command.children.find? (·.name = w) with
      | some d => descend fuel (l.enter d) (withoutWord (l.allFlags false) w args)
      | none => (l, args)

/-- The command the arguments name, the arguments left for it, and the refusal of a word at
the top that names no subcommand. -/
def find (top : Command α) (args : List String) : Located α × List String × Option String :=
  let (l, rest) := descend args.length (Located.top top) args
  let refusal :=
    if l.command.argsRule = .free ∧ ¬ l.command.children.isEmpty ∧ l.above.isEmpty then
      match commandWords (l.allFlags false) rest with
      | w :: _ =>
        some ("unknown command " ++ quote w ++ " for " ++ quote l.path ++ suggestions l.command w)
      | [] => none
    else none
  (l, rest, refusal)

def helpTopic (top : Command α) (words : List String) : Outcome :=
  match find top words with
  | (_, _, some _) =>
    { stderr := "Unknown help topic " ++ quoteRawList words ++ "\n" ++ (Located.top top).usage false }
  | (l, _, none) => { stdout := l.help }

def refuse (l : Located α) (message : String) : Outcome :=
  { stderr := "Error: " ++ message ++ "\n" ++ l.usage true ++ "\n", exit := 1 }

/-- Run the chosen command `l` on its arguments. -/
def execute (top : Command (Behaviour α)) (l : Located (Behaviour α)) (args : List String) :
    Step α :=
  match parseFlags (l.allFlags true) args with
  | .error e => .finish (refuse l e.message)
  | .ok parsed =>
    if parsed.isOn "help" then .finish { stdout := l.help }
    else match l.command.action with
      | none => .finish { stdout := l.help }
      | some b =>
        match l.command.argsRule, parsed.args with
        | .empty, a :: _ =>
          .finish (refuse l ("unknown command " ++ quote a ++ " for " ++ quote l.path))
        | _, _ =>
          match b with
          | .own a => .run a l parsed
          | .helpTopic => .finish (helpTopic top parsed.args)
          | .script _ => .finish {}

end Dispatch

def helpCommand {α : Type} (root : String) : Command (Behaviour α) where
  name := "help"
  use := "help [command]"
  short := "Help about any command"
  long := "Help provides help for any command in the application.\nSimply type " ++ root ++
    " help [path to command] for full details."
  action := some .helpTopic

def scriptCommand {α : Type} (shell long : String) : Command (Behaviour α) where
  name := shell
  use := shell
  short := "Generate the autocompletion script for " ++ shell
  long := long
  flags := [⟨"no-descriptions", none, "disable completion descriptions", .switch false⟩]
  action := some (.script shell)
  argsRule := .empty
  flagsInUseLine := false

/-- The `completion` command of a tree whose top is `root`. -/
def completionCommand {α : Type} (root : String) : Command (Behaviour α) where
  name := "completion"
  use := "completion"
  short := "Generate the autocompletion script for the specified shell"
  long := "Generate the autocompletion script for " ++ root ++ " for the specified shell.\n" ++
    "See each sub-command's help for details on how to use the generated script.\n"
  argsRule := .empty
  children := [
    scriptCommand "bash" ("Generate the autocompletion script for the bash shell.\n\n" ++
      "This script depends on the 'bash-completion' package.\n" ++
      "If it is not installed already, you can install it via your OS's package manager.\n\n" ++
      "To load completions in your current shell session:\n\n" ++
      "\tsource <(" ++ root ++ " completion bash)\n\n" ++
      "To load completions for every new session, execute once:\n\n" ++
      "#### Linux:\n\n" ++
      "\t" ++ root ++ " completion bash > /etc/bash_completion.d/" ++ root ++ "\n\n" ++
      "#### macOS:\n\n" ++
      "\t" ++ root ++ " completion bash > $(brew --prefix)/etc/bash_completion.d/" ++ root ++
      "\n\n" ++
      "You will need to start a new shell for this setup to take effect.\n"),
    scriptCommand "zsh" ("Generate the autocompletion script for the zsh shell.\n\n" ++
      "If shell completion is not already enabled in your environment you will need\n" ++
      "to enable it.  You can execute the following once:\n\n" ++
      "\techo \"autoload -U compinit; compinit\" >> ~/.zshrc\n\n" ++
      "To load completions in your current shell session:\n\n" ++
      "\tsource <(" ++ root ++ " completion zsh)\n\n" ++
      "To load completions for every new session, execute once:\n\n" ++
      "#### Linux:\n\n" ++
      "\t" ++ root ++ " completion zsh > \"$\x7bfpath[1]\x7d/_" ++ root ++ "\"\n\n" ++
      "#### macOS:\n\n" ++
      "\t" ++ root ++ " completion zsh > $(brew --prefix)/share/zsh/site-functions/_" ++ root ++
      "\n\n" ++
      "You will need to start a new shell for this setup to take effect.\n"),
    scriptCommand "fish" ("Generate the autocompletion script for the fish shell.\n\n" ++
      "To load completions in your current shell session:\n\n" ++
      "\t" ++ root ++ " completion fish | source\n\n" ++
      "To load completions for every new session, execute once:\n\n" ++
      "\t" ++ root ++ " completion fish > ~/.config/fish/completions/" ++ root ++ ".fish\n\n" ++
      "You will need to start a new shell for this setup to take effect.\n"),
    scriptCommand "powershell" ("Generate the autocompletion script for powershell.\n\n" ++
      "To load completions in your current shell session:\n\n" ++
      "\t" ++ root ++ " completion powershell | Out-String | Invoke-Expression\n\n" ++
      "To load completions for every new session, add the output of the above command\n" ++
      "to your powershell profile.\n")]

def Command.withStandard {α : Type} (root : Command (Behaviour α)) : Command (Behaviour α) :=
  if root.children.isEmpty then root
  else { root with children := root.children ++ [helpCommand root.name, completionCommand root.name] }

def dispatch {α : Type} (top : Command (Behaviour α)) (args : List String) : Step α :=
  match Dispatch.find top args with
  | (l, _, some message) =>
    .finish { stderr := "Error: " ++ message ++ "\nRun '" ++ l.path ++ " --help' for usage.\n",
              exit := 1 }
  | (l, rest, none) => Dispatch.execute top l rest

end PagedAsm
