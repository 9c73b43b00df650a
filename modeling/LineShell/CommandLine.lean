import LineShell.LineError

namespace LineShell

/-!
# Commands and command lines

* `Command` — a program and its arguments;
* `CommandLine` — a pipeline with the redirections and the background mark of the whole line;
* `Malformed` — why words make no command line, and `CommandLine.ofArgvs` — the line they make;
* `CommandLine.target?` — the file that a redirection operand names, if it names one.
-/

/-- Why words make no command, or commands no line. -/
inductive Malformed
  | emptyCommand
  | emptyLine
  deriving DecidableEq, Repr

/-- The reason in words. -/
def Malformed.message : Malformed → String
  | .emptyCommand => "Command requires a non-empty argv"
  | .emptyLine => "CommandLine requires at least one command"

/-- One stage of a pipeline: a program by name or path, and its arguments. -/
structure Command where
  name : String
  args : List String
  deriving DecidableEq, Repr

namespace Command

/-- The words of a command, its name first. -/
def argv (c : Command) : List String := c.name :: c.args

/-- The command made of some words, unless there are none. -/
def ofArgv? : List String → Option Command
  | [] => none
  | name :: args => some ⟨name, args⟩

/-- A command as it is shown. -/
def text (c : Command) : String := " ".intercalate c.argv

theorem argv_ne_nil (c : Command) : c.argv ≠ [] := by simp [argv]

@[simp] theorem ofArgv?_argv (c : Command) : ofArgv? c.argv = some c := rfl

theorem ofArgv?_eq_some_iff {argv : List String} {c : Command} :
    ofArgv? argv = some c ↔ argv = c.argv := by
  cases argv <;> cases c <;> simp [ofArgv?, Command.argv]

end Command

/-- A pipeline of at least one command, with what belongs to the line as a whole. -/
structure CommandLine where
  first : Command
  others : List Command := []
  input : Option String := none
  output : Option String := none
  append : Bool := false
  error : Option String := none
  background : Bool := false
  deriving DecidableEq, Repr

namespace CommandLine

/-- The stages in order. -/
def commands (line : CommandLine) : List Command := line.first :: line.others

/-- The line without redirections that runs some commands, unless there are none. -/
def ofCommands? : List Command → Option CommandLine
  | [] => none
  | first :: others => some { first, others }

/-- The line without redirections that runs commands given by their words. The first command that
has no words counts before a line that has no commands. -/
def ofArgvs (argvs : List (List String)) : Except Malformed CommandLine := do
  let commands ← argvs.mapM fun argv => match Command.ofArgv? argv with
    | none => .error .emptyCommand
    | some command => .ok command
  match ofCommands? commands with
  | none => .error .emptyLine
  | some line => return line

/-- Whether the line has several stages. -/
def isPipeline (line : CommandLine) : Bool := !line.others.isEmpty

/-- The file that a redirection operand names. The empty operand names none. -/
def target? (operand : Option String) : Option String := operand.filter (· != "")

/-- Whether some redirection of the line names a file. -/
def hasRedirection (line : CommandLine) : Bool :=
  (target? line.input).isSome || (target? line.output).isSome || (target? line.error).isSome

/-- A line as it is shown: its commands, without redirections. -/
def text (line : CommandLine) : String := " | ".intercalate (line.commands.map Command.text)

/-- Whether the interpreter waits for the line. -/
def blocks (line : CommandLine) : Bool := !line.background

/-- Whether the line is one command that changes the working directory. -/
def isChangeDirectory (line : CommandLine) : Bool := line.others.isEmpty && line.first.name == "cd"

theorem commands_ne_nil (line : CommandLine) : line.commands ≠ [] := by simp [commands]

@[simp] theorem target?_none : target? none = none := rfl

@[simp] theorem target?_empty : target? (some "") = none := rfl

end CommandLine

end LineShell
