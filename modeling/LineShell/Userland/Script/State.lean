import LineShell.Userland.Arguments
import LineShell.Userland.Script.Parse

namespace LineShell.Userland.Script

/-!
# What scripts keep

* `Jump` — what ends commands before their end;
* `ScriptState` — what a script keeps from one command to the next;
* `ScriptState.parameter?` — the value of a parameter;
* `ScriptState.within` — runs something where descriptors lead elsewhere;
* `report`, `failing` — error messages, and the end of a script by one.
-/

/-- What ends commands before their end. -/
inductive Jump
  /-- So many loops end. -/
  | breaks (loops : Nat)
  /-- So many loops but one end, and that one goes on. -/
  | continues (loops : Nat)
  /-- A function ends, or a file of commands. -/
  | returns
  /-- The script ends. -/
  | exits
  deriving DecidableEq, Repr

/-- A variable as it was: its value in the shell alone, and that in the environment. -/
structure Saved where
  name : String
  alone : Option String
  shared : Option String
  deriving DecidableEq, Repr

/-- What a script keeps from one command to the next. -/
structure ScriptState where
  name : String
  positional : List String := []
  /-- The variables that are not in the environment of programs. -/
  locals : List (String × String) := []
  environment : Environment := {}
  /-- The variables that are in the environment as soon as they are set. -/
  awaited : List String := []
  /-- The variables that cannot be set again. -/
  fixed : List String := []
  cwd : Path
  pid : ProcessId
  status : Int := 0
  /-- The status of the last commands whose output was meant. -/
  substituted : Int := 0
  functions : List (String × Script) := []
  /-- The letters of the options that are set. -/
  flags : List Char := []
  jump : Option Jump := none
  /-- How many loops the commands are in, and how many functions. -/
  depth : Nat := 0
  calls : Nat := 0
  /-- The variables that get their values back when the function that runs ends. -/
  hidden : List Saved := []
  /-- What is run where a signal comes, and at the end, as signal zero. -/
  traps : List (Nat × String) := []
  /-- The signals that have come and were not dealt with yet. -/
  received : List Nat := []
  /-- The command that error messages name, if they name one. -/
  command : String := ""
  /-- The descriptors that commands can name. -/
  held : List Nat := [0, 1, 2]
  /-- How many files the script has open. -/
  opened : Nat := 0
  /-- Where descriptors lead for good. -/
  streams : Option (Nat → Nat) := none
  /-- The commands that were not waited for and have not run yet, by number. -/
  asides : List (ProcessId × Program Int) := []
  /-- The statuses of those that have. -/
  ended : List (ProcessId × Int) := []
  /-- The number of the latest of them. -/
  latest : Option ProcessId := none
  /-- Where in an argument the next option letter stands. -/
  offset : Nat := 0
  mask : Nat := 18

namespace ScriptState

/-- A variable's value. -/
def get? (s : ScriptState) (name : String) : Option String :=
  s.locals.lookup name <|> s.environment.get? name

/-- The state with a variable that is not in the environment. -/
def setAlone (s : ScriptState) (name value : String) : ScriptState :=
  { s with locals := (name, value) :: s.locals.filter (·.1 != name) }

/-- The state with a variable in the environment. -/
def setShared (s : ScriptState) (name value : String) : ScriptState :=
  { s with
    locals := s.locals.filter (·.1 != name), environment := s.environment.set name value }

/-- Whether an option is set. -/
def isSet (s : ScriptState) (flag : Char) : Bool := s.flags.contains flag

/-- Whether a variable is in the environment, or goes there when it is set. -/
def isShared (s : ScriptState) (name : String) : Bool :=
  (s.environment.get? name).isSome || s.awaited.contains name

/-- The state with a variable set. It stays in the environment if it is there. -/
def set (s : ScriptState) (name value : String) : ScriptState :=
  let s := if name == "OPTIND" then { s with offset := 0 } else s
  if s.isShared name || s.isSet 'a' then s.setShared name value else s.setAlone name value

/-- The state without a variable. -/
def unset (s : ScriptState) (name : String) : ScriptState :=
  { s with
    locals := s.locals.filter (·.1 != name), environment := s.environment.erase name
    awaited := s.awaited.filter (· != name) }

/-- The state with a variable in the environment of programs, as soon as it is set. -/
def publish (s : ScriptState) (name : String) : ScriptState :=
  match s.get? name with
  | some value => s.setShared name value
  | none => { s with awaited := name :: s.awaited.filter (· != name) }

/-- A variable as it is. -/
def saved (s : ScriptState) (name : String) : Saved :=
  ⟨name, s.locals.lookup name, s.environment.get? name⟩

/-- The state with a variable as it was. -/
def restore (s : ScriptState) (v : Saved) : ScriptState :=
  match v.alone, v.shared with
  | some value, _ => { s.unset v.name with locals := (v.name, value) :: (s.unset v.name).locals }
  | none, some value => s.setShared v.name value
  | none, none => s.unset v.name

/-- Whether a variable cannot be set again. -/
def isFixed (s : ScriptState) (name : String) : Bool := s.fixed.contains name

/-- The state with a status. -/
def withStatus (s : ScriptState) (status : Int) : ScriptState := { s with status }

/-- The state in which the script ends. -/
def leaving (s : ScriptState) (status : Int) : ScriptState :=
  { s with status, jump := some .exits }

/-- The state in which commands go on behind a jump. -/
def landed (s : ScriptState) : ScriptState := { s with jump := none }

/-- The state that a copy of the shell starts with. Of what is run where signals come, it keeps
only that nothing is. -/
def forked (s : ScriptState) : ScriptState :=
  { s with traps := s.traps.filter (·.2 == ""), asides := [], ended := [], received := [] }

/-- The state in which a descriptor leads where it leads for the whole process. -/
def keeping (s : ScriptState) (fd : Nat) : ScriptState :=
  { s with streams := s.streams.map fun f n => if n = fd then fd else f n }

/-- The characters that separate words. -/
def separators (s : ScriptState) : List Char := ((s.get? "IFS").getD " \t\n").toList

/-- The options, each by its letter and its name, in the order of lists. -/
def optionNames : List (Option Char × String) := [
  (some 'e', "errexit"), (some 'f', "noglob"), (some 'I', "ignoreeof"), (some 'i', "interactive"),
  (some 'm', "monitor"), (some 'n', "noexec"), (some 's', "stdin"), (some 'x', "xtrace"),
  (some 'v', "verbose"), (some 'V', "vi"), (some 'E', "emacs"), (some 'C', "noclobber"),
  (some 'a', "allexport"), (some 'b', "notify"), (some 'u', "nounset"), (some 'p', "privileged"),
  (none, "nolog"), (none, "debug")]

/-- The value of a parameter, if it is set. -/
def parameter? (s : ScriptState) (name : String) : Option String :=
  match name with
  | "#" => some (toString s.positional.length)
  | "?" => some (toString s.status)
  | "$" => some (toString s.pid)
  | "0" => some s.name
  | "!" => s.latest.map toString
  | "-" => some (String.ofList ((optionNames.filterMap (·.1)).reverse.filter s.isSet))
  | "@" | "*" =>
    let joint := match s.separators with
      | c :: _ => c.toString
      | [] => ""
    some (joint.intercalate s.positional)
  | name =>
    match natural? name with
    | some n => if n = 0 then some s.name else s.positional[n - 1]?
    | none => s.get? name

/-- Runs something in a state, with descriptors leading where they lead for good. -/
def within (s : ScriptState) (p : ScriptState → Program ScriptState) : Program ScriptState :=
  match s.streams with
  | none => p s
  | some f => do
    let t ← (p { s with streams := none }).onStreams f
    return { t with streams := match t.streams with
      | none => some f
      | some g => some (f ∘ g) }

/-- A variable that was set alone has the value that it was set to. -/
theorem get?_setAlone (s : ScriptState) (name value : String) :
    (s.setAlone name value).get? name = some value := by
  simp [setAlone, get?]

end ScriptState

/-! ### Error messages -/

/-- Writes an error message. -/
def report (s : ScriptState) (line : Nat) (text : String) : Program Unit :=
  let speaker := if s.command == "" then "" else s.command ++ ": "
  Program.say 2 (s.name ++ ": " ++ toString line ++ ": " ++ speaker ++ text ++ "\n")

/-- The end of a script by an error. -/
def failing (s : ScriptState) (line : Nat) (text : String) : Program ScriptState := do
  report s line text
  return s.leaving 2

end LineShell.Userland.Script
