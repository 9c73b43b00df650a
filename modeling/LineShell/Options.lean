import LineShell.Settings
import LineShell.Text.Quoted

namespace LineShell

/-!
# Options

What the interpreter can be started with.

* `Options` — the options themselves, and `Options.apply` — what they change about the settings;
* `OptionName` — the options by name, long names also by any beginning that fits only one;
* `Invocation` — what an argument list asks for: to run, to show the help, or nothing sensible;
* `Invocation.ofArguments` — reads an argument list. It is searched for ambiguous names first.
-/

/-- What the interpreter is started with. -/
structure Options where
  debug : Bool := false
  noHistory : Bool := false
  deriving DecidableEq, Repr

/-- Options take precedence over settings. -/
def Options.apply (o : Options) (s : Settings) : Settings :=
  { s with
    useHistory := s.useHistory && !o.noHistory
    logLevel := if o.debug then "DEBUG" else s.logLevel }

/-- The options by name. -/
inductive OptionName
  | help
  | debug
  | noHistory
  deriving DecidableEq, Repr

namespace OptionName

/-- Every spelling and the option it names. -/
def spellings : List (String × OptionName) :=
  [("-h", help), ("--help", help), ("--debug", debug), ("--no-history", noHistory)]

/-- An option as messages call it. -/
def title : OptionName → String
  | .help => "-h/--help"
  | .debug => "--debug"
  | .noHistory => "--no-history"

end OptionName

/-- What is wrong with an argument list. -/
inductive OptionError
  | ambiguous (argument : String) (candidates : List String)
  | needlessValue (option : OptionName) (value : String)
  | unrecognized (arguments : List String)
  deriving DecidableEq, Repr

/-- What is wrong, in words. -/
def OptionError.message : OptionError → String
  | .ambiguous argument candidates =>
    "ambiguous option: " ++ argument ++ " could match " ++ ", ".intercalate candidates
  | .needlessValue option value =>
    "argument " ++ option.title ++ ": ignored explicit argument " ++ Text.quoted value
  | .unrecognized arguments => "unrecognized arguments: " ++ " ".intercalate arguments

/-- What an argument list asks for. -/
inductive Invocation
  | run (options : Options)
  | help
  | refuse (error : OptionError)
  deriving DecidableEq, Repr

namespace Invocation

/-- How one argument reads. -/
inductive Reading
  /-- The name of an option, and a value glued to it. -/
  | option (name : OptionName) (isShort : Bool) (value : Option String)
  /-- A beginning that fits several options. -/
  | ambiguous (candidates : List String)
  /-- Nothing that names an option. -/
  | other
  deriving DecidableEq, Repr

/-- A long name and the value after its first `=`. -/
def splitValue (cs : List Char) : List Char × Option (List Char) :=
  match cs.dropWhile (· != '=') with
  | [] => (cs, none)
  | _ :: value => (cs.takeWhile (· != '='), some value)

/-- The option that a spelling names in full. -/
def full? (cs : List Char) : Option (OptionName × Bool) :=
  (OptionName.spellings.find? (·.1.toList == cs)).map fun (s, name) => (name, s == "-h")

/-- How an argument that names no option in full reads: a beginning of a long name, or the short
name with more characters glued to it. -/
def readInexact (cs : List Char) : Reading :=
  match cs with
  | '-' :: '-' :: _ =>
    let (start, value) := splitValue cs
    match OptionName.spellings.filter (fun s => start.isPrefixOf s.1.toList) with
    | [] => .other
    | [(_, name)] => .option name false (value.map String.ofList)
    | several => .ambiguous (several.map (·.1))
  | '-' :: 'h' :: value => .option .help true (some (String.ofList value))
  | _ => .other

/-- How one argument reads. -/
def read (argument : String) : Reading :=
  let cs := argument.toList
  match full? cs with
  | some (name, isShort) => .option name isShort none
  | none =>
    if cs.head? != some '-' || cs.length == 1 then .other
    else match splitValue cs with
      | (start, some value) =>
        match full? start with
        | some (name, isShort) => .option name isShort (some (String.ofList value))
        | none => readInexact cs
      | (_, none) => readInexact cs

/-- The arguments that may name options: those before a bare `--`. -/
def beforeSeparator (arguments : List String) : List String := arguments.takeWhile (· != "--")

/-- What is wrong with a value glued to an option, if anything. The short name of the help may be
repeated: `-hh`. -/
def valueError? (name : OptionName) : Bool → Option String → Option OptionError
  | _, none => none
  | false, some value => some (.needlessValue name value)
  | true, some value =>
    match value.toList.dropWhile (· == 'h') with
    | [] => if value == "" then some (.needlessValue name value) else none
    | rest => some (.needlessValue name (String.ofList rest))

/-- Reads arguments in order, gathering those that name no option. -/
def gather (options : Options) (others : List String) : List String → Invocation
  | [] =>
    if others.isEmpty then .run options else .refuse (.unrecognized others.reverse)
  | argument :: rest =>
    match read argument with
    | .option name isShort value =>
      match valueError? name isShort value with
      | some error => .refuse error
      | none =>
        match name with
        | .help => .help
        | .debug => gather { options with debug := true } others rest
        | .noHistory => gather { options with noHistory := true } others rest
    | _ => gather options (argument :: others) rest

/-- The first ambiguous name among some arguments. -/
def ambiguity? (arguments : List String) : Option OptionError :=
  arguments.findSome? fun argument =>
    match read argument with
    | .ambiguous candidates => some (.ambiguous argument candidates)
    | _ => none

/-- What an argument list asks for. Nothing after a bare `--` is recognized. -/
def ofArguments (arguments : List String) : Invocation :=
  let candidates := beforeSeparator arguments
  match ambiguity? candidates with
  | some error => .refuse error
  | none =>
    match gather {} [] candidates, arguments.drop candidates.length with
    | .run options, [] => .run options
    | .run _, others => .refuse (.unrecognized others)
    | .refuse (.unrecognized before), others => .refuse (.unrecognized (before ++ others))
    | invocation, _ => invocation

/-- How the interpreter is called. -/
def usage (program : String) : String := "usage: " ++ program ++ " [-h] [--debug] [--no-history]\n"

/-- The help. -/
def helpText (program : String) : String :=
  usage program ++
  "\nMiniShell - a small interactive command interpreter.\n\noptions:\n" ++
  "  -h, --help    show this help message and exit\n" ++
  "  --debug       Trace process spawning, pipe relays and background jobs on\n" ++
  "                stderr.\n" ++
  "  --no-history  Do not read or write the history file.\n"

/-- What is said about an argument list that cannot be run with. -/
def refusal (program : String) (error : OptionError) : String :=
  usage program ++ program ++ ": error: " ++ error.message ++ "\n"

@[simp] theorem ofArguments_nil : ofArguments [] = .run {} := rfl

end Invocation

end LineShell
