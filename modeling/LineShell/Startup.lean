import LineShell.Host.Answer
import LineShell.Options
import LineShell.Shell.Serve

namespace LineShell

open Host

/-!
# From start to exit

* `Startup` — what the interpreter is started with, and `Startup.decision` — what it does then;
* `Startup.session` — the session that settings make;
* `Terminal.ofText` — the user whose lines are in a text;
* `Startup.run` — the interpreter on a host, from its start to its exit.
-/

/-- What the interpreter is started with. -/
structure Startup where
  /-- What the interpreter is called in messages. -/
  program : String
  arguments : List String
  environment : Environment
  cwd : Path
  /-- The file of typed lines where the environment names none. -/
  defaultHistory : String
  /-- The name of the user's account. -/
  account : Option String := none
  deriving DecidableEq, Repr

/-- What the interpreter does when it is started. -/
inductive Startup.Decision
  /-- It serves a user, and shows log records from some gravity on. -/
  | serve (session : Session) (user : String) (threshold : Nat)
  /-- It writes something and exits. -/
  | leave (status : Int) (out err : String)
  | fail (fault : Fault)
  deriving DecidableEq, Repr

/-- How a run of the interpreter ends. -/
inductive Farewell
  | exits (status : Int)
  | fails (fault : Fault)
  | never
  deriving DecidableEq, Repr

namespace Startup

/-- The settings that environment and options make. -/
def settings (s : Startup) (o : Options) : Settings :=
  o.apply (Settings.ofEnvironment s.defaultHistory s.environment)

/-- The session that settings make. -/
def session (s : Startup) (settings : Settings) : Session :=
  { cwd := s.cwd, home := s.environment.expandHome "~", settings }

/-- What the interpreter does when it is started. -/
def decision (s : Startup) : Decision :=
  match Invocation.ofArguments s.arguments with
  | .help => .leave 0 (Invocation.helpText s.program) ""
  | .refuse e => .leave 2 "" (Invocation.refusal s.program e)
  | .run o =>
    let settings := s.settings o
    match Level.threshold settings.logLevel with
    | .error f => .fail f
    | .ok gravity => .serve (s.session settings) (userName s.environment s.account) gravity

/-- The interpreter on a host, from its start to its exit. -/
def run {S : Type} (s : Startup) (h : Host S) (m : Machine S) : Farewell × Machine S :=
  match s.decision with
  | .leave status out err =>
    (.exits status, (m.writeOut (Text.encode out)).writeErr (Text.encode err))
  | .fail f => (.fails f, m)
  | .serve session user threshold =>
    let m := { m with console := { m.console with threshold := some threshold } }
    match Shell.serve user h.kernel ⟨session, m⟩ with
    | (.returned status, w) => (.exits status, w.outside)
    | (.raised f, w) => (.fails f, w.outside)
    | (.never, w) => (.never, w.outside)

end Startup

/-! ### Lines -/

/-- The lines of a text. A carriage return ends a line too, alone or before a newline. -/
def textLines : List Char → List (List Char)
  | [] => []
  | '\r' :: '\n' :: cs => [] :: textLines cs
  | '\n' :: cs | '\r' :: cs => [] :: textLines cs
  | c :: cs =>
    match textLines cs with
    | [] => [[c]]
    | line :: lines => (c :: line) :: lines

/-- The user whose lines are in a text, and whose prompts are shown on the console. -/
def Host.Terminal.ofText (text : String) : Terminal where
  deeds := (textLines text.toList).map fun cs => .enters (String.ofList cs)
  echoes := true

@[simp] theorem textLines_nil : textLines [] = [] := rfl

end LineShell
