import LineShell.Jobs
import LineShell.Path
import LineShell.Settings

namespace LineShell

/-!
# Sessions

What the interpreter keeps from one line to the next.

* `Session` — the working directory, the home directory, the settings, the background jobs, and
  whether the last line was interrupted;
* `Session.expandHome` — an operand whose leading `~` stands for the home directory;
* `Session.resolve` — the path that an operand names.
-/

/-- What the interpreter keeps from one line to the next. The working directory is the session's
own, so that changing it changes nothing outside. -/
structure Session where
  cwd : Path
  home : String
  settings : Settings
  jobs : Jobs := {}
  interrupted : Bool := false
  deriving DecidableEq, Repr

namespace Session

/-- An operand whose leading `~` stands for the home directory. -/
def expandHome (s : Session) (operand : String) : String :=
  match operand.toList with
  | '~' :: rest => s.home ++ String.ofList rest
  | _ => operand

/-- The path that an operand names, seen from the working directory. -/
def resolve (s : Session) (operand : String) : Path :=
  s.cwd.join (Path.parse (s.expandHome operand))

/-- From an absolute working directory every operand names an absolute path. -/
theorem isAbsolute_resolve {s : Session} (h : s.cwd.isAbsolute = true) (operand : String) :
    (s.resolve operand).isAbsolute = true :=
  Path.isAbsolute_join h

end Session

end LineShell
