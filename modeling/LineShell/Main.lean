import LineShell.Startup
import LineShell.Userland.Catalog

/-!
# The interpreter as a program

The interpreter reads lines from its standard input and runs them on a host of its own: what its
commands do stays within the host, and what they write comes out.
-/

namespace LineShell.Main

open Host

/-- The variables that the interpreter looks at. -/
def variableNames : List String := [
  "HOME", "PATH", "LOGNAME", "USER", "LNAME", "USERNAME", "MINISHELL_HISTORY_FILE",
  "MINISHELL_HISTORY_SIZE", "MINISHELL_RELAY_CHUNK", "MINISHELL_TERMINATE_BG",
  "MINISHELL_LOG_LEVEL"]

/-- The environment of the interpreter. -/
def environment : IO Environment := do
  let values ← variableNames.filterMapM fun name => do
    return (← IO.getEnv name).map fun value => (name, value)
  return ⟨values⟩

/-- A file system with the usual programs, a working directory and a home directory. -/
def files (cwd : Path) (home : String) : Except Nat FileSystem := do
  let files ← Userland.install .empty
  let (_, files) ← files.makeDirectories FileSystem.root cwd.names
  return (← files.makeDirectories FileSystem.root (Path.parse home).names).2

/-- Writes bytes to a stream. -/
def write (stream : IO.FS.Stream) (bytes : Text.Bytes) : IO Unit := do
  stream.write ⟨bytes.toArray⟩
  stream.flush

/-- Runs the interpreter with arguments, a working directory and the lines that are typed. -/
def run (arguments : List String) (environment : Environment) (cwd : Path) (text : String) :
    Farewell × Machine (Userland.Program Int) :=
  let startup : Startup := {
    program := "minishell", arguments, environment, cwd
    defaultHistory := environment.expandHome "~/.minishell_history" }
  let m : Machine (Userland.Program Int) := {
    files := (files cwd (environment.expandHome "~")).toOption.getD .empty, cwd
    inherited := (.nothing, .console, .errors), terminal := .ofText text }
  startup.run (Userland.host environment) m

end LineShell.Main

/-- Runs the interpreter. -/
def main (arguments : List String) : IO UInt32 := do
  let cwd := LineShell.Path.parse (← IO.currentDir).toString
  let text ← (← IO.getStdin).readToEnd
  let (farewell, m) := LineShell.Main.run arguments (← LineShell.Main.environment) cwd text
  let (out, err) := m.written
  LineShell.Main.write (← IO.getStdout) out
  LineShell.Main.write (← IO.getStderr) err
  match farewell with
  | .exits status => return UInt32.ofNat (status % 256).toNat
  | .fails fault => do
    IO.eprintln fault.message
    return 1
  | .never => return 1
