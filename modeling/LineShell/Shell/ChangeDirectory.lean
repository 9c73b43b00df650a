import LineShell.CommandLine
import LineShell.Shell

namespace LineShell.Shell

/-!
# Changing the working directory

* `isUnreachable` — the faults of looking for a path that are reported;
* `changeDirectory` — moves the session to the directory that the first argument names, or home.
  No process is started.
-/

variable {σ : Type}

/-- Whether a fault says that a path cannot be followed to its end. -/
def isUnreachable : Fault → Bool
  | .linkLoop _ => true
  | f => f.isIo

/-- Moves the session to the directory at a path, if there is one. -/
def moveTo (target : String) (path : Path) : Shell σ Result := do
  if ← isDirectory path then
    debug .directories ("cd " ++ (← session).cwd.toString ++ " -> " ++ path.toString)
    modifySession fun s => { s with cwd := path }
    return { exitCode := some 0 }
  else
    report ("cd: directory not found: " ++ target)
    return { exitCode := some 1, failure := some .notFound }

/-- Moves the session to the directory that a command's first argument names, or home. -/
def changeDirectory (command : Command) : Shell σ Result := do
  let s ← session
  let target := s.expandHome (command.args.headD s.home)
  match ← (canonical (s.resolve target)).attempt with
  | .ok path => moveTo target path
  | .error f =>
    if isUnreachable f then
      report ("cd: cannot access directory: " ++ f.message)
      return { exitCode := some 1, failure := some .io }
    else raise f

end LineShell.Shell
