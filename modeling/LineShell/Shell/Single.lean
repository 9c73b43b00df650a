import LineShell.CommandLine
import LineShell.Platform
import LineShell.Shell.Reaping
import LineShell.Shell.StageFiles

namespace LineShell.Shell

/-!
# Running one command

* `start` — starts a process in the working directory. That it cannot be started is reported;
* `detach` — leaves processes that still run to the registry;
* `reportInterrupt` — notes and reports that the user interrupted the line;
* `runSingle` — runs a line of one command.
-/

variable {σ : Type}

/-- The exit code of a command that was not started. -/
def notStarted : Int := 127

/-- Starts a process in the working directory. -/
def start (command : Command) (streams : Streams) : Shell σ (Option ProcessId) := do
  let s ← session
  let arguments := Platform.direct.arguments command.argv
  debug .execution ("spawn " ++ Text.quotedList arguments ++ " in " ++ s.cwd.toString)
  match ← (spawn arguments s.cwd streams).attempt with
  | .ok pid =>
    debug .execution ("spawned pid " ++ toString pid ++ ": " ++ command.text)
    return some pid
  | .error f =>
    if f.isIo then
      report ("failed to execute: " ++ command.name ++ " - " ++ f.reason)
      return none
    else raise f

/-- A stage of a line, and its process if it was started. -/
structure Stage where
  command : Command
  pid : Option ProcessId
  deriving DecidableEq, Repr

/-- The processes of the stages that were started. -/
def pidsOf (stages : List Stage) : List ProcessId := stages.filterMap Stage.pid

/-- Leaves the processes that still run to the registry. -/
def detach (stages : List Stage) : Shell σ Unit :=
  stages.forM fun stage =>
    match stage.pid with
    | none => return ()
    | some pid => do
      if (← poll pid).isNone then
        register ⟨pid, stage.command.text, false⟩ false

/-- Notes that the user interrupted the line and leaves its processes to the registry. -/
def leaveInterrupted (text : String) (stages : List Stage) : Shell σ Unit := do
  modifySession fun s => { s with interrupted := true }
  report text
  detach stages

/-- Waits for the only process of a line. -/
def awaitSingle (command : Command) (pid : ProcessId) : Shell σ Result := do
  match ← (wait pid).attempt with
  | .ok code =>
    if code != 0 then report ("process exited with code " ++ toString code)
    return { exitCode := some code, pids := [pid] }
  | .error .interrupt =>
    leaveInterrupted "execution interrupted" [⟨command, some pid⟩]
    return { pids := [pid], failure := some .interrupted }
  | .error f => raise f

/-- Starts the only process of a line, with its files open meanwhile. -/
def startSingle (line : CommandLine) : Shell σ (Option ProcessId) := do
  let w := line.wiring 0
  let files ← openStage w
  closing files.ids (start line.first (files.streams w false false))

/-- Runs a line of one command. -/
def runSingle (line : CommandLine) : Shell σ Result := do
  match ← (startSingle line).attempt with
  | .error f =>
    if f.isCannotOpen then
      report f.message
      return { exitCode := some 1, failure := some .io }
    else raise f
  | .ok none => return { exitCode := some notStarted, failure := some .spawn }
  | .ok (some pid) =>
    if line.blocks then awaitSingle line.first pid
    else
      register ⟨pid, line.text, false⟩ true
      return { pids := [pid], background := true }

end LineShell.Shell
