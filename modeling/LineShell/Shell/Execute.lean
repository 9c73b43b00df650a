import LineShell.CommandLine.Parse
import LineShell.Shell.ChangeDirectory
import LineShell.Shell.Pipeline

namespace LineShell.Shell

/-!
# Running a line

* `execute` — runs a command line in one of three ways: by changing the working directory, as a
  single process, as a pipeline;
* `handleLine` — reads a text as a command line and runs it.
-/

variable {σ : Type}

/-- Runs a command line. -/
def execute (line : CommandLine) : Shell σ Result :=
  if line.isChangeDirectory then changeDirectory line.first
  else if line.isPipeline then runPipeline line
  else runSingle line

/-- Why a text is no command line, as it is reported. -/
def refusal (e : LineError) : String :=
  (if e.isMissingFile then "redirection error: " else "parse error: ") ++ e.message

/-- Reads a text as a command line and runs it. A text that is none, or only blank, runs nothing. -/
def handleLine (text : String) : Shell σ (Option Result) :=
  match CommandLine.parse text with
  | .error e => do
    report (refusal e)
    return none
  | .ok none => return none
  | .ok (some line) => do
    debug .prompt ("executing: " ++ line.text)
    some <$> execute line

end LineShell.Shell
