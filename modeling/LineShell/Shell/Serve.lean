import LineShell.Prompt
import LineShell.Shell.Execute
import LineShell.Shell.TypedLines

namespace LineShell.Shell

/-!
# The prompt loop

* `serveLines` — prompts for lines and handles them, until the user leaves;
* `leave` — keeps the typed lines and ends the background jobs;
* `serve` — the loop from its start to its end, which also comes after a fault.
-/

variable {σ : Type}

/-- What is to be done about an input. -/
inductive Step
  /-- Nothing. -/
  | skip
  /-- To end the prompt's line. -/
  | newLine
  /-- To leave, with some last words. -/
  | leave (words : String)
  /-- To handle a line. -/
  | handle (line : String)
  deriving DecidableEq, Repr

/-- What is to be done about an input. -/
def Step.ofInput : Input → Step
  | .endOfInput => .leave ""
  | .interrupt => .newLine
  | .line text =>
    let line := String.ofList (Text.trim text.toList)
    if line == "" then .skip
    else if line == "exit" then .leave "Goodbye!"
    else .handle line

/-- Handles a line as the next one of the session. -/
def handleNext (line : String) : Shell σ Unit := do
  modifySession fun s => { s with interrupted := false }
  let _ ← handleLine line

/-- Prompts for lines and handles them, until the user leaves. Before each prompt the jobs that
have ended are announced. -/
def serveLines (user : String) : Nat → Shell σ Unit
  | 0 => never
  | rounds + 1 => do
    let _ ← reap true
    let s ← session
    match Step.ofInput (← readInput (promptText user s.cwd) s.interrupted) with
    | .leave words => printLine words
    | .newLine => do
      printLine ""
      serveLines user rounds
    | .skip => serveLines user rounds
    | .handle line => do
      handleNext line
      serveLines user rounds

/-- Keeps the typed lines and ends the background jobs, as far as the settings say so. -/
def leave : Shell σ Unit := do
  let settings := (← session).settings
  if settings.useHistory then saveHistory settings.historyFile settings.historySize
  if settings.terminateOnExit then terminateAll true

/-- The prompt loop. The answer is the exit status of the interpreter. -/
def serve (user : String) : Shell σ Int := do
  let settings := (← session).settings
  if settings.useHistory then
    initEditor
    loadHistory settings.historyFile settings.historySize
  let rounds ← bound
  let result ← (serveLines user rounds).attempt
  leave
  match result with
  | .ok _ => return 0
  | .error f => raise f

end LineShell.Shell
