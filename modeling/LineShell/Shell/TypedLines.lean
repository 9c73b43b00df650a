import LineShell.History
import LineShell.Shell

namespace LineShell.Shell

/-!
# Keeping the lines typed

* `initEditor` — binds the keys of the line editor, if the user sits at a terminal;
* `loadHistory`, `saveHistory` — reads and writes the file of typed lines. That it cannot be read
  or written is only worth a warning.
-/

variable {σ : Type}

/-- Whether a fault is an error of the program or its surroundings, not the user's interrupt. -/
def isError : Fault → Bool
  | .interrupt => false
  | _ => true

/-- Binds the keys of the line editor, if the user sits at a terminal. -/
def initEditor : Shell σ Unit := do
  if !(← editorAvailable) then return ()
  if !(← isTerminal) then return ()
  (History.bindings.forM bindKey).handle isError fun f =>
    warn ("Warning: Could not configure readline: " ++ f.message)

/-- Reads the file of typed lines, if there is one, and says how many it keeps. -/
def readTypedLines (path : String) (size : Int) : Shell σ Unit := do
  if ← pathExists path then readHistory path
  limitHistory size
  debug .history ("loaded " ++ toString (← historyLength) ++ " history entries from " ++ path)

/-- Writes the file of typed lines, with as many as it keeps. -/
def writeTypedLines (path : String) (size : Int) : Shell σ Unit := do
  limitHistory size
  writeHistory path

/-- Reads the file of typed lines. -/
def loadHistory (path : String) (size : Int) : Shell σ Unit := do
  if ← editorAvailable then
    (readTypedLines path size).handle Fault.isIo fun f =>
      warn ("Warning: Could not load history: " ++ f.message)

/-- Writes the file of typed lines. -/
def saveHistory (path : String) (size : Int) : Shell σ Unit := do
  if ← editorAvailable then
    (writeTypedLines path size).handle Fault.isIo fun f =>
      warn ("Warning: Could not save history: " ++ f.message)

end LineShell.Shell
