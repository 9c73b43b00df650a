import LineShell.Shell
import LineShell.Wiring

namespace LineShell

/-!
# The files of a stage

* `StageFiles` — the files that a stage's wiring takes, opened;
* `Shell.openStage` — opens them in the order input, output, error. If one cannot be opened, those
  before it are closed again;
* `Shell.closing` — does something, then closes files, the last one first;
* `StageFiles.streams` — the standard streams that files and wiring make.
-/

/-- The files that a stage's wiring takes, opened. -/
structure StageFiles where
  input : Option FileId := none
  output : Option FileId := none
  error : Option FileId := none
  deriving DecidableEq, Repr

namespace StageFiles

/-- The files of a stage, the last one first. -/
def ids (files : StageFiles) : List FileId :=
  files.error.toList ++ files.output.toList ++ files.input.toList

/-- A stream that goes to a file, or else where the one who starts the process has it. -/
def stream : Option FileId → Stream
  | some id => .file id
  | none => .inherit

/-- The standard streams that files and wiring make. A pipe takes precedence over a file, for one
end each also where the wiring has none. -/
def streams (files : StageFiles) (w : Wiring) (pipeStdin : Bool) (pipeStdout : Bool) : Streams where
  stdin := if w.stdin = .pipe || pipeStdin then .pipe else stream files.input
  stdout := if w.stdout = .pipe || pipeStdout then .pipe else stream files.output
  stderr := stream files.error

end StageFiles

namespace Shell

variable {σ α : Type}

/-- Closes files in order, all of them whatever happens. The answer is the last fault. -/
def closeAll : List FileId → Shell σ (Option Fault)
  | [] => return none
  | id :: ids => do
    let closed ← (closeFile id).attempt
    let later ← closeAll ids
    return match later, closed with
      | some f, _ => some f
      | none, .error f => some f
      | none, .ok _ => none

/-- Does something, then closes files. A fault of closing them takes the place of any before. -/
def closing (files : List FileId) (x : Shell σ α) : Shell σ α := do
  let result ← x.attempt
  match ← closeAll files, result with
  | some f, _ => raise f
  | none, .ok a => return a
  | none, .error f => raise f

/-- Opens the file that a redirection operand names. -/
def openTarget (operand : String) (mode : OpenMode) : Shell σ FileId := do
  let s ← session
  (openFile (s.resolve operand).toString mode).handle Fault.isIo fun f =>
    raise (.cannotOpen operand f.reason)

/-- Opens a file if there is one to open. If it cannot be opened, other files are closed. -/
def openOptional (operand : Option String) (mode : OpenMode) (others : List FileId) :
    Shell σ (Option FileId) :=
  match operand with
  | none => return none
  | some operand => some <$> (openTarget operand mode).handle Fault.isCannotOpen fun f =>
      closing others (raise f)

/-- Opens the files that a stage's wiring takes. -/
def openStage (w : Wiring) : Shell σ StageFiles := do
  let input ← openOptional w.inputPath .read []
  let output ← openOptional w.outputPath (if w.append then .append else .write) input.toList
  let error ← openOptional w.errorPath .write (output.toList ++ input.toList)
  return { input, output, error }

@[simp] theorem closeAll_nil : (closeAll [] : Shell σ (Option Fault)) = pure none := rfl

end Shell

@[simp] theorem StageFiles.streams_default (w : Wiring) (h : w.stdin = .inherit)
    (h' : w.stdout = .inherit) : ({} : StageFiles).streams w false false = {} := by
  simp [streams, h, h', stream]

end LineShell
