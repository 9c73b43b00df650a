import LineShell.Host.Step

namespace LineShell.Host

open Text (Bytes)

/-!
# Scripted programs

Programs that are told what to do: to read all input, to write some bytes, to end.

* `Script` — what a program is told;
* `Scripted` — how far it has come;
* `Scripted.running` — a process that has done all it was told, as its life stands;
* `Scripted.programs` — the programs of a list of scripts by name. Every other name is unknown.
-/

/-- What a program is told to do. -/
structure Script where
  /-- The fault of starting it, if it cannot be started. -/
  fault : Option Fault := none
  /-- What it writes to its output. -/
  out : Bytes := []
  /-- Whether it then writes what it has read. -/
  copies : Bool := false
  /-- What it writes to its error stream. -/
  err : Bytes := []
  status : Int := 0
  /-- Whether it runs on when all is done. -/
  lingers : Bool := false
  input : Pipe := {}
  output : Pipe := {}
  manner : Manner := .exits
  interruptsWait : Bool := false
  deriving DecidableEq, Repr

/-- How far a scripted program has come. -/
inductive Stage
  | reading
  | writing (rest : Bytes)
  | complaining (rest : Bytes)
  deriving DecidableEq, Repr

/-- A scripted program: what it is told, what it has read, and how far it has come. -/
structure Scripted where
  script : Script
  got : Bytes := []
  stage : Stage := .reading
  deriving DecidableEq, Repr

namespace Scripted

/-- How much is read at a time. -/
def readLimit : Nat := 65536

/-- The program with more read, or on its way to writing when there is no more. -/
def takeInput (s : Scripted) : Except Nat Bytes → Scripted
  | .ok [] | .error _ =>
    { s with stage := .writing (s.script.out ++ if s.script.copies then s.got else []) }
  | .ok bytes => { s with got := s.got ++ bytes }

/-- The bytes that are left to be written. -/
def remaining (rest : Bytes) : Except Nat Nat → Bytes
  | .ok count => rest.drop count
  | .error _ => []

/-- What a scripted program does next. -/
def next (s : Scripted) : Action Scripted :=
  match s.stage with
  | .reading => .read 0 readLimit s.takeInput
  | .writing [] => .write 2 s.script.err fun written =>
      { s with stage := .complaining (remaining s.script.err written) }
  | .writing rest => .write 1 rest fun written =>
    { s with stage := .writing (remaining rest written) }
  | .complaining [] => if s.script.lingers then .linger s.script.status else .exit s.script.status
  | .complaining rest => .write 2 rest fun written =>
      { s with stage := .complaining (remaining rest written) }

/-- A process that has done all it was told, as its life stands. -/
def running (pid : ProcessId) (life : Life) (manner : Manner) (outputPipe : Option Nat) :
    Process Scripted where
  pid := pid
  argv := []
  cwd := ⟨.root, []⟩
  streams := {}
  program := { script := {}, stage := .complaining [] }
  life := life
  manner := manner
  outputPipe := outputPipe

/-- The scripted program for some words. -/
def find (scripts : List (String × Script)) (argv : List String) : Except Fault (Launch Scripted) :=
  match argv.head?.bind (List.lookup · scripts) with
  | none => .error (.system Fault.noEntry (some (argv.headD "")))
  | some script =>
    match script.fault with
    | some f => .error f
    | none => .ok {
        program := { script }, input := script.input, output := script.output
        manner := script.manner, interruptsWait := script.interruptsWait, status := script.status }

/-- The programs of some scripts. -/
def programs (scripts : List (String × Script)) : Programs Scripted where
  find _ _ := find scripts
  next := next

end Scripted

end LineShell.Host
