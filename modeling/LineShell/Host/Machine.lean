import LineShell.FileSystem.Edit
import LineShell.Host.Pipe
import LineShell.Host.Program

namespace LineShell.Host

open Text (Bytes)

/-!
# Machines

The state of a host that runs programs of state `S` for an interpreter.

* `Channel`, `Opening`, `Handle` — where descriptors lead, open files, and the interpreter's files
  with what waits in their buffers;
* `Life`, `Process` — processes;
* `RelayTask` — relays;
* `Console`, `Terminal`, `Editor` — the interpreter's console, the user at it, the line editor;
* `Machine` — all of it, and a clock that stands still unless everybody waits.
-/

/-- Where a descriptor leads. -/
inductive Channel
  /-- To nothing: no bytes come from there, and all that go there vanish. -/
  | nothing
  /-- To the console. -/
  | console
  /-- To the error stream. -/
  | errors
  /-- To an end of a pipe. -/
  | pipe (index : Nat)
  /-- To an open file. -/
  | opening (index : Nat)
  deriving DecidableEq, Repr

/-- An open file: its node, and where reading and writing go on. -/
structure Opening where
  node : Inode
  offset : Nat := 0
  append : Bool := false
  deriving DecidableEq, Repr

/-- A file that the interpreter has opened, with the bytes that wait in its buffer. -/
structure Handle where
  opening : Nat
  path : String
  mode : OpenMode
  pending : Bytes := []
  closed : Bool := false
  deriving DecidableEq, Repr

/-- How a process lives. -/
inductive Life
  | running
  | sleeping (until_ : Nat)
  /-- All is done, and it runs on. -/
  | lingering (status : Int)
  /-- It runs on for so many looks at it. -/
  | leaving (looks : Nat) (status : Int)
  | exited (status : Int)
  deriving DecidableEq, Repr

/-- The two signals that end a process. -/
inductive Signal
  | terminate
  | kill
  deriving DecidableEq, Repr

/-- A process. -/
structure Process (S : Type) where
  pid : ProcessId
  argv : List String
  cwd : Path
  streams : Streams
  program : S
  /-- The pipes that the interpreter holds the other ends of. -/
  inputPipe : Option Nat := none
  outputPipe : Option Nat := none
  /-- Its open descriptors. -/
  descriptors : List (Nat × Channel) := []
  /-- What came of its reads from its standard input, the last one first. -/
  intake : List (Except Nat Bytes) := []
  life : Life := .running
  /-- The status that the interpreter has seen. -/
  observed : Option Int := none
  /-- The signals that were delivered, the last one first. -/
  signals : List Signal := []
  manner : Manner := .exits
  interruptsWait : Bool := false
  status : Int := 0

/-- A relay: it moves bytes from one pipe to another. -/
structure RelayTask where
  source : Nat
  sink : Option Nat
  chunk : Int
  /-- What has been read and is still to be written. -/
  pending : Bytes := []
  /-- The size of the chunk that is being written. -/
  size : Nat := 0
  copied : Nat := 0
  /-- The fault that ended it. -/
  fault : Option Fault := none
  /-- The fault that ended it unheard of. -/
  death : Option Fault := none
  done : Bool := false
  deriving DecidableEq, Repr

/-- What was written to a stream, the last part first. -/
abbrev Chunks := List Bytes

/-- The interpreter's console and error stream. -/
structure Console where
  out : Chunks := []
  err : Chunks := []
  /-- Whether the console takes bytes. -/
  takesBytes : Bool := true
  /-- The gravity from which log records are shown. -/
  threshold : Option Nat := none
  deriving DecidableEq, Repr

/-- What the user does next. -/
inductive Deed
  | enters (line : String)
  | interrupts
  /-- These processes exit meanwhile. -/
  | awaits (pids : List ProcessId)
  deriving DecidableEq, Repr

/-- A prompt, and what was written until the next one. -/
structure Visit where
  prompt : String
  out : Bytes := []
  err : Bytes := []
  /-- Whether a line was interrupted by then. -/
  interrupted : Bool := false
  deriving DecidableEq, Repr

/-- The user at the console. -/
structure Terminal where
  deeds : List Deed := []
  /-- Whether prompts are written to the console, rather than kept apart with what follows each. -/
  echoes : Bool := false
  /-- The prompts shown so far, the last one first. -/
  visits : List Visit := []
  /-- What was written before the first prompt. -/
  before : Bytes × Bytes := ([], [])
  deriving DecidableEq, Repr

/-- The line editor. -/
structure Editor where
  available : Bool := true
  atTerminal : Bool := false
  entries : List Bytes := []
  limit : Int := -1
  bindings : List String := []
  /-- The number of the binding that fails, and how. -/
  flaw : Option (Nat × Fault) := none
  deriving DecidableEq, Repr

/-- The state of a host. -/
structure Machine (S : Type) where
  files : FileSystem := .empty
  /-- The directory that paths are seen from which are not absolute. -/
  cwd : Path := ⟨.root, []⟩
  openings : Array Opening := #[]
  handles : Array Handle := #[]
  pipes : Array Pipe := #[]
  processes : Array (Process S) := #[]
  relays : Array RelayTask := #[]
  console : Console := {}
  terminal : Terminal := {}
  editor : Editor := {}
  clock : Nat := 0
  /-- The number of the next process. -/
  nextPid : ProcessId := 1
  /-- Where the standard streams of the interpreter lead, which processes inherit. -/
  inherited : Channel × Channel × Channel := (.nothing, .nothing, .nothing)
  /-- The programs that could not be started, the last one first. -/
  failures : List String := []
  /-- How many turns have been taken. -/
  turn : Nat := 0

namespace Machine

variable {S : Type}

/-- All that was written to the console, and to the error stream. -/
def written (m : Machine S) : Bytes × Bytes :=
  (m.console.out.reverse.flatten, m.console.err.reverse.flatten)

/-- Writes to the console. -/
def writeOut (m : Machine S) (bytes : Bytes) : Machine S :=
  { m with console := { m.console with out := bytes :: m.console.out } }

/-- Writes to the error stream. -/
def writeErr (m : Machine S) (bytes : Bytes) : Machine S :=
  { m with console := { m.console with err := bytes :: m.console.err } }

/-- The machine with nothing written to the console yet. -/
def clearConsole (m : Machine S) : Machine S :=
  { m with console := { m.console with out := [], err := [] } }

/-- Shows a log record, if it is grave enough. -/
def log (m : Machine S) (r : Record) : Machine S :=
  if m.console.threshold.any (· ≤ r.level.gravity) then m.writeErr (Text.encode r.line) else m

/-- Changes a pipe. -/
def modifyPipe (m : Machine S) (i : Nat) (f : Pipe → Pipe) : Machine S :=
  { m with pipes := m.pipes.modify i f }

/-- Changes a process. -/
def modifyProcess (m : Machine S) (i : Nat) (f : Process S → Process S) : Machine S :=
  { m with processes := m.processes.modify i f }

/-- Changes a relay. -/
def modifyRelay (m : Machine S) (i : Nat) (f : RelayTask → RelayTask) : Machine S :=
  { m with relays := m.relays.modify i f }

/-- Where the process of a number stands among the processes. -/
def indexOf? (m : Machine S) (pid : ProcessId) : Option Nat :=
  m.processes.findIdx? (·.pid == pid)

/-- The process of a number. -/
def process? (m : Machine S) (pid : ProcessId) : Option (Process S) :=
  (m.indexOf? pid).bind (m.processes[·]?)

/-- The machine with a process, in the place of the one that had its number before. -/
def adopt (m : Machine S) (p : Process S) : Machine S :=
  match m.indexOf? p.pid with
  | some i => m.modifyProcess i fun _ => p
  | none => { m with processes := m.processes.push p }

/-- The pipe that a process writes its output to. -/
def outputPipe? (m : Machine S) (pid : ProcessId) : Option Nat :=
  (m.process? pid).bind Process.outputPipe

/-- The pipe that a process reads its input from. -/
def inputPipe? (m : Machine S) (pid : ProcessId) : Option Nat :=
  (m.process? pid).bind Process.inputPipe

/-! What is found where something was changed, and elsewhere. -/

section Lookup

variable {m : Machine S} {i j : Nat}

theorem pipes_modifyPipe_self {pipe : Pipe} (h : m.pipes[i]? = some pipe) (f : Pipe → Pipe) :
    (m.modifyPipe i f).pipes[i]? = some (f pipe) := by
  rw [modifyPipe, Array.getElem?_modify, if_pos rfl, h]
  rfl

theorem pipes_modifyPipe_ne (h : i ≠ j) (f : Pipe → Pipe) :
    (m.modifyPipe i f).pipes[j]? = m.pipes[j]? := by
  rw [modifyPipe, Array.getElem?_modify, if_neg h]

theorem processes_modifyProcess_self {p : Process S} (h : m.processes[i]? = some p)
    (f : Process S → Process S) : (m.modifyProcess i f).processes[i]? = some (f p) := by
  rw [modifyProcess, Array.getElem?_modify, if_pos rfl, h]
  rfl

theorem processes_modifyProcess_ne (h : i ≠ j) (f : Process S → Process S) :
    (m.modifyProcess i f).processes[j]? = m.processes[j]? := by
  rw [modifyProcess, Array.getElem?_modify, if_neg h]

theorem relays_modifyRelay_self {r : RelayTask} (h : m.relays[i]? = some r)
    (f : RelayTask → RelayTask) : (m.modifyRelay i f).relays[i]? = some (f r) := by
  rw [modifyRelay, Array.getElem?_modify, if_pos rfl, h]
  rfl

theorem relays_modifyRelay_ne (h : i ≠ j) (f : RelayTask → RelayTask) :
    (m.modifyRelay i f).relays[j]? = m.relays[j]? := by
  rw [modifyRelay, Array.getElem?_modify, if_neg h]

end Lookup

end Machine

end LineShell.Host
