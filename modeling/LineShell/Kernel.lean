import LineShell.Fault
import LineShell.Log
import LineShell.Outcome
import LineShell.Path
import LineShell.Text.Utf8

namespace LineShell

open Text (Bytes)

/-!
# What the interpreter asks of its surroundings

* `Request` — everything the interpreter can ask for, and `Request.Reply` — what comes back;
* `Outcome` — a request, like any run of the interpreter, returns, raises a fault, or never ends;
* `Kernel` — surroundings that answer requests, whatever their own state is.

Nothing is assumed of a kernel: any request can fail in any way, at any time.
-/

/-- What a file is opened for. -/
inductive OpenMode
  | read
  | write
  | append
  deriving DecidableEq, Repr

/-- The number of a file that the interpreter has opened. -/
abbrev FileId := Nat

/-- The number of a relay. -/
abbrev RelayId := Nat

/-- Where a standard stream of a new process goes. -/
inductive Stream
  | inherit
  | null
  | pipe
  | file (id : FileId)
  deriving DecidableEq, Repr

/-- The standard streams of a new process. -/
structure Streams where
  stdin : Stream := .inherit
  stdout : Stream := .inherit
  stderr : Stream := .inherit
  deriving DecidableEq, Repr

/-- What becomes of a signal that asks a process to end. -/
inductive Delivery
  | delivered
  | gone
  | denied
  deriving DecidableEq, Repr

/-- What comes from the user at the prompt. -/
inductive Input
  | line (text : String)
  | interrupt
  | endOfInput
  deriving DecidableEq, Repr

/-- Everything the interpreter can ask for. -/
inductive Request
  /-- Opens a file. -/
  | openFile (path : String) (mode : OpenMode)
  /-- Writes to a file, perhaps only to its buffer. -/
  | writeFile (file : FileId) (bytes : Bytes)
  /-- Empties the buffer of a file. -/
  | flushFile (file : FileId)
  /-- Empties the buffer of a file and closes it, even if emptying fails. -/
  | closeFile (file : FileId)
  /-- The path without symbolic links that a path leads to. -/
  | canonical (path : Path)
  /-- Whether a path leads to a directory. -/
  | isDirectory (path : Path)
  /-- Starts a process. -/
  | spawn (argv : List String) (cwd : Path) (streams : Streams)
  /-- The next line of a process's output pipe, nothing at its end. -/
  | readOutput (pid : ProcessId)
  /-- Closes the reading end of a process's output pipe. -/
  | closeOutput (pid : ProcessId)
  /-- Waits for a process to exit. -/
  | wait (pid : ProcessId)
  /-- Waits for a process to exit, but not for long. -/
  | waitBriefly (pid : ProcessId)
  /-- Looks whether a process has exited. -/
  | poll (pid : ProcessId)
  /-- Asks a process to end. -/
  | terminate (pid : ProcessId)
  /-- Waits a little for processes to end; those that have not are the answer. -/
  | survivors (pids : List ProcessId)
  /-- Ends a process. -/
  | kill (pid : ProcessId)
  /-- Starts copying a process's output pipe to another process's input pipe. With no other process
  the output pipe is closed at once. -/
  | startRelay (writer : ProcessId) (reader : Option ProcessId) (chunk : Int)
  /-- Waits for a relay to end. -/
  | joinRelay (relay : RelayId)
  /-- The fault that ended a relay, if one did. -/
  | relayFault (relay : RelayId)
  /-- Whether the console takes bytes, not only text. -/
  | consoleTakesBytes
  /-- Writes bytes to the console. -/
  | writeConsole (bytes : Bytes)
  /-- Writes text to the console. -/
  | print (text : String)
  /-- Sees to it that all written to the console so far is out. -/
  | flushConsole
  /-- Writes a line to the error stream about a line that went wrong. -/
  | report (text : String)
  /-- Writes a line to the error stream about the surroundings. -/
  | warn (text : String)
  /-- Makes a log record. -/
  | log (record : Record)
  /-- Shows a prompt and waits for the user. The flag tells whether the last line was
  interrupted. -/
  | readInput (prompt : String) (afterInterrupt : Bool)
  /-- Whether lines typed before can be kept and walked through. -/
  | editorAvailable
  /-- Whether the user sits at a terminal. -/
  | isTerminal
  /-- Binds a key of the line editor. -/
  | bindKey (binding : String)
  /-- Whether a path leads anywhere. -/
  | exists (path : String)
  /-- Reads a file of typed lines into the line editor. -/
  | readHistory (path : String)
  /-- How many typed lines a written file keeps; a negative number keeps all. -/
  | limitHistory (size : Int)
  /-- How many typed lines the line editor holds. -/
  | historyLength
  /-- Writes the line editor's typed lines to a file. -/
  | writeHistory (path : String)
  deriving DecidableEq, Repr

/-- What comes back from a request. -/
def Request.Reply : Request → Type
  | .openFile .. => FileId
  | .canonical _ => Path
  | .isDirectory _ | .consoleTakesBytes | .editorAvailable | .isTerminal | .exists _ => Bool
  | .spawn .. => ProcessId
  | .readOutput _ => Bytes
  | .wait _ => Int
  | .waitBriefly _ | .poll _ => Option Int
  | .terminate _ => Delivery
  | .survivors _ => List ProcessId
  | .startRelay .. => RelayId
  | .relayFault _ => Option Fault
  | .readInput .. => Input
  | .historyLength => Nat
  | .writeFile .. | .flushFile _ | .closeFile _ | .closeOutput _ | .kill _ | .joinRelay _
  | .writeConsole _ | .print _ | .flushConsole | .report _ | .warn _ | .log _ | .bindKey _
  | .readHistory _ | .limitHistory _ | .writeHistory _ => Unit

/-- How something ends, if it ends. -/
inductive Outcome (α : Type)
  | returned (value : α)
  | raised (fault : Fault)
  | never
  deriving DecidableEq, Repr

/-- Surroundings whose state is a `σ`. -/
structure Kernel (σ : Type) where
  /-- What becomes of a request. -/
  answer : (r : Request) → σ → Outcome r.Reply × σ
  /-- How many rounds the interpreter's two open loops may take, the one that drains a pipe and the
  one that reads lines. A loop that takes more counts as one that never ends. -/
  bound : Nat

end LineShell
