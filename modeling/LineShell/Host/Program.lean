import LineShell.FileSystem
import LineShell.Host.Pipe
import LineShell.Kernel

namespace LineShell.Host

open Text (Bytes)

/-!
# Programs

What a host knows of the programs that it runs. The state of a program is an `S`.

* `FileStatus` — what is known of an open file;
* `Action` — what a program does next, and what it becomes by doing it;
* `Launch` — a program that is about to run, its pipes, and how its process takes to being waited
  for and to signals;
* `Programs` — the programs that can be started, and what they do.
-/

/-- What is known of a file that a descriptor leads to. -/
structure FileStatus where
  node : Inode
  size : Nat
  /-- Where reading goes on. -/
  offset : Nat
  deriving DecidableEq, Repr

/-- What a program does next. -/
inductive Action (S : Type)
  /-- Reads from a descriptor, at most `limit` bytes; nothing is the end. -/
  | read (fd limit : Nat) (next : Except Nat Bytes → S)
  /-- Writes to a descriptor; the answer is how many bytes were written. -/
  | write (fd : Nat) (bytes : Bytes) (next : Except Nat Nat → S)
  /-- Opens a file as a descriptor. -/
  | openFile (fd : Nat) (path : String) (mode : OpenMode) (next : Option Nat → S)
  /-- Closes a descriptor. -/
  | close (fd : Nat) (next : S)
  /-- Gives back the last bytes that were read, where a descriptor leads to a file. -/
  | giveBack (fd count : Nat) (next : S)
  /-- Asks for the file that a descriptor leads to, if it leads to one. -/
  | inspect (fd : Nat) (next : Option FileStatus → S)
  /-- Looks at the file system. -/
  | look (next : FileSystem → S)
  /-- Asks for its own number. -/
  | identify (next : ProcessId → S)
  /-- Sends a process a signal that ends it, or with zero only looks for it; the answer is whether
  there is such a process. -/
  | signal (pid : ProcessId) (number : Nat) (next : Bool → S)
  /-- Sleeps for so many microseconds. -/
  | sleep (duration : Nat) (next : S)
  /-- Has nothing left to do, but runs on until something ends it. -/
  | linger (status : Int)
  /-- Ends. A negative status is the number of the signal that ended it. -/
  | exit (status : Int)

/-- How a process takes to a signal that asks it to end. -/
inductive Manner
  /-- It ends. -/
  | exits
  /-- It runs on. -/
  | ignores
  /-- It runs on, and is gone by the time it is to be killed. -/
  | ignoresThenGone
  /-- There is no process of its number any more. -/
  | gone
  /-- It may not be sent signals. -/
  | denies
  deriving DecidableEq, Repr

/-- A program that is about to run. -/
structure Launch (S : Type) where
  program : S
  /-- The pipe its standard input is, if it is one. -/
  input : Pipe := {}
  /-- The pipe its standard output is, if it is one. -/
  output : Pipe := {}
  manner : Manner := .exits
  /-- Whether the user interrupts the first wait for it. -/
  interruptsWait : Bool := false
  /-- The status it ends with if it is ended from outside without a signal. -/
  status : Int := 0

/-- The programs that can be started, and what they do. -/
structure Programs (S : Type) where
  /-- Finds the program for some words in a directory. -/
  find : FileSystem → Path → List String → Except Fault (Launch S)
  /-- What a program does next. -/
  next : S → Action S

end LineShell.Host
