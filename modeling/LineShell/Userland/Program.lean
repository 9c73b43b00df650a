import LineShell.Host.Program

namespace LineShell.Userland

open Host
open Text (Bytes)

/-!
# Programs as trees

A program is what it has left to do, as a tree: each node is something it does, and its branches are
what it does next, by what came of it.

* `Program` — a program that comes to an `α`, unless it exits before;
* `Program.caught` — a program whose exit is only its result, as one that another program runs;
* `Program.onStreams` — a program whose descriptors are others;
* `Program.connected` — two programs with a pipe between them, run as one;
* `Program.next` — what a program does next on a host.
-/

/-- What a program has left to do. -/
inductive Program (α : Type)
  | done (value : α)
  | exit (status : Int)
  /-- Reads some bytes; nothing is the end. -/
  | read (fd limit : Nat) (next : Except Nat Bytes → Program α)
  /-- Writes all of some bytes, unless there is an error. -/
  | write (fd : Nat) (bytes : Bytes) (next : Option Nat → Program α)
  /-- Opens a file as a descriptor, unless there is an error. -/
  | openFile (fd : Nat) (path : String) (mode : OpenMode) (next : Option Nat → Program α)
  | close (fd : Nat) (next : Unit → Program α)
  /-- Gives back the last bytes that were read, where a descriptor leads to a file. -/
  | giveBack (fd count : Nat) (next : Unit → Program α)
  /-- Asks for the file that a descriptor leads to, if it leads to one. -/
  | inspect (fd : Nat) (next : Option FileStatus → Program α)
  | look (next : FileSystem → Program α)
  | identify (next : ProcessId → Program α)
  /-- Sends a process a signal that ends it, or with zero only looks for it. -/
  | signal (pid : ProcessId) (number : Nat) (next : Bool → Program α)
  | sleep (duration : Nat) (next : Unit → Program α)

namespace Program

variable {α β γ : Type}

/-- One program after another. -/
protected def bind (f : α → Program β) : Program α → Program β
  | done a => f a
  | exit status => exit status
  | read fd limit next => read fd limit fun r => (next r).bind f
  | write fd bytes next => write fd bytes fun r => (next r).bind f
  | openFile fd path mode next => openFile fd path mode fun r => (next r).bind f
  | close fd next => close fd fun r => (next r).bind f
  | giveBack fd count next => giveBack fd count fun r => (next r).bind f
  | inspect fd next => inspect fd fun r => (next r).bind f
  | look next => look fun r => (next r).bind f
  | identify next => identify fun r => (next r).bind f
  | signal pid number next => signal pid number fun r => (next r).bind f
  | sleep duration next => sleep duration fun r => (next r).bind f

instance : Monad Program where
  pure := done
  bind t f := Program.bind f t

/-! ### Single steps -/

/-- Reads some bytes. -/
def take (fd limit : Nat) : Program (Except Nat Bytes) := read fd limit done

/-- Writes some bytes; an error is not noticed. -/
def put (fd : Nat) (bytes : Bytes) : Program Unit := write fd bytes fun _ => done ()

/-- Writes a text. -/
def say (fd : Nat) (text : String) : Program Unit := put fd (Text.encode text)

/-- Opens a file as a descriptor. The answer is the error, if there is one. -/
def openAs (fd : Nat) (path : String) (mode : OpenMode) : Program (Option Nat) :=
  openFile fd path mode done

/-- The file that a descriptor leads to, if it leads to one. -/
def statusOf (fd : Nat) : Program (Option FileStatus) := inspect fd done

/-- Closes a descriptor. -/
def shut (fd : Nat) : Program Unit := close fd done

/-- Sends a process a signal. The answer is whether there is such a process. -/
def send (pid : ProcessId) (number : Nat) : Program Bool := signal pid number done

/-- The file system as it is. -/
def survey : Program FileSystem := look done

/-! ### Programs changed throughout -/

/-- The status of a process that a signal ended. -/
def signalled (signal : Nat) : Int := -signal

/-- A program whose exit is only its result. -/
def caught : Program Int → Program Int
  | done status => done status
  | exit status => done status
  | read fd limit next => read fd limit fun r => (next r).caught
  | write fd bytes next => write fd bytes fun r => (next r).caught
  | openFile fd path mode next => openFile fd path mode fun r => (next r).caught
  | close fd next => close fd fun r => (next r).caught
  | giveBack fd count next => giveBack fd count fun r => (next r).caught
  | inspect fd next => inspect fd fun r => (next r).caught
  | look next => look fun r => (next r).caught
  | identify next => identify fun r => (next r).caught
  | signal pid number next => signal pid number fun r => (next r).caught
  | sleep duration next => sleep duration fun r => (next r).caught

/-- A program whose descriptors are others. -/
def onStreams (f : Nat → Nat) : Program α → Program α
  | done a => done a
  | exit status => exit status
  | read fd limit next => read (f fd) limit fun r => (next r).onStreams f
  | write fd bytes next => write (f fd) bytes fun r => (next r).onStreams f
  | openFile fd path mode next => openFile (f fd) path mode fun r => (next r).onStreams f
  | close fd next => close (f fd) fun r => (next r).onStreams f
  | giveBack fd count next => giveBack (f fd) count fun r => (next r).onStreams f
  | inspect fd next => inspect (f fd) fun r => (next r).onStreams f
  | look next => look fun r => (next r).onStreams f
  | identify next => identify fun r => (next r).onStreams f
  | signal pid number next => signal pid number fun r => (next r).onStreams f
  | sleep duration next => sleep duration fun r => (next r).onStreams f

/-- A program whose first step is kept and whose branches are others. One that has no step left is
given whole. -/
def onward (f : Program α → Program β) : Program α → Program β
  | done a => f (done a)
  | exit status => f (exit status)
  | read fd limit next => read fd limit fun r => f (next r)
  | write fd bytes next => write fd bytes fun r => f (next r)
  | openFile fd path mode next => openFile fd path mode fun r => f (next r)
  | close fd next => close fd fun r => f (next r)
  | giveBack fd count next => giveBack fd count fun r => f (next r)
  | inspect fd next => inspect fd fun r => f (next r)
  | look next => look fun r => f (next r)
  | identify next => identify fun r => f (next r)
  | signal pid number next => signal pid number fun r => f (next r)
  | sleep duration next => sleep duration fun r => f (next r)

/-- The status that a shell sees of a program that it has run. -/
def seenStatus (status : Int) : Int := if status < 0 then 128 - status else status

/-- Runs on until a program ends, or writes to its standard output, which nobody reads. -/
def abandoned : Nat → Program Int → Program Unit
  | 0, _ => done ()
  | _, done _ | _, exit _ | _, write 1 _ _ => done ()
  | fuel + 1, p => p.onward (abandoned fuel)

/-- How many bytes a pipe holds. -/
def pipeCapacity : Nat := 65536

/-- Whether a program can go on without time passing, and without more room for its output than
there is behind `waiting` bytes. -/
def goesOn (waiting : Nat) : Program Int → Bool
  | done _ | exit _ | sleep .. => false
  | write 1 _ _ => waiting < pipeCapacity
  | _ => true

/-- Two programs with a pipe between them, of which `buffer` is in the pipe. The second runs only
where the first cannot go on. -/
def connected : Nat → Program Int → Bytes → Program Int → Program Int
  | 0, _, _, _ => exit 1
  | fuel + 1, left, buffer, right =>
    if left.goesOn buffer.length then
      match left with
      | write 1 bytes go => connected fuel (go none) (buffer ++ bytes) right
      | left => left.onward fun left => connected fuel left buffer right
    else match right with
      | done status | exit status => do
        abandoned fuel left
        return seenStatus status
      | read 0 limit next =>
        if !buffer.isEmpty then
          connected fuel left (buffer.drop limit) (next (.ok (buffer.take limit)))
        else match left with
          | done _ | exit _ => connected fuel left [] (next (.ok []))
          | left => left.onward fun left => connected fuel left [] right
      | right => right.onward (connected fuel left buffer)

/-! ### Programs on a host -/

/-- What a program does next. What was not written yet is written next. -/
def next : Program Int → Action (Program Int)
  | done status | exit status => .exit status
  | read fd limit next => .read fd limit next
  | write fd bytes next => .write fd bytes fun
    | .ok count =>
      if count < bytes.length then write fd (bytes.drop count) next else next none
    | .error e => next (some e)
  | openFile fd path mode next => .openFile fd path mode next
  | close fd next => .close fd (next ())
  | giveBack fd count next => .giveBack fd count (next ())
  | inspect fd next => .inspect fd next
  | look next => .look next
  | identify next => .identify next
  | signal pid number next => .signal pid number next
  | sleep duration next => .sleep duration (next ())

/-! ### How programs compose -/

@[simp] theorem pure_bind_run (a : α) (f : α → Program β) : (pure a : Program α) >>= f = f a := rfl

@[simp] theorem exit_bind (status : Int) (f : α → Program β) :
    exit status >>= f = exit status := rfl

/-- Mapping the identity changes nothing. -/
theorem bind_done (t : Program α) : t.bind done = t := by
  induction t <;> simp_all [Program.bind]
  funext reached
  cases reached <;> simp_all

/-- Doing three things in order does not depend on how they are grouped. -/
theorem bind_assoc_run (t : Program α) (f : α → Program β) (g : β → Program γ) :
    (t.bind f).bind g = t.bind fun a => (f a).bind g := by
  induction t <;> simp_all [Program.bind]
  funext reached
  cases reached <;> simp_all

instance : LawfulMonad Program :=
  LawfulMonad.mk' Program (fun t => bind_done t) (fun _ _ => rfl) bind_assoc_run

/-- Descriptors that are the same change nothing. -/
@[simp] theorem onStreams_id (t : Program α) : t.onStreams id = t := by
  induction t <;> simp_all [onStreams]
  funext reached
  cases reached <;> simp_all

end Program

end LineShell.Userland
