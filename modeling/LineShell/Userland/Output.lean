import LineShell.Userland.Program

namespace LineShell.Userland

open Text (Bytes)

/-!
# Standard output

How what a program writes to its standard output leaves it, and how the program ends where it
cannot.

* `Program.buffered` — a program whose output waits in a buffer;
* `Program.guarded` — a program that ends where its output goes nowhere;
* `Outlet`, `Refusal` — the ways of programs, as data.
-/

namespace Program

variable {α : Type}

/-- How much output waits in a buffer. -/
def bufferSize : Nat := 4096

/-- A program that writes what has waited before it does anything else. -/
def emptied (held : Bytes) (t : Program α) : Program α :=
  if held.isEmpty then t else write 1 held fun _ => t

/-- A program whose standard output waits in a buffer, in which some bytes are already, until the
buffer is full or the program ends. It is emptied before an error message if `flushes` says so. -/
def buffered (flushes : Bool) : Program α → Bytes → Program α
  | done a, held => emptied held (done a)
  | exit status, held => emptied held (exit status)
  | read fd limit next, held => read fd limit fun r => (next r).buffered flushes held
  | write fd bytes next, held =>
    if fd = 1 then
      let all := held ++ bytes
      let full := all.length / bufferSize * bufferSize
      if full = 0 then (next none).buffered flushes all
      else write 1 (all.take full) fun
        | none => (next none).buffered flushes (all.drop full)
        | some e => (next (some e)).buffered flushes []
    else if fd = 2 && flushes then
      emptied held (write 2 bytes fun r => (next r).buffered flushes [])
    else write fd bytes fun r => (next r).buffered flushes held
  | openFile fd path mode next, held =>
    openFile fd path mode fun r => (next r).buffered flushes held
  | close fd next, held => close fd fun r => (next r).buffered flushes held
  | giveBack fd count next, held => giveBack fd count fun r => (next r).buffered flushes held
  | inspect fd next, held => inspect fd fun r => (next r).buffered flushes held
  | look next, held => look fun r => (next r).buffered flushes held
  | identify next, held => identify fun r => (next r).buffered flushes held
  | signal pid number next, held =>
    signal pid number fun r => (next r).buffered flushes held
  | sleep duration next, held => sleep duration fun r => (next r).buffered flushes held

/-- The number of the signal that ends a process which writes where nobody reads. -/
def pipeSignal : Nat := 13

/-- A program that a write ends where nobody reads. Where its standard output takes no more for
another reason, it goes on as `refused` says, if that says anything. -/
def guarded (refused : Option (Nat → Program α)) : Program α → Program α
  | done a => done a
  | exit status => exit status
  | read fd limit next => read fd limit fun r => (next r).guarded refused
  | write fd bytes next => write fd bytes fun
    | none => (next none).guarded refused
    | some e =>
      if e = Fault.pipeBroken then exit (signalled pipeSignal)
      else match fd, refused with
        | 1, some refused => refused e
        | _, _ => (next (some e)).guarded refused
  | openFile fd path mode next => openFile fd path mode fun r => (next r).guarded refused
  | close fd next => close fd fun r => (next r).guarded refused
  | giveBack fd count next => giveBack fd count fun r => (next r).guarded refused
  | inspect fd next => inspect fd fun r => (next r).guarded refused
  | look next => look fun r => (next r).guarded refused
  | identify next => identify fun r => (next r).guarded refused
  | signal pid number next => signal pid number fun r => (next r).guarded refused
  | sleep duration next => sleep duration fun r => (next r).guarded refused

@[simp] theorem emptied_nil (t : Program α) : emptied [] t = t := rfl

/-- What is written to the standard output waits if there is room for it. -/
theorem buffered_write {held bytes : Bytes} (h : (held ++ bytes).length < bufferSize)
    (flushes : Bool) (next : Option Nat → Program α) :
    (write 1 bytes next).buffered flushes held = (next none).buffered flushes (held ++ bytes) := by
  simp only [buffered, if_true, Nat.div_eq_of_lt h, Nat.zero_mul]

end Program

/-- How a program's output leaves it. -/
inductive Outlet
  /-- At once. -/
  | direct
  /-- It waits in a buffer, which is emptied before error messages. -/
  | waiting
  /-- It waits in a buffer, whatever messages there are. -/
  | patient
  deriving DecidableEq, Repr

/-- A program with its output leaving it in a way. -/
def Outlet.of {α : Type} (t : Program α) : Outlet → Program α
  | direct => t
  | waiting => t.buffered true []
  | patient => t.buffered false []

/-- What a program says where its output takes no more, in lines, and what it comes to. -/
structure Refusal where
  complaint : String → List String := fun reason => ["write error: " ++ reason]
  status : Int := 1

/-- The end of a program whose output takes no more. -/
def Refusal.program (r : Refusal) (name : String) (e : Nat) : Program Int := do
  (r.complaint (systemText e)).forM fun text => Program.say 2 (name ++ ": " ++ text ++ "\n")
  .exit r.status

end LineShell.Userland
