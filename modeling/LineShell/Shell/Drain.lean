import LineShell.Shell

namespace LineShell.Shell

open Text (Bytes)

/-!
# Draining a pipe

* `drainTo` — hands on a process's output line by line until it ends;
* `drain` — copies a process's output to a file, or else to the console. A console that takes only
  text gets each line decoded on its own.
-/

variable {σ : Type}

/-- Hands on a process's output line by line until it ends. -/
def drainTo (pid : ProcessId) (put : Bytes → Shell σ Unit) : Nat → Shell σ Unit
  | 0 => never
  | rounds + 1 => do
    match ← readOutput pid with
    | [] => return ()
    | line => do
      put line
      drainTo pid put rounds

/-- Copies a process's output to a file, or else to the console. -/
def drain (pid : ProcessId) (sink : Option FileId) : Shell σ Unit := do
  let rounds ← bound
  match sink with
  | some file =>
    drainTo pid (writeFile file) rounds
    flushFile file
  | none =>
    if ← consoleTakesBytes then
      flushConsole
      drainTo pid writeConsole rounds
    else
      drainTo pid (fun line => print (Text.decodeLossy line)) rounds
    flushConsole

end LineShell.Shell
