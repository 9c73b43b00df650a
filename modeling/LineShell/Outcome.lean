namespace LineShell

/-!
# What came of a line

* `ProcessId` — the number that the system knows a process by;
* `Failure` — the ways in which a line can fail as a whole;
* `Result` — exit code, process ids, whether the line runs on in the background, and the failure;
* `Result.success` — whether all went well.
-/

/-- The number that the system knows a process by. -/
abbrev ProcessId := Int

/-- How a line failed as a whole. -/
inductive Failure
  | notFound
  | spawn
  | io
  | interrupted
  deriving DecidableEq, Repr

/-- The name of a failure. -/
def Failure.name : Failure → String
  | .notFound => "not found"
  | .spawn => "spawn"
  | .io => "io"
  | .interrupted => "interrupted"

/-- The failure of a name. -/
def Failure.ofName? (name : String) : Option Failure :=
  [Failure.notFound, .spawn, .io, .interrupted].find? (·.name == name)

@[simp] theorem Failure.ofName?_name (f : Failure) : ofName? f.name = some f := by
  cases f <;> decide

/-- What came of running a line. -/
structure Result where
  exitCode : Option Int := none
  pids : List ProcessId := []
  background : Bool := false
  failure : Option Failure := none
  deriving DecidableEq, Repr

/-- Whether all went well: no failure, and an exit code of zero unless nobody waits for it. -/
def Result.success (r : Result) : Bool :=
  r.failure.isNone && (r.background || r.exitCode == some 0)

end LineShell
