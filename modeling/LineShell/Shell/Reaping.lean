import LineShell.Shell

namespace LineShell

/-!
# The jobs of a session

* `Shell.register` — puts a job in, and says so unless told not to;
* `Shell.reap` — takes out the jobs whose processes have exited, in the order of registration;
* `Shell.terminateAll` — ends all jobs: first it asks them to end, then it ends those that have
  not, and at last it takes all of them out.
-/

/-- A job that was taken out because its process had exited. -/
structure Reaped where
  pid : ProcessId
  text : String
  code : Int
  deriving DecidableEq, Repr

namespace Shell

variable {σ : Type}

/-- Changes the registry. -/
def modifyJobs (f : Jobs → Jobs) : Shell σ Unit :=
  modifySession fun s => { s with jobs := f s.jobs }

/-- Puts a job in. -/
def register (job : Job) (announce : Bool) : Shell σ Unit := do
  modifyJobs (·.register job)
  debug .jobs ("background job " ++ toString job.pid ++ " registered: " ++ job.text)
  if announce then
    printLine ("[" ++ toString job.pid ++ "] started in background: " ++ job.text)

/-- Takes a job out if its process has exited. -/
def reapJob (announce : Bool) (job : Job) : Shell σ (Option Reaped) := do
  match ← poll job.pid with
  | none => return none
  | some code =>
    modifyJobs (·.remove job.pid)
    debug .jobs ("background job " ++ toString job.pid ++ " reaped with status " ++ toString code)
    if announce && !job.quiet then
      printLine ("[" ++ toString job.pid ++ "] done: " ++ job.text ++
        " (exit " ++ toString code ++ ")")
    return some ⟨job.pid, job.text, code⟩

/-- Takes out the jobs whose processes have exited. -/
def reap (announce : Bool) : Shell σ (List Reaped) := do
  let reaped ← (← session).jobs.list.mapM (reapJob announce)
  return reaped.filterMap id

/-- Asks a job's process to end, unless it has exited. The answer is the process, if the signal
was delivered. -/
def terminateJob (announce : Bool) (job : Job) : Shell σ (Option ProcessId) := do
  if (← poll job.pid).isSome then return none
  else match ← terminate job.pid with
    | .delivered =>
      if announce then printLine ("Terminated background job [" ++ toString job.pid ++ "]")
      return some job.pid
    | .gone => return none
    | .denied =>
      warning .jobs ("could not terminate job " ++ toString job.pid ++
        ": (pid=" ++ toString job.pid ++ ")")
      return none

/-- Waits a little for a job's process. -/
def awaitJob (job : Job) : Shell σ Unit := do
  if (← waitBriefly job.pid).isNone then
    warning .jobs ("job " ++ toString job.pid ++ " did not exit")

/-- Ends all jobs and takes them out. -/
def terminateAll (announce : Bool) : Shell σ Unit := do
  let _ ← reap false
  let asked ← (← session).jobs.list.mapM (terminateJob announce)
  let alive ← survivors (asked.filterMap id)
  alive.forM kill
  (← session).jobs.list.forM awaitJob
  modifyJobs fun _ => {}

@[simp] theorem modifyJobs_run (f : Jobs → Jobs) (k : Kernel σ) (w : World σ) :
    modifyJobs f k w =
      (.returned (), { w with session := { w.session with jobs := f w.session.jobs } }) := rfl

end Shell

end LineShell
