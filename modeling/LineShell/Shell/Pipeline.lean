import LineShell.Shell.Drain
import LineShell.Shell.Single

namespace LineShell.Shell

/-!
# Running a pipeline

* `openStages` — opens the files of the stages, as far as they can be opened;
* `launch` — starts the stages in order, with a relay from each process that was started to the
  next stage;
* `leaveInBackground` — leaves a background line's processes to the registry;
* `collect` — drains the last stage, then waits for it, for the relays and for the other stages;
* `runPipeline` — runs a line of several commands.
-/

variable {σ : Type}

/-- The stage before the one that is to be started. -/
inductive Predecessor
  | none
  | missing
  | running (pid : ProcessId)
  deriving DecidableEq, Repr

/-- A stage that is to be started: its command, wiring and files. -/
structure Plan where
  command : Command
  wiring : Wiring
  files : StageFiles
  deriving DecidableEq, Repr

/-- Opens the files of the stages in order, up to the first that cannot be opened. -/
def openStages : List (Command × Wiring) → Shell σ (List Plan × Option Fault)
  | [] => return ([], none)
  | (command, wiring) :: stages => do
    match ← (openStage wiring).attempt with
    | .error f => return ([], some f)
    | .ok files => do
      let (plans, fault) ← openStages stages
      return (⟨command, wiring, files⟩ :: plans, fault)

/-- The files of all stages, the last one first. -/
def idsOf (plans : List Plan) : List FileId := (plans.reverse.map (·.files.ids)).flatten

/-- The standard streams of a stage. Where the stage before it is missing, its input is empty; the
output of a foreground line's last stage is a pipe. -/
def stageStreams (foreground : Bool) (before : Predecessor) (plan : Plan) (last : Bool) : Streams :=
  let streams := plan.files.streams plan.wiring false (last && foreground)
  if before = .missing then { streams with stdin := .null } else streams

/-- Starts the stages in order. Each process that was started gets a relay to the next stage, also
where that one was not. -/
def launch (foreground : Bool) (chunk : Int) : Predecessor → List Plan →
    Shell σ (List Stage × List RelayId)
  | _, [] => return ([], [])
  | before, plan :: plans => do
    let pid ← start plan.command (stageStreams foreground before plan plans.isEmpty)
    let relay ← match before with
      | .running up => do
        let relay ← startRelay up pid chunk
        pure [relay]
      | _ => pure []
    let next := match pid with
      | some pid => Predecessor.running pid
      | none => .missing
    let (stages, relays) ← launch foreground chunk next plans
    return (⟨plan.command, pid⟩ :: stages, relay ++ relays)

/-- Leaves a background line's processes to the registry. Only the last stage's end is worth
announcing. -/
def leaveInBackground (line : CommandLine) (stages : List Stage) : Shell σ Unit := do
  (pidsOf stages.dropLast).forM fun pid => register ⟨pid, line.text, true⟩ false
  match stages.getLast?.bind Stage.pid with
  | none => return ()
  | some pid => register ⟨pid, line.text, false⟩ true

/-- Drains the last stage and waits for it. -/
def drainLast (sink : Option FileId) : Option ProcessId → Shell σ Int
  | none => return notStarted
  | some pid => do
    drain pid sink
    closeOutput pid
    wait pid

/-- Waits for the relays, then for all stages but the last. -/
def awaitOthers (stages : List Stage) (relays : List RelayId) : Shell σ Unit := do
  relays.forM joinRelay
  (pidsOf stages.dropLast).forM fun pid => do
    let _ ← wait pid

/-- What came of the last stage, and what came of waiting: the exit code is known even if a wait
after it failed. -/
structure Collected where
  exitCode : Option Int
  fault : Option Fault
  deriving DecidableEq, Repr

/-- Drains the last stage, then waits for it, for the relays and for the other stages. -/
def collect (sink : Option FileId) (stages : List Stage) (relays : List RelayId) :
    Shell σ Collected := do
  match ← (drainLast sink (stages.getLast?.bind Stage.pid)).attempt with
  | .error f => return ⟨none, some f⟩
  | .ok code =>
    match ← (awaitOthers stages relays).attempt with
    | .error f => return ⟨some code, some f⟩
    | .ok _ => return ⟨some code, none⟩

/-- How far a pipeline has come when its files are closed. -/
inductive Ending
  /-- Nothing is left to be said. -/
  | done (result : Result)
  /-- All processes have exited; the relays may have met faults. -/
  | exited (result : Result) (relays : List RelayId) (lastStarted : Bool)
  deriving DecidableEq, Repr

/-- Waits for a foreground line that has been started. A fault of draining or waiting is reported,
and then all processes are waited for; after an interrupt they are left to the registry. -/
def awaitPipeline (sink : Option FileId) (stages : List Stage) (relays : List RelayId)
    (result : Result) : Shell σ Ending := do
  let collected ← collect sink stages relays
  let result := { result with exitCode := collected.exitCode }
  match collected.fault with
  | none => return .exited result relays (stages.getLast?.bind Stage.pid).isSome
  | some .interrupt =>
    leaveInterrupted "error running pipeline: interrupted" stages
    return .done { result with failure := some .interrupted }
  | some f =>
    if f.isIo then
      report ("error running pipeline: " ++ f.message)
      (pidsOf stages).forM fun pid => do
        let _ ← wait pid
      return .done { result with failure := some .io }
    else raise f

/-- Reports that a line's files cannot be opened. -/
def refuse (f : Fault) : Shell σ Ending :=
  if f.isCannotOpen then do
    report f.message
    return .done { exitCode := some 1, failure := some .io }
  else raise f

/-- Starts the stages of a line and, in the foreground, waits for them. -/
def runStages (line : CommandLine) (plans : List Plan) : Shell σ Ending := do
  let chunk := (← session).settings.relayChunk
  let (stages, relays) ← launch line.blocks chunk .none plans
  let result : Result := {
    pids := pidsOf stages, background := line.background
    failure := if stages.any (·.pid.isNone) then some .spawn else none }
  if line.blocks then
    awaitPipeline (plans.getLast?.bind (·.files.output)) stages relays result
  else
    leaveInBackground line stages
    return .done result

/-- Reports the faults that relays met. -/
def reportRelays (result : Result) : List RelayId → Shell σ Result
  | [] => return result
  | relay :: relays => do
    match ← relayFault relay with
    | none => reportRelays result relays
    | some f =>
      report ("error running pipeline: " ++ f.message)
      reportRelays { result with failure := result.failure <|> some .io } relays

/-- Reports an exit code that tells of a failure, if the last stage was started. -/
def reportExit (result : Result) (lastStarted : Bool) : Shell σ Unit :=
  match result.exitCode with
  | none => return ()
  | some code =>
    if code != 0 && lastStarted then report ("process exited with code " ++ toString code)
    else return ()

/-- Runs a line of several commands. -/
def runPipeline (line : CommandLine) : Shell σ Result := do
  let (plans, fault) ← openStages (line.commands.zip line.wirings)
  let ending ← closing (idsOf plans) (match fault with
    | none => runStages line plans
    | some f => refuse f)
  match ending with
  | .done result => return result
  | .exited result relays lastStarted => do
    let result ← reportRelays result relays
    reportExit result lastStarted
    return result

end LineShell.Shell
