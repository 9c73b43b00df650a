import LineShell.FileSystem.Canonical
import LineShell.FileSystem.Replace
import LineShell.History
import LineShell.Host.Step

namespace LineShell.Host

open Text (Bytes)

/-!
# Hosts as kernels

* `Host.kernel` — a host's answers to the interpreter's requests;
* `Host.spawn`, `Host.awaitExit`, `Host.look` — starting, waiting for and looking at processes;
* `Machine.putFile` and its like — what the interpreter's own buffered files do.
-/

namespace Machine

variable {S : Type}

/-- Whether a text has a NUL in it, which the system takes for its end. -/
def hasNul (s : String) : Bool := s.toList.contains '\x00'

/-! ### The interpreter's files -/

/-- How many bytes wait in a file's buffer at most. -/
def bufferSize : Nat := 4096

/-- Opens a file for the interpreter. -/
def openHandle (m : Machine S) (path : String) (mode : OpenMode) :
    Outcome FileId × Machine S :=
  if hasNul path then (.raised .embeddedNul, m)
  else match m.openPath m.cwd path mode with
    | .error e => (.raised (.system e (some path)), m)
    | .ok (opening, m) =>
      (.returned m.handles.size, { m with handles := m.handles.push { opening, path, mode } })

/-- Changes one of the interpreter's files. -/
def modifyHandle (m : Machine S) (id : FileId) (f : Handle → Handle) : Machine S :=
  { m with handles := m.handles.modify id f }

theorem handles_modifyHandle_self {m : Machine S} {id : FileId} {handle : Handle}
    (h : m.handles[id]? = some handle) (f : Handle → Handle) :
    (m.modifyHandle id f).handles[id]? = some (f handle) := by
  rw [modifyHandle, Array.getElem?_modify, if_pos rfl, h]
  rfl

theorem handles_modifyHandle_ne {m : Machine S} {i j : FileId} (h : i ≠ j) (f : Handle → Handle) :
    (m.modifyHandle i f).handles[j]? = m.handles[j]? := by
  rw [modifyHandle, Array.getElem?_modify, if_neg h]

/-- Empties the buffer of a file. What cannot be written stays in it. -/
def flushHandle (m : Machine S) (id : FileId) : Outcome Unit × Machine S :=
  match m.handles[id]? with
  | none => (.raised (.system 9 none), m)
  | some handle =>
    if handle.closed then (.raised (.invalid "flush of closed file"), m)
    else if handle.pending.isEmpty then (.returned (), m)
    else match m.writeOpening handle.opening handle.pending with
      | .error e => (.raised (.system e none), m)
      | .ok m => (.returned (), m.modifyHandle id fun h => { h with pending := [] })

/-- Writes to a file. The buffer is emptied first if it would overflow. -/
def writeHandle (m : Machine S) (id : FileId) (bytes : Bytes) : Outcome Unit × Machine S :=
  match m.handles[id]? with
  | none => (.raised (.system 9 none), m)
  | some handle =>
    if handle.closed then (.raised (.invalid "write to closed file"), m)
    else if handle.pending.length + bytes.length ≤ bufferSize && bytes.length < bufferSize then
      (.returned (), m.modifyHandle id fun h => { h with pending := h.pending ++ bytes })
    else match m.flushHandle id with
      | (.returned _, m) =>
        if bytes.length ≤ bufferSize then
          (.returned (), m.modifyHandle id fun h => { h with pending := bytes })
        else match m.writeOpening handle.opening bytes with
          | .error e => (.raised (.system e none), m)
          | .ok m => (.returned (), m)
      | failed => failed

/-- Closes a file, after an attempt to empty its buffer. -/
def closeHandle (m : Machine S) (id : FileId) : Outcome Unit × Machine S :=
  match m.handles[id]? with
  | none => (.raised (.system 9 none), m)
  | some handle =>
    if handle.closed then (.returned (), m)
    else
      let (outcome, m) := m.flushHandle id
      (outcome, m.modifyHandle id fun h => { h with closed := true })

/-! ### Prompts -/

/-- Ends what belongs to the last prompt, if prompts are kept apart. -/
def closeVisit (m : Machine S) (interrupted : Bool) : Machine S :=
  let (out, err) := m.written
  let terminal := match m.terminal.visits with
    | [] => { m.terminal with before := (out, err) }
    | visit :: visits =>
      { m.terminal with visits := { visit with out, err, interrupted } :: visits }
  { m with terminal }.clearConsole

/-- Shows a prompt. -/
def showPrompt (m : Machine S) (prompt : String) (afterInterrupt : Bool) : Machine S :=
  if m.terminal.echoes then m.writeOut (Text.encode prompt)
  else
    let m := m.closeVisit afterInterrupt
    { m with terminal := { m.terminal with visits := { prompt } :: m.terminal.visits } }

/-- What the user enters next. Processes that exit before do so. -/
def nextInput (m : Machine S) : List Deed → Input × Machine S
  | [] => (.endOfInput, { m with terminal := { m.terminal with deeds := [] } })
  | .enters line :: deeds => (.line line, { m with terminal := { m.terminal with deeds } })
  | .interrupts :: deeds => (.interrupt, { m with terminal := { m.terminal with deeds } })
  | .awaits pids :: deeds => (pids.foldl (fun m pid => m.finish pid none) m).nextInput deeds

/-! ### The line editor -/

/-- The largest number that a limit of typed lines can be. -/
def largestLimit : Int := 2147483647

/-- Binds a key. -/
def bind (m : Machine S) (binding : String) : Outcome Unit × Machine S :=
  match m.editor.flaw with
  | some (n, fault) =>
    if m.editor.bindings.length = n then (.raised fault, m) else
      (.returned (), { m with editor := { m.editor with
        bindings := m.editor.bindings ++ [binding] } })
  | none => (.returned (), { m with editor := { m.editor with
      bindings := m.editor.bindings ++ [binding] } })

/-- Reads a file of typed lines. What is no file, such as a directory or a device, is refused. -/
def loadEntries (m : Machine S) (path : String) : Outcome Unit × Machine S :=
  if hasNul path then (.raised .embeddedNul, m)
  else match m.files.lookup m.cwd true path with
    | .error e => (.raised (.system e none), m)
    | .ok i =>
      match m.files.content? i with
      | none => (.raised (.system Fault.invalidArgument none), m)
      | some file =>
        (.returned (), { m with
          editor := { m.editor with entries := m.editor.entries ++ History.entries file } })

/-- Cuts a file to the lines that are kept, if it has more. That it cannot be cut is passed over. -/
def cutEntries (m : Machine S) (path : String) : Machine S :=
  match m.files.fileBytes? m.cwd path with
  | none => m
  | some file =>
    let kept := History.keepLast m.editor.limit.toNat file
    if m.editor.limit < 0 || kept.length = file.length then m
    else match m.files.replaceFile m.cwd path kept with
      | .error _ => m
      | .ok files => { m with files }

/-- Writes a file of typed lines. -/
def saveEntries (m : Machine S) (path : String) : Outcome Unit × Machine S :=
  if hasNul path then (.raised .embeddedNul, m)
  else match m.files.saveFile m.cwd path (History.render m.editor.entries) with
    | .error e => (.raised (.system e none), m)
    | .ok files => (.returned (), { m with files }.cutEntries path)

/-! ### Processes -/

/-- Notes that the interpreter has seen a process's status. -/
def observe (m : Machine S) (i : Nat) (status : Int) : Machine S :=
  m.modifyProcess i fun p => { p with observed := some status }

/-- Ends a process by a signal, which the interpreter sees at once. -/
def strike (m : Machine S) (i : Nat) (signal : Signal) (status : Int) : Machine S :=
  ((m.retire i (.exited status)).observe i status).modifyProcess i fun p =>
    { p with signals := signal :: p.signals }

/-- The status of a process that the signal to end ended. -/
def terminatedStatus : Int := -15

/-- The status of a process that was ended. -/
def killedStatus : Int := -9

/-- Asks a process to end. -/
def terminate (m : Machine S) (pid : ProcessId) : Delivery × Machine S :=
  match m.indexOf? pid, m.process? pid with
  | some i, some p =>
    match p.manner with
    | .gone => (.gone, m)
    | .denies => (.denied, m)
    | .exits => (.delivered, m.strike i .terminate terminatedStatus)
    | .ignores | .ignoresThenGone =>
      (.delivered, m.modifyProcess i fun p => { p with signals := .terminate :: p.signals })
  | _, _ => (.gone, m)

/-- Ends a process. -/
def kill (m : Machine S) (pid : ProcessId) : Machine S :=
  match m.indexOf? pid, m.process? pid with
  | some i, some p =>
    if p.manner = .ignoresThenGone then m.retire i (.exited 0)
    else m.strike i .kill killedStatus
  | _, _ => m

/-- Whether a process has exited. -/
def hasExited (m : Machine S) (pid : ProcessId) : Bool :=
  match (m.process? pid).map Process.life with
  | some (.exited _) => true
  | _ => false

/-- Starts a relay. -/
def addRelay (m : Machine S) (writer : ProcessId) (reader : Option ProcessId)
    (chunk : Int) : Outcome RelayId × Machine S :=
  match m.outputPipe? writer with
  | none => (.raised (.system 9 none), m)
  | some source =>
    (.returned m.relays.size, { m with
      relays := m.relays.push { source, sink := reader.bind m.inputPipe?, chunk } })

/-- Adds a pipe for a stream that is one. -/
def addPipe (m : Machine S) (stream : Stream) (pipe : Pipe) : Option Nat × Machine S :=
  if stream = .pipe then (some m.pipes.size, { m with pipes := m.pipes.push pipe }) else (none, m)

/-- Where a stream leads. -/
def channel (m : Machine S) (stream : Stream) (inherited : Channel) (pipe : Option Nat) : Channel :=
  match stream, pipe with
  | .pipe, some i => .pipe i
  | .file id, _ => match m.handles[id]? with
    | some handle => .opening handle.opening
    | none => .nothing
  | .inherit, _ => inherited
  | _, _ => .nothing

/-- A process for a program. -/
def addProcess (m : Machine S) (argv : List String) (cwd : Path) (streams : Streams)
    (launch : Launch S) : ProcessId × Machine S :=
  let (inputPipe, m) := m.addPipe streams.stdin launch.input
  let (outputPipe, m) := m.addPipe streams.stdout launch.output
  let (stdin, stdout, stderr) := m.inherited
  let descriptors := [
    (0, m.channel streams.stdin stdin inputPipe), (1, m.channel streams.stdout stdout outputPipe),
    (2, m.channel streams.stderr stderr none)]
  (m.nextPid, { m with
    nextPid := m.nextPid + 1
    processes := m.processes.push {
      pid := m.nextPid, argv, cwd, streams, program := launch.program, inputPipe, outputPipe
      descriptors, manner := launch.manner, interruptsWait := launch.interruptsWait
      status := launch.status } })

end Machine

variable {S : Type}

/-- Starts a process. -/
def spawn (h : Host S) (m : Machine S) (argv : List String) (cwd : Path) (streams : Streams) :
    Outcome ProcessId × Machine S :=
  match h.programs.find m.files cwd argv with
  | .error f => (.raised f, { m with failures := argv.headD "" :: m.failures })
  | .ok launch =>
    let (pid, m) := m.addProcess argv cwd streams launch
    (.returned pid, m)

/-- The status of a process that a wait for it sees: one that only lingers is ended by it. -/
def exitStatus? (m : Machine S) (i : Nat) : Option Int :=
  match m.processes[i]?.map Process.life with
  | some (.exited status) | some (.lingering status) | some (.leaving _ status) => some status
  | _ => none

/-- Waits for a process. -/
def awaitExit (h : Host S) (m : Machine S) (pid : ProcessId) : Outcome Int × Machine S :=
  match m.indexOf? pid, m.process? pid with
  | some i, some p =>
    if p.interruptsWait then
      (.raised .interrupt, m.modifyProcess i fun p => { p with interruptsWait := false })
    else match p.observed with
      | some status => (.returned status, m)
      | none =>
        match h.runUntil (exitStatus? · i) h.patience m with
        | (some status, m) => (.returned status, (m.retire i (.exited status)).observe i status)
        | (none, m) => (.never, m)
  | _, _ => (.raised (.system 10 none), m)

/-- Looks at a process, once all others have gone as far as they can. -/
def look (h : Host S) (m : Machine S) (pid : ProcessId) : Outcome (Option Int) × Machine S :=
  let m := h.settle h.patience m
  match m.indexOf? pid, m.process? pid with
  | some i, some p =>
    match p.observed, p.life with
    | some status, _ => (.returned (some status), m)
    | none, .exited status => (.returned (some status), m.observe i status)
    | none, .leaving 0 status =>
      (.returned (some status), (m.retire i (.exited status)).observe i status)
    | none, .leaving (looks + 1) status =>
      (.returned none, m.modifyProcess i fun p => { p with life := .leaving looks status })
    | none, _ => (.returned none, m)
  | _, _ => (.raised (.system 10 none), m)

/-- The next line of a process's output. -/
def readLine (h : Host S) (m : Machine S) (pid : ProcessId) : Outcome Bytes × Machine S :=
  match m.outputPipe? pid with
  | none => (.raised (.system 9 none), m)
  | some i =>
    let ready (m : Machine S) : Option Pipe.Read :=
      match m.pipes[i]?.map Pipe.readLine with
      | some .blocked | none => none
      | some outcome => some outcome
    if m.pipes[i]?.any (!·.readerOpen) then (.raised (.invalid "readline of closed file"), m)
    else match h.runUntil ready h.patience m with
      | (some (.gave line pipe), m) => (.returned line, m.modifyPipe i fun _ => pipe)
      | (some (.ended none), m) => (.returned [], m)
      | (some (.ended (some f)), m) => (.raised f, m)
      | (_, m) => (.never, m)

/-- Waits for a relay. -/
def joinRelay (h : Host S) (m : Machine S) (relay : RelayId) : Outcome Unit × Machine S :=
  let ended (m : Machine S) : Option Unit :=
    if m.relays[relay]?.all (·.done) then some () else none
  match h.runUntil ended h.patience m with
  | (some _, m) => (.returned (), m)
  | (none, m) => (.never, m)

/-- What becomes of a request. -/
def answer (h : Host S) (r : Request) (m : Machine S) : Outcome r.Reply × Machine S :=
  match r with
  | .openFile path mode => m.openHandle path mode
  | .writeFile file bytes => m.writeHandle file bytes
  | .flushFile file => m.flushHandle file
  | .closeFile file => m.closeHandle file
  | .canonical path =>
    if Machine.hasNul path.toString then (.raised .embeddedNul, m)
    else match m.files.canonical path with
      | .ok path => (.returned path, m)
      | .error f => (.raised f, m)
  | .isDirectory path =>
    match m.files.isDirectory m.cwd path.toString with
    | .ok b => (.returned b, m)
    | .error e => (.raised (.system e (some path.toString)), m)
  | .spawn argv cwd streams => h.spawn m argv cwd streams
  | .readOutput pid => h.readLine m pid
  | .closeOutput pid =>
    (.returned (), match m.outputPipe? pid with
      | some i => m.modifyPipe i Pipe.closeReader
      | none => m)
  | .wait pid => h.awaitExit m pid
  | .waitBriefly pid => h.look m pid
  | .poll pid => h.look m pid
  | .terminate pid =>
    let (delivery, m) := m.terminate pid
    (.returned delivery, m)
  | .survivors pids =>
    let m := h.settle h.patience m
    (.returned (pids.filter (!m.hasExited ·)), m)
  | .kill pid => (.returned (), m.kill pid)
  | .startRelay writer reader chunk => m.addRelay writer reader chunk
  | .joinRelay relay => h.joinRelay m relay
  | .relayFault relay => (.returned (m.relays[relay]?.bind RelayTask.fault), m)
  | .consoleTakesBytes => (.returned m.console.takesBytes, m)
  | .writeConsole bytes => (.returned (), m.writeOut bytes)
  | .print text => (.returned (), m.writeOut (Text.encode text))
  | .flushConsole => (.returned (), m)
  | .report text | .warn text => (.returned (), m.writeErr (Text.encode (text ++ "\n")))
  | .log record => (.returned (), m.log record)
  | .readInput prompt afterInterrupt =>
    let m := (h.settle h.patience m).showPrompt prompt afterInterrupt
    let (input, m) := m.nextInput m.terminal.deeds
    (.returned input, m)
  | .editorAvailable => (.returned m.editor.available, m)
  | .isTerminal => (.returned m.editor.atTerminal, m)
  | .bindKey binding => m.bind binding
  | .exists path => (.returned (!Machine.hasNul path && m.files.contains m.cwd path), m)
  | .readHistory path => m.loadEntries path
  | .limitHistory size =>
    if -Machine.largestLimit - 1 ≤ size ∧ size ≤ Machine.largestLimit then
      (.returned (), { m with editor := { m.editor with limit := size } })
    else (.raised (.outOfRange "Python int too large to convert to C int"), m)
  | .historyLength => (.returned m.editor.entries.length, m)
  | .writeHistory path => m.saveEntries path

/-- A host as a kernel. -/
def kernel (h : Host S) : Kernel (Machine S) := ⟨h.answer, h.patience⟩

end LineShell.Host
