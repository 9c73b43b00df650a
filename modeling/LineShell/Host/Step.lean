import LineShell.Host.Machine

namespace LineShell.Host

open Text (Bytes)

/-!
# What happens on a machine

* `Machine.stepProcess`, `Machine.stepRelay` — one step of a process or a relay, if it can take one;
* `Host` — programs, and the order in which those take turns who can go on;
* `Host.step`, `Host.settle`, `Host.runUntil` — one step of somebody, all steps that can be taken,
  and steps until something has happened. Time passes only where everybody waits.
-/

namespace Machine

variable {S : Type}

/-! ### Files -/

/-- Bytes with others written over them from an offset on. -/
def overwrite (content : Bytes) (offset : Nat) (bytes : Bytes) : Bytes :=
  content.take offset ++ List.replicate (offset - content.length) 0 ++ bytes ++
    content.drop (offset + bytes.length)

/-- Reads from an open file. -/
def readOpening (m : Machine S) (o limit : Nat) : Except Nat (Bytes × Machine S) :=
  match m.openings[o]? with
  | none => .error 9
  | some opening =>
    match m.files.node? opening.node with
    | some (.file content _) =>
      let bytes := (content.drop opening.offset).take limit
      .ok (bytes, { m with
        openings := m.openings.modify o fun x => { x with offset := x.offset + bytes.length } })
    | some (.directory ..) => .error Fault.isDirectory
    | some (.device .zero) | some (.device .full) => .ok (List.replicate limit 0, m)
    | _ => .ok ([], m)

/-- Writes to an open file. -/
def writeOpening (m : Machine S) (o : Nat) (bytes : Bytes) : Except Nat (Machine S) :=
  match m.openings[o]? with
  | none => .error 9
  | some opening =>
    match m.files.node? opening.node with
    | some (.file content _) =>
      let offset := if opening.append then content.length else opening.offset
      .ok { m with
        files := m.files.setContent opening.node (overwrite content offset bytes)
        openings := m.openings.modify o fun x => { x with offset := offset + bytes.length } }
    | some (.device .null) | some (.device .zero) => .ok m
    | some (.device .full) => .error Fault.noSpace
    | _ => .error 9

/-- Opens a file. -/
def openPath (m : Machine S) (cwd : Path) (path : String) (mode : OpenMode) :
    Except Nat (Nat × Machine S) := do
  let (node, files) ← match mode with
    | .read => (·, m.files) <$> m.files.openReading cwd path
    | .write => m.files.openWriting cwd path false
    | .append => m.files.openWriting cwd path true
  return (m.openings.size, { m with
    files, openings := m.openings.push { node, append := mode = .append } })

/-! ### Processes -/

/-- Lets go of what a descriptor of a process leads to. -/
def release (m : Machine S) (p : Process S) : Channel → Machine S
  | .pipe i =>
    m.modifyPipe i fun pipe => if p.inputPipe = some i then pipe.closeReader else pipe.closeWriter
  | _ => m

/-- Takes all descriptors from a process, which lives on in another way. -/
def retire (m : Machine S) (i : Nat) (life : Life) : Machine S :=
  match m.processes[i]? with
  | none => m
  | some p =>
    (p.descriptors.foldl (fun m d => m.release p d.2) m).modifyProcess i fun p =>
      { p with life, descriptors := [] }

/-- A process with its program gone on. -/
def goOn (m : Machine S) (i : Nat) (program : S) : Machine S :=
  m.modifyProcess i fun p => { p with program }

/-- A process with its program gone on after a read. What comes from the standard input is noted. -/
def hear (m : Machine S) (i fd : Nat) (answer : Except Nat Bytes) (next : Except Nat Bytes → S) :
    Machine S :=
  m.modifyProcess i fun p => { p with
    program := next answer, intake := if fd = 0 then answer :: p.intake else p.intake }

/-- A read of a process, if it need not wait. -/
def readStep (m : Machine S) (i fd limit : Nat) (channel : Option Channel)
    (next : Except Nat Bytes → S) : Option (Machine S) :=
  match channel with
  | some .nothing => some (m.hear i fd (.ok []) next)
  | some (.pipe j) =>
    match m.pipes[j]?.map (Pipe.read · (some limit)) with
    | some (.gave bytes pipe) => some ((m.modifyPipe j fun _ => pipe).hear i fd (.ok bytes) next)
    | some (.ended _) => some (m.hear i fd (.ok []) next)
    | some .blocked => none
    | none => some (m.hear i fd (.error 9) next)
  | some (.opening o) =>
    match m.readOpening o limit with
    | .ok (bytes, m) => some (m.hear i fd (.ok bytes) next)
    | .error e => some (m.hear i fd (.error e) next)
  | _ => some (m.hear i fd (.error 9) next)

/-- A write of a process, if it need not wait. -/
def writeStep (m : Machine S) (i : Nat) (bytes : Bytes)
    (channel : Option Channel) (next : Except Nat Nat → S) : Option (Machine S) :=
  match channel with
  | some .nothing => some (m.goOn i (next (.ok bytes.length)))
  | some .console => some ((m.writeOut bytes).goOn i (next (.ok bytes.length)))
  | some .errors => some ((m.writeErr bytes).goOn i (next (.ok bytes.length)))
  | some (.pipe j) =>
    match m.pipes[j]?.map (Pipe.write · bytes) with
    | some (.took count pipe) => some ((m.modifyPipe j fun _ => pipe).goOn i (next (.ok count)))
    | some .blocked => none
    | some .broken | some (.refused _) => some (m.goOn i (next (.error Fault.pipeBroken)))
    | none => some (m.goOn i (next (.error 9)))
  | some (.opening o) =>
    match m.writeOpening o bytes with
    | .ok m => some (m.goOn i (next (.ok bytes.length)))
    | .error e => some (m.goOn i (next (.error e)))
  | none => some (m.goOn i (next (.error 9)))

/-- The machine with the last bytes that were read from an open file to be read again. -/
def giveBack (m : Machine S) (channel : Option Channel) (count : Nat) : Machine S :=
  match channel with
  | some (.opening o) =>
    { m with openings := m.openings.modify o fun x => { x with offset := x.offset - count } }
  | _ => m

/-- The file that a channel leads to, if it leads to one. -/
def inspect (m : Machine S) : Option Channel → Option FileStatus
  | some (.opening o) => do
    let opening ← m.openings[o]?
    let content ← m.files.content? opening.node
    return { node := opening.node, size := content.length, offset := opening.offset }
  | _ => none

/-- Whether there is a process of a number, be it only one that has exited unseen. -/
def reaches (m : Machine S) (pid : ProcessId) : Bool :=
  (m.process? pid).any (·.observed.isNone)

/-- The machine with a signal sent to a process that may not have exited yet. -/
def signal (m : Machine S) (pid : ProcessId) (number : Nat) : Machine S :=
  match m.indexOf? pid, m.process? pid with
  | some i, some p =>
    match p.life, number with
    | .exited _, _ | _, 0 => m
    | _, number => m.retire i (.exited (-number))
  | _, _ => m

/-- What a process does next, if it need not wait. -/
def act (ps : Programs S) (m : Machine S) (i : Nat) (p : Process S) : Option (Machine S) :=
  match ps.next p.program with
  | .read fd limit next => m.readStep i fd limit (p.descriptors.lookup fd) next
  | .write fd bytes next => m.writeStep i bytes (p.descriptors.lookup fd) next
  | .openFile fd path mode next =>
    match m.openPath p.cwd path mode with
    | .ok (o, m) =>
      some (m.modifyProcess i fun p => { p with
        program := next none, descriptors := (fd, .opening o) :: p.descriptors })
    | .error e => some (m.goOn i (next (some e)))
  | .close fd next =>
    let m := match p.descriptors.lookup fd with
      | some channel => m.release p channel
      | none => m
    some (m.modifyProcess i fun p => { p with
      program := next, descriptors := p.descriptors.filter (·.1 != fd) })
  | .giveBack fd count next => some ((m.giveBack (p.descriptors.lookup fd) count).goOn i next)
  | .inspect fd next => some (m.goOn i (next (m.inspect (p.descriptors.lookup fd))))
  | .look next => some (m.goOn i (next m.files))
  | .identify next => some (m.goOn i (next p.pid))
  | .signal pid number next => some ((m.goOn i (next (m.reaches pid))).signal pid number)
  | .sleep duration next =>
    some (m.modifyProcess i fun p => { p with
      program := next, life := .sleeping (m.clock + duration) })
  | .linger status => some (m.retire i (.lingering status))
  | .exit status => some (m.retire i (.exited status))

/-- One step of a process, if it can take one. -/
def stepProcess (ps : Programs S) (m : Machine S) (i : Nat) : Option (Machine S) := do
  let p ← m.processes[i]?
  match p.life with
  | .running => act ps m i p
  | .sleeping time =>
    if time ≤ m.clock then some (m.modifyProcess i fun p => { p with life := .running }) else none
  | _ => none

/-! ### Relays -/

/-- Ends a relay: both its pipes are closed at its ends. A fault of the system that closing the sink
meets is let pass. -/
def endRelay (m : Machine S) (j : Nat) (r : RelayTask) (fault : Option Fault) : Machine S :=
  let m := match r.sink with
    | some sink => m.modifyPipe sink fun pipe => pipe.shutWriter.2
    | none => m
  (m.modifyPipe r.source Pipe.closeReader).modifyRelay j fun r => { r with fault, done := true }

/-- Ends a relay that says so in the log. -/
def finishRelay (m : Machine S) (j : Nat) (r : RelayTask) (fault : Option Fault) : Machine S :=
  (m.endRelay j r fault).log
    ⟨.debug, .execution, "relay finished after " ++ toString r.copied ++ " bytes"⟩

/-- Ends a relay by a fault that nobody hears of. -/
def killRelay (m : Machine S) (j : Nat) (r : RelayTask) (f : Fault) : Machine S :=
  (m.endRelay j r none).modifyRelay j fun r => { r with death := some f }

/-- Ends a relay that met a fault. That the reader of its sink is gone is no fault of it; what is
neither a fault of input or output nor of a value is never heard of. -/
def failRelay (m : Machine S) (j : Nat) (r : RelayTask) (f : Fault) : Machine S :=
  if f.isBrokenPipe then m.finishRelay j r none
  else if f.isIo || f.isInvalid then m.finishRelay j r (some f)
  else m.killRelay j r f

/-- Writes what a relay has read, as much as there is room for. -/
def pushRelay (m : Machine S) (j : Nat) (r : RelayTask) (sink : Nat) : Option (Machine S) :=
  match m.pipes[sink]?.map (Pipe.write · r.pending) with
  | none => some (m.failRelay j r .brokenPipe)
  | some .blocked => none
  | some .broken => some (m.failRelay j r .brokenPipe)
  | some (.refused f) => some (m.failRelay j r f)
  | some (.took count pipe) =>
    let rest := r.pending.drop count
    some ((m.modifyPipe sink fun _ => pipe).modifyRelay j fun r => { r with
      pending := rest, copied := if rest.isEmpty then r.copied + r.size else r.copied })

/-- How much a relay reads at a time. A negative number is as much as there is. -/
def chunkLimit (chunk : Int) : Option Nat := if chunk < 0 then none else some chunk.toNat

/-- Whether a number of bytes is one that a read can be asked for: it fits in 64 bits. -/
def isReadSize (n : Int) : Bool := -9223372036854775808 ≤ n && n < 9223372036854775808

/-- Reads what a relay is to write next. A relay that reads nothing at a time has come to its
end. -/
def pullRelay (m : Machine S) (j : Nat) (r : RelayTask) : Option (Machine S) :=
  if !isReadSize r.chunk then
    some (m.failRelay j r (.outOfRange "cannot fit 'int' into an index-sized integer"))
  else match m.pipes[r.source]?.map (Pipe.read · (chunkLimit r.chunk)) with
    | none | some (.ended none) => some (m.finishRelay j r none)
    | some (.ended (some f)) => some (m.failRelay j r f)
    | some .blocked => if r.chunk = 0 then some (m.finishRelay j r none) else none
    | some (.gave bytes pipe) =>
      if bytes.isEmpty then some (m.finishRelay j r none)
      else some ((m.modifyPipe r.source fun _ => pipe).modifyRelay j fun r => { r with
        pending := bytes, size := bytes.length })

/-- One step of a relay, if it can take one. -/
def stepRelay (m : Machine S) (j : Nat) : Option (Machine S) := do
  let r ← m.relays[j]?
  if r.done then none
  else match r.sink with
    | none => some (m.finishRelay j r none)
    | some sink => if r.pending.isEmpty then m.pullRelay j r else m.pushRelay j r sink

/-! ### Turns -/

/-- How many there are who may take a step: processes, then relays. -/
def actors (m : Machine S) : Nat := m.processes.size + m.relays.size

/-- One step of somebody. -/
def stepActor (ps : Programs S) (m : Machine S) (a : Nat) : Option (Machine S) :=
  if a < m.processes.size then stepProcess ps m a else m.stepRelay (a - m.processes.size)

/-- When the next sleeper wakes. -/
def nextWake (m : Machine S) : Option Nat :=
  (m.processes.toList.filterMap fun p => match p.life with
    | .sleeping time => some time
    | _ => none).min?

/-- Lets a process exit. Of one that has exited only a status that nobody has seen yet can
change. -/
def finish (m : Machine S) (pid : ProcessId) (status : Option Int) : Machine S :=
  match m.indexOf? pid, m.process? pid with
  | some i, some p =>
    match p.life, status with
    | .exited _, none => m
    | .exited _, some status =>
      if p.observed.isSome then m else m.modifyProcess i fun p => { p with life := .exited status }
    | _, status => m.retire i (.exited (status.getD p.status))
  | _, _ => m

end Machine

end LineShell.Host

namespace LineShell

open Host

/-- Programs, and whose turn it is. -/
structure Host (S : Type) where
  programs : Programs S
  /-- Who is asked first at each turn; those after him are asked next. -/
  schedule : Nat → Nat := id
  /-- How many steps are taken at most before what has not happened counts as never happening. -/
  patience : Nat := 1000000

namespace Host

variable {S β : Type}

/-- One step of the first who can take one, counted from whose turn it is. -/
def step (h : Host S) (m : Machine S) : Option (Machine S) :=
  let n := m.actors
  let first := h.schedule m.turn
  ((List.range n).findSome? fun k => m.stepActor h.programs ((first + k) % n)).map fun m =>
    { m with turn := m.turn + 1 }

/-- All steps that can be taken without time passing. -/
def settle (h : Host S) : Nat → Machine S → Machine S
  | 0, m => m
  | fuel + 1, m =>
    match h.step m with
    | none => m
    | some m => h.settle fuel m

/-- Steps until something has happened. Where nobody can take one, time passes until somebody
wakes. -/
def runUntil (h : Host S) (happened : Machine S → Option β) : Nat → Machine S → Option β × Machine S
  | 0, m => (none, m)
  | fuel + 1, m =>
    match happened m with
    | some b => (some b, m)
    | none =>
      match h.step m with
      | some m => h.runUntil happened fuel m
      | none =>
        match m.nextWake with
        | none => (none, m)
        | some time =>
          if time ≤ m.clock then (none, m) else h.runUntil happened fuel { m with clock := time }

end Host

end LineShell
