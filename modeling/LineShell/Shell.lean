import LineShell.Kernel
import LineShell.Session

namespace LineShell

open Text (Bytes)

/-!
# Runs of the interpreter

* `World` — a session and the state of its surroundings;
* `Shell` — what the interpreter does in a world, with any kernel;
* `Shell.ask` — asks the kernel, `Shell.raise` — raises a fault;
* `Shell.attempt` — a run whose fault is an answer, and so can be handled. A run that never ends
  stays one.
-/

/-- A session and the state of its surroundings. -/
structure World (σ : Type) where
  session : Session
  outside : σ

/-- What the interpreter does in a world. -/
def Shell (σ α : Type) : Type := Kernel σ → World σ → Outcome α × World σ

namespace Shell

variable {σ α β : Type}

/-- Does nothing. -/
protected def pure (a : α) : Shell σ α := fun _ w => (.returned a, w)

/-- Does one thing after another. -/
protected def bind (x : Shell σ α) (f : α → Shell σ β) : Shell σ β := fun k w =>
  match x k w with
  | (.returned a, w) => f a k w
  | (.raised e, w) => (.raised e, w)
  | (.never, w) => (.never, w)

instance : Monad (Shell σ) where
  pure := Shell.pure
  bind := Shell.bind

/-- Asks the kernel. -/
def ask (r : Request) : Shell σ r.Reply := fun k w =>
  let (outcome, outside) := k.answer r w.outside
  (outcome, { w with outside })

/-- Raises a fault. -/
def raise (f : Fault) : Shell σ α := fun _ w => (.raised f, w)

/-- Never ends. -/
def never : Shell σ α := fun _ w => (.never, w)

/-- The number of rounds that open loops may take. -/
def bound : Shell σ Nat := fun k w => (.returned k.bound, w)

/-- The session as it is. -/
def session : Shell σ Session := fun _ w => (.returned w.session, w)

/-- Changes the session. -/
def modifySession (f : Session → Session) : Shell σ Unit := fun _ w =>
  (.returned (), { w with session := f w.session })

/-- Does something whose fault becomes an answer. -/
def attempt (x : Shell σ α) : Shell σ (Except Fault α) := fun k w =>
  match x k w with
  | (.returned a, w) => (.returned (.ok a), w)
  | (.raised f, w) => (.returned (.error f), w)
  | (.never, w) => (.never, w)

/-- Does something else if a fault of some kind is raised. -/
def handle (x : Shell σ α) (handles : Fault → Bool) (handler : Fault → Shell σ α) : Shell σ α := do
  match ← x.attempt with
  | .ok a => return a
  | .error f => if handles f then handler f else raise f

/-! ### Requests by the type of their replies -/

/-- Opens a file. -/
abbrev openFile (path : String) (mode : OpenMode) : Shell σ FileId := ask (.openFile path mode)

/-- Writes to a file. -/
abbrev writeFile (file : FileId) (bytes : Bytes) : Shell σ Unit := ask (.writeFile file bytes)

/-- Empties the buffer of a file. -/
abbrev flushFile (file : FileId) : Shell σ Unit := ask (.flushFile file)

/-- Closes a file. -/
abbrev closeFile (file : FileId) : Shell σ Unit := ask (.closeFile file)

/-- The path without symbolic links that a path leads to. -/
abbrev canonical (path : Path) : Shell σ Path := ask (.canonical path)

/-- Whether a path leads to a directory. -/
abbrev isDirectory (path : Path) : Shell σ Bool := ask (.isDirectory path)

/-- Starts a process. -/
abbrev spawn (argv : List String) (cwd : Path) (streams : Streams) : Shell σ ProcessId :=
  ask (.spawn argv cwd streams)

/-- The next line of a process's output pipe. -/
abbrev readOutput (pid : ProcessId) : Shell σ Bytes := ask (.readOutput pid)

/-- Closes the reading end of a process's output pipe. -/
abbrev closeOutput (pid : ProcessId) : Shell σ Unit := ask (.closeOutput pid)

/-- Waits for a process to exit. -/
abbrev wait (pid : ProcessId) : Shell σ Int := ask (.wait pid)

/-- Waits for a process to exit, but not for long. -/
abbrev waitBriefly (pid : ProcessId) : Shell σ (Option Int) := ask (.waitBriefly pid)

/-- Looks whether a process has exited. -/
abbrev poll (pid : ProcessId) : Shell σ (Option Int) := ask (.poll pid)

/-- Asks a process to end. -/
abbrev terminate (pid : ProcessId) : Shell σ Delivery := ask (.terminate pid)

/-- Waits a little for processes to end. -/
abbrev survivors (pids : List ProcessId) : Shell σ (List ProcessId) := ask (.survivors pids)

/-- Ends a process. -/
abbrev kill (pid : ProcessId) : Shell σ Unit := ask (.kill pid)

/-- Starts a relay. -/
abbrev startRelay (writer : ProcessId) (reader : Option ProcessId) (chunk : Int) :
    Shell σ RelayId :=
  ask (.startRelay writer reader chunk)

/-- Waits for a relay to end. -/
abbrev joinRelay (relay : RelayId) : Shell σ Unit := ask (.joinRelay relay)

/-- The fault that ended a relay, if one did. -/
abbrev relayFault (relay : RelayId) : Shell σ (Option Fault) := ask (.relayFault relay)

/-- Whether the console takes bytes. -/
abbrev consoleTakesBytes : Shell σ Bool := ask .consoleTakesBytes

/-- Writes bytes to the console. -/
abbrev writeConsole (bytes : Bytes) : Shell σ Unit := ask (.writeConsole bytes)

/-- Writes text to the console. -/
abbrev print (text : String) : Shell σ Unit := ask (.print text)

/-- Writes a line to the console. -/
abbrev printLine (text : String) : Shell σ Unit := print (text ++ "\n")

/-- Sees to it that all written to the console so far is out. -/
abbrev flushConsole : Shell σ Unit := ask .flushConsole

/-- Writes a line to the error stream about a line that went wrong. -/
abbrev report (text : String) : Shell σ Unit := ask (.report text)

/-- Writes a line to the error stream about the surroundings. -/
abbrev warn (text : String) : Shell σ Unit := ask (.warn text)

/-- Makes a log record for whoever looks for faults in the interpreter. -/
abbrev debug (topic : Topic) (text : String) : Shell σ Unit := ask (.log ⟨.debug, topic, text⟩)

/-- Makes a log record of something that should not have happened. -/
abbrev warning (topic : Topic) (text : String) : Shell σ Unit := ask (.log ⟨.warning, topic, text⟩)

/-- Shows a prompt and waits for the user. -/
abbrev readInput (prompt : String) (afterInterrupt : Bool) : Shell σ Input :=
  ask (.readInput prompt afterInterrupt)

/-- Whether lines typed before can be kept and walked through. -/
abbrev editorAvailable : Shell σ Bool := ask .editorAvailable

/-- Whether the user sits at a terminal. -/
abbrev isTerminal : Shell σ Bool := ask .isTerminal

/-- Binds a key of the line editor. -/
abbrev bindKey (binding : String) : Shell σ Unit := ask (.bindKey binding)

/-- Whether a path leads anywhere. -/
abbrev pathExists (path : String) : Shell σ Bool := ask (.exists path)

/-- Reads a file of typed lines into the line editor. -/
abbrev readHistory (path : String) : Shell σ Unit := ask (.readHistory path)

/-- How many typed lines a written file keeps. -/
abbrev limitHistory (size : Int) : Shell σ Unit := ask (.limitHistory size)

/-- How many typed lines the line editor holds. -/
abbrev historyLength : Shell σ Nat := ask .historyLength

/-- Writes the line editor's typed lines to a file. -/
abbrev writeHistory (path : String) : Shell σ Unit := ask (.writeHistory path)

/-! ### How runs compose -/

@[simp] theorem pure_run (a : α) (k : Kernel σ) (w : World σ) :
    (pure a : Shell σ α) k w = (.returned a, w) := rfl

theorem bind_run (x : Shell σ α) (f : α → Shell σ β) (k : Kernel σ) (w : World σ) :
    (x >>= f) k w = match x k w with
      | (.returned a, w) => f a k w
      | (.raised e, w) => (.raised e, w)
      | (.never, w) => (.never, w) := rfl

@[simp] theorem raise_run (f : Fault) (k : Kernel σ) (w : World σ) :
    (raise f : Shell σ α) k w = (.raised f, w) := rfl

@[simp] theorem session_run (k : Kernel σ) (w : World σ) :
    (session : Shell σ Session) k w = (.returned w.session, w) := rfl

@[simp] theorem modifySession_run (f : Session → Session) (k : Kernel σ) (w : World σ) :
    (modifySession f : Shell σ Unit) k w = (.returned (), { w with session := f w.session }) := rfl

/-- Mapping the identity changes nothing. -/
theorem id_map_run (x : Shell σ α) : id <$> x = x := by
  funext k w
  show (match x k w with | (.returned a, w) => _ | (.raised e, w) => _ | (.never, w) => _) = _
  split <;> simp_all [Shell.pure]

/-- Doing three things in order does not depend on how they are grouped. -/
theorem bind_assoc_run {γ : Type} (x : Shell σ α) (f : α → Shell σ β) (g : β → Shell σ γ) :
    x >>= f >>= g = x >>= fun a => f a >>= g := by
  funext k w
  simp only [bind_run]
  cases h : x k w with
  | mk o w' => cases o <;> rfl

instance : LawfulMonad (Shell σ) :=
  LawfulMonad.mk' (Shell σ) id_map_run (fun _ _ => rfl) bind_assoc_run

end Shell

end LineShell
