import LineShell.Proofs.LineOutput
import LineShell.Proofs.PathComposition

namespace LineShell

open Text (Bytes)

/-!
# Files over whole sessions

What foreground lines that are executed one after another make of a file.

* `Host.LineRun`, `Host.Runs` — lines are executed in a session, each where the last one has left it;
* `LineRun.leaves` — what is in a file after a line, by what was there before;
* `Runs.folds` — so what is there at the end is folded over the lines.
-/

/-- Whether a request concerns no file and starts no process. -/
def Request.isIdling (r : Request) : Bool := !Host.Request.isAccess r

/-- Whether a request is one that changing the working directory makes. -/
def Request.isLooking : Request → Bool
  | .canonical _ | .isDirectory _ | .log _ | .report _ => true
  | _ => false

theorem Request.isIdling_of_isLooking {r : Request} (h : r.isLooking = true) : r.isIdling = true := by
  cases r <;> first | rfl | cases h

theorem Shell.changeDirectory_looks {σ : Type} {k : Kernel σ} {s : Session} (command : Command) :
    Ensures k (changeDirectory command) s fun _ _ es => es.Only Request.isLooking := by
  have hone : ∀ {r : Request} (o : Outcome r.Reply), r.isLooking = true →
      Trace.Only Request.isLooking [⟨r, o⟩] := fun o hr => Trace.only_cons.2 ⟨hr, Trace.only_nil _⟩
  have hreport : ∀ (s : Session) text (result : Result),
      Ensures k (report text >>= fun _ => pure result) s fun _ _ es => es.Only Request.isLooking :=
    fun s text result =>
    (((Asks.ask rfl).bind fun _ => .pure _ : Asks k Request.isLooking _) s).mono fun _ _ _ h => h.2
  have hmove : ∀ (s : Session) target path, Ensures k (moveTo target path) s
      fun _ _ es => es.Only Request.isLooking := by
    intro s target path
    refine Ensures.ask_bind (fun found => ?_) (fun _ => hone _ rfl) (hone _ rfl)
    cases found with
    | true =>
      exact .session_bind (.ask_bind (fun _ => .modifySession_bind (.pure (Trace.only_cons.2
        ⟨rfl, hone _ rfl⟩))) (fun _ => Trace.only_cons.2 ⟨rfl, hone _ rfl⟩)
          (Trace.only_cons.2 ⟨rfl, hone _ rfl⟩))
    | false => exact (hreport s _ _).mono fun _ _ _ hes => Trace.only_cons.2 ⟨rfl, hes⟩
  refine .session_bind (Ensures.attempt_bind (.ask (Q := fun o s' es => es.Only Request.isLooking)
    fun o => hone o rfl) ?_ ?_ fun _ _ h => h)
  · intro path s' es hes
    exact (hmove s' _ path).mono fun _ _ _ h => Trace.only_append.2 ⟨hes, h⟩
  · intro f s' es hes
    show Ensures k (if isUnreachable f then _ else _) s' _
    split
    · exact (hreport s' _ _).mono fun _ _ _ h => Trace.only_append.2 ⟨hes, h⟩
    · exact .raise (by rw [List.append_nil]; exact hes)

namespace Host

variable {S : Type} {h : Host S} {wrote : S → Bytes} {m m₁ m' : Machine S} {node : Inode}
  {s s' : Session}

/-- A line that has been executed: in which session and on which machine, and what came of it. -/
structure LineRun (S : Type) where
  line : CommandLine
  session : Session
  before : Machine S
  trace : Trace
  after : Machine S

namespace LineRun

/-- Whether a file is the one that a line's output goes to. -/
def names (run : LineRun S) (node : Inode) : Bool :=
  outputNode? run.session run.before run.line = some node

/-- What is in a file after a line, by what was there before. If the line's output goes there, what the
last process writes replaces it or comes behind it. -/
def leaves (run : LineRun S) (wrote : S → Bytes) (node : Inode) (content : Option Bytes) :
    Option Bytes :=
  if run.names node then
    some (run.line.outputMode.kept content ++ run.after.lastOutput wrote run.trace)
  else content

/-- A line in the foreground that met no fault. If it changes the working directory, it redirects
nothing. -/
structure IsPlain (run : LineRun S) : Prop where
  foreground : run.line.background = false
  bare : run.line.isChangeDirectory = true → run.line.targets = []
  calm : run.trace.Calm

end LineRun

/-- Lines are executed one after another in a session, and each returns. Between them the machine moves
on, and the interpreter asks for nothing that concerns files or processes to be started. -/
inductive Runs (h : Host S) : Session → Machine S → List (LineRun S) → Session → Machine S → Prop
  | nil (s : Session) (m : Machine S) : Runs h s m [] s m
  | cons {m : Machine S} {meanwhile : Trace} {run : LineRun S} {r : Result} {s₁ s' : Session}
    {runs : List (LineRun S)} {m' : Machine S} (hidle : meanwhile.Only Request.isIdling)
    (hplays : Plays h.programs m meanwhile run.before)
    (hexecute : Shell.execute run.line h.kernel.traced ⟨run.session, (run.before, [])⟩ =
      (.returned r, ⟨s₁, (run.after, run.trace)⟩)) (hrest : Runs h s₁ run.after runs s' m') :
    Runs h run.session m (run :: runs) s' m'

/-! ### One line -/

theorem Request.avoids_of_isIdling {n : Nat} {r : Request} (h : r.isIdling = true) :
    Request.Avoids n none r := by
  cases r with
  | closeFile | writeFile | flushFile | spawn | writeHistory => cases h
  | _ => trivial

section

variable (hquiet : ∀ s pid number next, h.programs.next s ≠ .signal pid number next)

include hquiet

/-- What concerns no file leaves it as it is. -/
theorem Apart.idles {es : Trace} (hapart : Apart node m.handles.size none none m)
    (hes : es.Only Request.isIdling) (hplays : Plays h.programs m es m')
    (hcount : m'.timesOpened node ≤ m.timesOpened node) :
    Apart node m'.handles.size none none m' ∧ m'.files.content? node = m.files.content? node := by
  obtain ⟨h', hspared⟩ := hapart.plays hquiet (fun e he => Request.avoids_of_isIdling (hes e he)) hplays
    ((Grown.of_plays hquiet hplays).onlyOpens_of_le hcount)
  refine ⟨h'.renew, ?_⟩
  unfold FileSystem.content?
  rw [hspared.file]

variable {run : LineRun S} {r : Result} {s₁ : Session} (hplain : run.IsPlain)
  (hexecute : Shell.execute run.line h.kernel.traced ⟨run.session, (run.before, [])⟩ =
    (.returned r, ⟨s₁, (run.after, run.trace)⟩))

include hplain hexecute

namespace LineRun

omit hquiet in
/-- A line whose files cannot all be opened writes nothing, and neither does one whose last process
could not be started. -/
theorem lastOutput_eq_nil (hnone : openedAfter? run.session run.before run.line.targets = none ∨
    run.trace.spawns.getLast? = some none) : run.after.lastOutput wrote run.trace = [] := by
  refine Machine.lastOutput_of_none ?_
  rcases hnone with hnone | hlast
  · cases hcd : run.line.isChangeDirectory with
    | true =>
      rw [hplain.bare hcd] at hnone
      cases hnone
    | false =>
      rcases opens_or_stops run.session run.before run.line.targets with
        ⟨ids, m₁, hopens⟩ | ⟨before, t, f, ids, m₁, hstops⟩
      · rw [hopens.openedAfter?_eq] at hnone
        cases hnone
      · obtain ⟨-, haside, -⟩ := execute_refused hcd hstops hexecute
        rw [Trace.spawns_of_aside haside]
        rfl
  · rw [hlast]
    rfl

omit hquiet in
/-- A line that changes the working directory names no file, and concerns none. -/
theorem idles_of_isChangeDirectory (hcd : run.line.isChangeDirectory = true) (node : Inode) :
    run.names node = false ∧ run.trace.Only Request.isIdling ∧
      Plays h.programs run.before run.trace run.after := by
  simp only [Shell.execute, hcd, if_true] at hexecute
  obtain ⟨hfollows, hlooks⟩ := (Shell.changeDirectory_looks run.line.first).run hexecute
  refine ⟨?_, hlooks.mono fun _ => Request.isIdling_of_isLooking, plays_of_follows h hfollows⟩
  refine decide_eq_false fun hout => ?_
  obtain ⟨operand, htarget⟩ := target_of_outputNode? hout
  have hmem : (⟨operand, run.line.outputMode⟩ : Target) ∈ run.line.targets := by
    simp [CommandLine.targets, targetsOf, htarget]
  rw [hplain.bare hcd] at hmem
  cases hmem

/-- A line opens the file that its output goes to. -/
theorem timesOpened_le (node : Inode) : run.before.timesOpened node + (if run.names node then 1 else 0) ≤
    run.after.timesOpened node := by
  split
  · rename_i hnames
    cases hcd : run.line.isChangeDirectory with
    | true =>
      obtain ⟨hnot, -⟩ := idles_of_isChangeDirectory hplain hexecute hcd node
      rw [hnot] at hnames
      cases hnames
    | false =>
      exact timesOpened_lt_of_execute hplain.foreground hcd hquiet hexecute hplain.calm
        (of_decide_eq_true hnames)
  · have hfollows := ((Shell.execute_tells run.line run.session).run hexecute).1
    exact (Grown.of_plays hquiet (plays_of_follows h hfollows)).timesOpened_le node

/-- **One line** and a file that only it opens, and only as its output. -/
theorem leaves_of_execute (hrec : Records h.programs wrote) (hgrounded : run.before.Grounded)
    (hapart : Apart node run.before.handles.size none none run.before)
    (hcount : run.after.timesOpened node ≤
      run.before.timesOpened node + if run.names node then 1 else 0) :
    Apart node run.after.handles.size none none run.after ∧
      run.after.files.content? node = run.leaves wrote node (run.before.files.content? node) := by
  unfold leaves
  cases hcd : run.line.isChangeDirectory with
  | true =>
    obtain ⟨hnot, hidle, hplays⟩ := idles_of_isChangeDirectory hplain hexecute hcd node
    rw [hnot] at hcount ⊢
    exact hapart.idles hquiet hidle hplays hcount
  | false =>
    simp only [names, decide_eq_true_eq] at hcount ⊢
    exact execute_leaves hplain.foreground hcd hquiet hexecute hplain.calm hrec hgrounded hapart hcount

end LineRun

end

/-! ### Many lines -/

section

variable (hquiet : ∀ s pid number next, h.programs.next s ≠ .signal pid number next)
  {runs : List (LineRun S)} (hruns : Runs h s m runs s' m') (hplain : ∀ run ∈ runs, run.IsPlain)

include hquiet hruns hplain

/-- The lines open a file at least as often as their output goes there. -/
theorem Runs.timesOpened_le (node : Inode) :
    m.timesOpened node + runs.countP (·.names node) ≤ m'.timesOpened node := by
  induction hruns with
  | nil => exact Nat.le_refl _
  | @cons m meanwhile run r s₁ s' runs m' hidle hplays hexecute hrest ih =>
    have hrun := hplain run (.head _)
    have hle := (Grown.of_plays hquiet hplays).timesOpened_le node
    have hle' := LineRun.timesOpened_le hquiet hrun hexecute node
    have hle'' := ih fun run hmem => hplain run (.tail _ hmem)
    rw [List.countP_cons]
    omega

omit hquiet in
/-- What each line does that is executed. -/
theorem Runs.forall_mem {P : LineRun S → Prop}
    (hall : ∀ {run : LineRun S} {r : Result} {s₁ : Session}, run.IsPlain →
      Shell.execute run.line h.kernel.traced ⟨run.session, (run.before, [])⟩ =
        (.returned r, ⟨s₁, (run.after, run.trace)⟩) → P run) : ∀ run ∈ runs, P run := by
  induction hruns with
  | nil => exact fun _ hmem => by cases hmem
  | cons hidle hplays hexecute hrest ih =>
    intro run hmem
    rcases List.mem_cons.1 hmem with rfl | hmem'
    · exact hall (hplain _ (.head _)) hexecute
    · exact ih (fun run hmem => hplain run (.tail _ hmem)) run hmem'

/-- What a file holds is folded over the lines that are executed. -/
theorem Runs.content_eq (hrec : Records h.programs wrote) (hgrounded : m.Grounded)
    (hapart : Apart node m.handles.size none none m)
    (hopened : m'.timesOpened node = m.timesOpened node + runs.countP (·.names node)) :
    m'.files.content? node =
      runs.foldl (fun content run => run.leaves wrote node content) (m.files.content? node) := by
  induction hruns with
  | nil => rfl
  | @cons m meanwhile run r s₁ s' runs m' hidle hplays hexecute hrest ih =>
    have hrun := hplain run (.head _)
    have hplain' := fun run hmem => hplain run (.tail _ hmem)
    -- nobody opens the file more often than that
    have hle := (Grown.of_plays hquiet hplays).timesOpened_le node
    have hle' := LineRun.timesOpened_le hquiet hrun hexecute node
    have hle'' := hrest.timesOpened_le hquiet hplain' node
    rw [List.countP_cons] at hopened
    obtain ⟨hapart₁, hcontent₁⟩ := hapart.idles hquiet hidle hplays (by omega)
    have hgrounded₁ := hgrounded.of_plays hquiet hplays
    obtain ⟨hapart₂, hcontent₂⟩ := LineRun.leaves_of_execute hquiet hrun hexecute hrec hgrounded₁
      hapart₁ (by omega)
    have hgrounded₂ := hgrounded₁.of_plays hquiet
      (plays_of_follows h ((Shell.execute_tells run.line run.session).run hexecute).1)
    rw [List.foldl_cons, ← hcontent₁, ← hcontent₂]
    exact ih hplain' hgrounded₂ hapart₂ (by omega)

/-- **Truncating and appending.** Lines are executed one after another in a session, and a file is
opened by nobody but them, and by each of them only as its output. What it holds at the end is folded
over the lines: `>` puts what the last process of a line writes in the place of what was there, and `>>`
behind it. That is nothing if the last process could not be started, or if not all files of the line
can be opened; and if the input cannot be opened, the line leaves the file as it is. -/
theorem Runs.folds (hrec : Records h.programs wrote) (hgrounded : m.Grounded)
    (hapart : Apart node m.handles.size none none m)
    (hopened : m'.timesOpened node = m.timesOpened node + runs.countP (·.names node)) :
    m'.files.content? node =
        runs.foldl (fun content run => run.leaves wrote node content) (m.files.content? node) ∧
      ∀ run ∈ runs,
        (openedAfter? run.session run.before run.line.targets = none ∨
            run.trace.spawns.getLast? = some none → run.after.lastOutput wrote run.trace = []) ∧
          (openedAfter? run.session run.before (inputsOf run.line) = none →
            run.leaves wrote node = id) := by
  refine ⟨hruns.content_eq hquiet hplain hrec hgrounded hapart hopened,
    hruns.forall_mem hplain fun {run r s₁} hrun hexecute =>
      ⟨LineRun.lastOutput_eq_nil hrun hexecute, fun hnone => ?_⟩⟩
  have hnames : run.names node = false := by
    unfold LineRun.names outputNode?
    rw [hnone]
    rfl
  funext content
  unfold LineRun.leaves
  rw [hnames]
  rfl

end

/-- A line that is executed at once. -/
def LineRun.of (h : Host S) (s : Session) (m : Machine S) (line : CommandLine) : LineRun S :=
  let w := (Shell.execute line h.kernel.traced ⟨s, (m, [])⟩).2
  ⟨line, s, m, w.outside.2, w.outside.1⟩

theorem Runs.of_returned {line : CommandLine} {runs : List (LineRun S)} {r : Result} {s₁ : Session}
    (hreturned : (Shell.execute line h.kernel.traced ⟨s, (m, [])⟩).1 = .returned r)
    (hsession : (Shell.execute line h.kernel.traced ⟨s, (m, [])⟩).2.session = s₁)
    (hrest : Runs h s₁ (LineRun.of h s m line).after runs s' m') :
    Runs h s m (LineRun.of h s m line :: runs) s' m' := by
  subst hsession
  exact @Runs.cons S h m [] (LineRun.of h s m line) r _ s' runs m' (Trace.only_nil _) .refl
    (Prod.ext hreturned rfl) hrest

/-! ### Scripted programs -/

/-- Programs that remember send signals only where they did. -/
theorem Programs.recorded_ne_signal {ps : Programs S}
    (hquiet : ∀ s pid number next, ps.next s ≠ .signal pid number next) :
    ∀ s pid number next, ps.recorded.next s ≠ .signal pid number next := by
  rintro ⟨s, written⟩ pid number next hnext
  unfold recorded at hnext
  dsimp only at hnext
  split at hnext <;> cases hnext
  exact hquiet _ _ _ _ ‹_›

/-- Scripted programs can remember what they have written. -/
theorem Scripted.records {scripts : List (String × Script)}
    (hfresh : ∀ script ∈ scripts, script.2.input.IsFresh ∧ script.2.output.IsFresh) :
    Records (programs scripts).recorded Prod.snd := by
  refine Programs.records_recorded _ (fun s => ?_) fun files cwd argv launch hfind => ?_
  · show s.next.OnlyWrites
    unfold Scripted.next
    split <;> first | trivial | (split <;> trivial) | exact Nat.zero_ne_one
  · cases argv with
    | nil => cases hfind
    | cons name args => exact (Scripted.denotes hfresh cwd ⟨name, args⟩ files launch hfind).2.2

/-- Whether a line was run in the foreground and met no fault. -/
def LineRun.isPlain (run : LineRun S) : Bool :=
  !run.line.background && !run.line.isChangeDirectory &&
    run.trace.all fun e => !e.request.isTending || e.fault?.isNone

theorem LineRun.isPlain_of {run : LineRun S} (h : run.isPlain = true) : run.IsPlain := by
  unfold isPlain at h
  simp only [Bool.and_eq_true, Bool.not_eq_true', Bool.or_eq_true, List.all_eq_true,
    Option.isNone_iff_eq_none] at h
  obtain ⟨⟨hfg, hcd⟩, hcalm⟩ := h
  refine ⟨hfg, fun h => ?_, fun e he htending => ?_⟩
  · rw [hcd] at h
    cases h
  · exact (hcalm e he).resolve_left (by simp [htending])

/-- The program `a`, which writes a line, and `b`, which writes what it reads. -/
def foldScripts : List (String × Script) := [("a", { out := [120, 10] }), ("b", { copies := true })]

/-- A host that knows these programs, and remembers what they write. -/
def foldHost : Host (Scripted × Bytes) where
  programs := (Scripted.programs foldScripts).recorded
  patience := 100

/-- A machine with a directory `d` and a file `f` that holds a line. -/
def foldMachine : Machine (Scripted × Bytes) where
  files := ⟨#[.directory 0 [("f", 1), ("d", 2)], .file [111, 10] false, .directory 0 []]⟩

/-- The lines `nope > f`, `cd d` and `a | b >> ~/f`. -/
def emptying : CommandLine := { first := ⟨"nope", []⟩, output := some "f" }

@[inherit_doc emptying]
def entering : CommandLine := { first := ⟨"cd", ["d"]⟩ }

@[inherit_doc emptying]
def adding : CommandLine :=
  { first := ⟨"a", []⟩, others := [⟨"b", []⟩], output := some "~/f", append := true }

/-- A session in some directory. -/
def foldSession (names : List String) : Session :=
  { cwd := ⟨.root, names⟩, home := "/", settings := { historyFile := "" } }

/-- The machine when a program that is not there was to write to `f`. -/
def emptiedMachine : Machine (Scripted × Bytes) where
  files := ⟨#[.directory 0 [("f", 1), ("d", 2)], .file [] false, .directory 0 []]⟩
  openings := #[{ node := 1, append := false }]
  handles := #[{ opening := 0, path := "/f", mode := .write, closed := true }]
  console := { err := [Text.encode "failed to execute: nope - No such file or directory\n"] }
  failures := ["nope"]

/-- The runs of these lines. -/
def emptyingRun : LineRun (Scripted × Bytes) := .of foldHost (foldSession []) foldMachine emptying

@[inherit_doc emptyingRun]
def enteringRun : LineRun (Scripted × Bytes) := .of foldHost (foldSession []) emptiedMachine entering

@[inherit_doc emptyingRun]
def addingRun : LineRun (Scripted × Bytes) := .of foldHost (foldSession ["d"]) emptiedMachine adding

/-- The session moves to the directory `d`. -/
theorem entering_moves : Shell.execute entering foldHost.kernel.traced
    ⟨foldSession [], (emptiedMachine, [])⟩ =
      (.returned { exitCode := some 0 },
        ⟨foldSession ["d"], (enteringRun.after, enteringRun.trace)⟩) ∧
    enteringRun.after = emptiedMachine := by
  have hnamed : named (foldSession []) entering.first = ⟨.root, ["d"]⟩ := by cbv
  have hnul : Machine.hasNul (named (foldSession []) entering.first).toString = false := by
    rw [hnamed]
    decide
  have hq : emptiedMachine.files.canonical (named (foldSession []) entering.first) =
      .ok ⟨.root, ["d"]⟩ := by
    rw [hnamed]
    cbv
  have hthere : emptiedMachine.files.isDirectory emptiedMachine.cwd (⟨.root, ["d"]⟩ : Path).toString =
      .ok true := by
    cbv
  obtain ⟨m', es, hrun⟩ := changeDirectory_leads foldHost (m := emptiedMachine) hnul hq hthere
  obtain ⟨q, -, -, -, -, record, rfl⟩ := changeDirectory_moved foldHost hrun
  have htrace : enteringRun.trace = es := congrArg (·.2.outside.2) hrun
  have hafter : enteringRun.after = emptiedMachine.log record := congrArg (·.2.outside.1) hrun
  rw [htrace, hafter]
  exact ⟨hrun, rfl⟩

theorem entering_isPlain : enteringRun.IsPlain := by
  have hlooks := ((Shell.changeDirectory_looks entering.first).run entering_moves.1).2
  refine ⟨rfl, fun _ => rfl, fun e he htending => ?_⟩
  have hlook := hlooks e he
  obtain ⟨r, o⟩ := e
  cases r <;> first | exact absurd hlook Bool.false_ne_true | exact absurd htending Bool.false_ne_true

set_option maxRecDepth 20000 in
/-- The program cannot be started, and the file is empty. -/
theorem emptying_empties :
    emptyingRun.after = emptiedMachine ∧
      (Shell.execute emptying foldHost.kernel.traced ⟨foldSession [], (foldMachine, [])⟩).1 =
        .returned { exitCode := some 127, failure := some .spawn } ∧
      (Shell.execute emptying foldHost.kernel.traced
        ⟨foldSession [], (foldMachine, [])⟩).2.session = foldSession [] ∧
      emptyingRun.isPlain = true ∧ emptyingRun.names 1 = true ∧
      emptyingRun.leaves Prod.snd 1 (some [111, 10]) = some [] := by
  refine ⟨?_, ?_, ?_, ?_, ?_, ?_⟩ <;> cbv

set_option maxRecDepth 20000 in
/-- The pipeline writes a line. -/
theorem adding_adds :
    (Shell.execute adding foldHost.kernel.traced ⟨foldSession ["d"], (emptiedMachine, [])⟩).1 =
        .returned { exitCode := some 0, pids := [1, 2] } ∧
      (Shell.execute adding foldHost.kernel.traced
        ⟨foldSession ["d"], (emptiedMachine, [])⟩).2.session = foldSession ["d"] ∧
      addingRun.isPlain = true ∧ addingRun.names 1 = true ∧
      addingRun.leaves Prod.snd 1 (some []) = some [120, 10] ∧
      addingRun.after.timesOpened 1 = 2 := by
  refine ⟨?_, ?_, ?_, ?_, ?_, ?_⟩ <;> cbv

/-- The lines are executed one after another. -/
theorem fold_runs : Runs foldHost (foldSession []) foldMachine [emptyingRun, enteringRun, addingRun]
    (foldSession ["d"]) addingRun.after := by
  obtain ⟨hemptied, hreturned, hsession, -⟩ := emptying_empties
  refine .of_returned hreturned hsession ?_
  rw [show (LineRun.of foldHost (foldSession []) foldMachine emptying).after = emptiedMachine from
    hemptied]
  obtain ⟨hmoves, hmoved⟩ := entering_moves
  refine .of_returned (congrArg Prod.fst hmoves) (congrArg (·.2.session) hmoves) ?_
  rw [show (LineRun.of foldHost (foldSession []) emptiedMachine entering).after = emptiedMachine from
    hmoved]
  exact .of_returned adding_adds.1 adding_adds.2.1 (.nil _ _)

/-- The program that cannot be started empties the file, and the pipeline puts a line there from another
directory. -/
theorem Runs.folds_of_mixed :
    Runs foldHost (foldSession []) foldMachine [emptyingRun, enteringRun, addingRun]
        (foldSession ["d"]) addingRun.after ∧
      addingRun.after.files.content? 1 = some [120, 10] := by
  obtain ⟨-, -, -, hplain₁, hnames₁, hleaves₁⟩ := emptying_empties
  obtain ⟨-, -, hplain₃, hnames₃, hleaves₃, hopened⟩ := adding_adds
  obtain ⟨hnames₂, -, -⟩ := LineRun.idles_of_isChangeDirectory entering_isPlain entering_moves.1 rfl 1
  have hplain : ∀ run ∈ [emptyingRun, enteringRun, addingRun], run.IsPlain := by
    intro run hmem
    simp only [List.mem_cons, List.not_mem_nil, or_false] at hmem
    rcases hmem with rfl | rfl | rfl
    · exact LineRun.isPlain_of hplain₁
    · exact entering_isPlain
    · exact LineRun.isPlain_of hplain₃
  have hapart : Apart 1 foldMachine.handles.size none none foldMachine := by
    have hcontent : foldMachine.files.content? 1 = some [111, 10] := rfl
    refine ⟨FileSystem.plain_of_content? hcontent, ⟨nofun, nofun, nofun⟩, ?_, ?_⟩
    · intro i p hp
      simp [foldMachine] at hp
    · intro j handle hhandle
      simp [foldMachine] at hhandle
  have hgrounded : foldMachine.Grounded := by
    refine ⟨fun j hj => ?_, fun {k p} hp => ?_, fun {n r} hr => ?_⟩
    · rcases hj with hj | hj | hj <;> cases hj
    · simp [foldMachine] at hp
    · simp [foldMachine] at hr
  have hcount : addingRun.after.timesOpened 1 = foldMachine.timesOpened 1 +
      [emptyingRun, enteringRun, addingRun].countP (·.names 1) := by
    simp only [List.countP_cons, List.countP_nil, hnames₁, hnames₂, hnames₃, hopened]
    rfl
  obtain ⟨hcontent, -⟩ := Runs.folds
    (Programs.recorded_ne_signal Scripted.next_ne_signal) fold_runs hplain
    (Scripted.records (by decide)) hgrounded hapart hcount
  refine ⟨fold_runs, hcontent.trans ?_⟩
  rw [List.foldl_cons, List.foldl_cons, List.foldl_cons, List.foldl_nil,
    show foldMachine.files.content? 1 = some [111, 10] from rfl, hleaves₁]
  unfold LineRun.leaves at hleaves₃ ⊢
  rw [hnames₂]
  exact hleaves₃

end Host

end LineShell
