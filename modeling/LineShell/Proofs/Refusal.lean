import Mathlib
import LineShell.Proofs.NulFree
import LineShell.Proofs.Targets
import LineShell.Shell.Execute

namespace LineShell

open Shell

/-!
# Lines that are refused

A line whose files cannot all be opened is over before anything is started.

* `runSingle_stops`, `runPipeline_stops` — a line of one command and a line of several come to the
  same, though they open and close their files in different places;
* `Refused` — what such a line leaves behind;
* `execute_refuses` — every line that runs programs is refused if some file of it cannot be opened.
-/

variable {s : Session}

namespace Host

variable {S : Type} {m m' m₁ : Machine S} {ids : List FileId} {t : Target}
  {before : List Target} {f : Fault} {line : CommandLine}

/-- What is reported of a target that cannot be opened, which is nothing unless the system refuses
it. -/
def told (t : Target) (f : Fault) : List String :=
  if f.isIo then ["cannot open " ++ t.operand ++ ": " ++ f.reason] else []

/-- What comes of a line whose files cannot be opened. A fault that is none of the system's ends the
run. -/
def verdict (f : Fault) : Outcome Result :=
  if f.isIo then .returned { exitCode := some 1, failure := some .io } else .raised f

/-- What both ways of running a line do about a fault of opening its files. -/
def tell {σ : Type} (f : Fault) : Shell σ Result :=
  if f.isCannotOpen then do
    report f.message
    return { exitCode := some 1, failure := some .io }
  else raise f

theorem refuse_eq {σ : Type} (f : Fault) : (refuse f : Shell σ Ending) = .done <$> tell f := by
  rw [refuse, tell]
  split
  · rw [map_eq_pure_bind, bind_assoc]
    rfl
  · rfl

theorem Shut.report (h : Shut m ids m') (text : Text.Bytes) : Shut m ids (m'.writeErr text) :=
  ⟨h.files, h.openings, h.processes, h.handles⟩

theorem tell_runs (h : Host S) (m : Machine S) (t : Target) (f : Fault) : ∃ m' es,
    Shut m [] m' ∧ Filed s [] (told t f) es ∧
      RunsTo h.kernel (tell (t.fault f)) s m (verdict f) m' es := by
  rw [tell, Target.isCannotOpen_fault, verdict, told, Target.fault]
  by_cases hio : f.isIo = true
  · simp only [hio, if_true]
    have hreport : RunsTo h.kernel
        (report ("cannot open " ++ t.operand ++ ": " ++ f.reason)) s m (.returned ()) _ _ := .ask rfl
    exact ⟨_, _, (Shut.refl m).report _, .report _, hreport.bind .pure⟩
  · simp only [hio]
    exact ⟨m, [], .refl m, .nil, .raise⟩

/-- A line of one command closes its files before it reports. -/
theorem runSingle_stops (h : Host S) (hline : line.others = [])
    (hstops : Stops s m line.targets before t f ids m₁) : ∃ m' es,
      Shut m₁ (dropped f ids) m' ∧ Filed s (before ++ [t]) (told t f) es ∧
        RunsTo h.kernel (runSingle line) s m (verdict f) m' es := by
  rw [← CommandLine.targets_of_single hline] at hstops
  obtain ⟨m₂, es₁, hshut, hfiled, hrun⟩ := openStage_stops h hstops
  have hstart : RunsTo h.kernel (startSingle line) s m (.raised (t.fault f)) m₂ es₁ :=
    hrun.bind_raised
  obtain ⟨m', es₂, hshut₂, hfiled₂, htell⟩ := tell_runs h m₂ t f
  refine ⟨m', _, ?_, ?_, hstart.attempt_raised.bind htell⟩
  · simpa using hshut.trans hshut₂
  · simpa using hfiled.append hfiled₂

/-- A pipeline reports while the files of the stages before are still open, and closes them then. -/
theorem runPipeline_stops (h : Host S) (hstops : Stops s m line.targets before t f ids m₁) :
    ∃ m' es, (f.isIo = true → Shut m₁ ids m') ∧ Filed s (before ++ [t]) (told t f) es ∧
      RunsTo h.kernel (runPipeline line) s m (verdict f) m' es := by
  have hopened := hstops.opens.unwritten
  rw [← CommandLine.flatMap_targets] at hstops
  obtain ⟨plans, ids₁, ids₂, m₂, es₁, rfl, hids, hshut, hfiled, hrun⟩ := openStages_stops h hstops
  obtain ⟨m₃, es₂, hshut₂, hfiled₂, htell⟩ := tell_runs (s := s) h m₂ t f
  have hshut' : Shut m₁ (dropped f ids₂) m₃ := by simpa using hshut.trans hshut₂
  -- the files that are still open have nothing in their buffers
  have hunwritten : m₃.Unwritten (idsOf plans) := by
    rw [hids]
    exact hshut'.unwritten fun id hid =>
      hopened id (List.mem_append_left _ (List.mem_reverse.1 hid))
  obtain ⟨m', es₃, hclose, hclosed, hfiled₃⟩ := closeAll_runs (s := s) h hunwritten
  have hend : RunsTo h.kernel
      (closing (idsOf plans) (runOpened line plans (some (t.fault f))) >>= conclude) s m₂
      (verdict f) m' (es₂ ++ es₃) := by
    rw [runOpened, refuse_eq]
    by_cases hio : f.isIo = true
    · rw [verdict, if_pos hio] at htell ⊢
      rw [← List.append_nil (es₂ ++ es₃)]
      exact (htell.map.closing (fun h => by cases h) hclose).bind .pure
    · rw [verdict, if_neg hio] at htell ⊢
      exact (htell.map_raised.closing (fun h => by cases h) hclose).bind_raised
  refine ⟨m', _, fun hio => ?_, ?_, by rw [runPipeline_eq]; exact hrun.bind hend⟩
  · refine (hshut'.trans hclosed).congr fun id => ?_
    rw [hids, dropped, if_pos hio]
    simp [or_comm]
  · simpa using hfiled.append (hfiled₂.append hfiled₃)

/-- What the two ways of running a line come to. -/
theorem execute_stops (h : Host S) (hcd : line.isChangeDirectory = false)
    (hstops : Stops s m line.targets before t f ids m₁) : ∃ m' es,
      (f.isIo = true → Shut m₁ ids m') ∧ Filed s (before ++ [t]) (told t f) es ∧
        RunsTo h.kernel (execute line) s m (verdict f) m' es := by
  simp only [execute, hcd, Bool.false_eq_true, if_false]
  split
  · exact runPipeline_stops h hstops
  · rename_i hline
    obtain ⟨m', es, hshut, hfiled, hrun⟩ :=
      runSingle_stops h (by simpa [CommandLine.isPipeline] using hline) hstops
    exact ⟨m', es, fun hio => by rwa [dropped, if_pos hio] at hshut, hfiled, hrun⟩

/-- What a line leaves behind whose files cannot all be opened: `t` is the first that cannot, for
the fault `f`, and opening those before it has led to the machine `m₁`. -/
structure Refused (s : Session) (m : Machine S) (before : List Target) (t : Target) (f : Fault)
    (ids : List FileId) (m₁ m' : Machine S) (es : Trace) : Prop where
  /-- The files are opened in order up to that one, and none after it. -/
  opened : es.openings = (before ++ [t]).map fun t => (t.path s, t.mode)
  /-- Besides this, files are closed and something is reported: nothing is started. -/
  only : es.Only Request.isFiling
  processes : m'.processes = m.processes
  /-- It is reported, as it was written, and why. -/
  told : es.reports = ["cannot open " ++ t.operand ++ ": " ++ f.reason]
  /-- Those before it are closed. -/
  closed : ∀ id ∈ ids, ∃ handle, m'.handles[id]? = some handle ∧ handle.closed = true
  /-- No file is made, emptied or written, but for those before it. -/
  files : m'.files = m₁.files

theorem refused_of_shut (hopens : Opens s m before ids m₁) (hio : f.isIo = true)
    (hshut : Shut m₁ ids m') {es : Trace} (hfiled : Filed s (before ++ [t]) (told t f) es) :
    Refused s m before t f ids m₁ m' es :=
  ⟨hfiled.openings, hfiled.only, hshut.processes.trans hopens.processes,
    by rw [hfiled.reports, told, if_pos hio], fun _ hid => hshut.closed hopens.unwritten hid,
    hshut.files⟩

/-- The first target that cannot be opened is one that the system refuses, or its path has a NUL. -/
theorem Stops.fault_cases {ts : List Target} (h : Stops s m ts before t f ids m₁) :
    (∃ e, m₁.openPath m₁.cwd (t.path s) t.mode = .error e ∧ f = .system e (some (t.path s))) ∨
      Machine.hasNul (t.path s) = true ∧ f = .embeddedNul := by
  rcases openHandle_cases m₁ (t.path s) t.mode with
    ⟨hnul, hfails⟩ | ⟨e, hopen, hfails⟩ | ⟨mid, opening, hopened, -⟩
  · cases h.fails.symm.trans hfails
    exact .inr ⟨hnul, rfl⟩
  · cases h.fails.symm.trans hfails
    exact .inl ⟨e, hopen, rfl⟩
  · cases h.fails.symm.trans hopened

end Host

open Host

/-- **A file that cannot be opened stops its line before it starts.** A line that runs programs, one
or several, in the foreground or not, opens its input, output and error file in this order. If they
cannot all be opened, it ends with the first that cannot: what the system says of it is reported, the
files before it are closed, those after it are left alone, nothing is started, and the session is as
it was. In particular a missing input leaves all files as they were. -/
theorem execute_refuses {S : Type} (h : Host S) {m : Machine S} {s : Session} {line : CommandLine}
    (hcd : line.isChangeDirectory = false) (hs : s.NulFree)
    (hline : ∀ t ∈ line.targets, nul ∉ t.operand.toList)
    (hfails : ¬ ∃ ids m', Opens s m line.targets ids m') :
    ∃ before t later ids m₁ e m' es, line.targets = before ++ t :: later ∧
      Opens s m before ids m₁ ∧ m₁.openPath m₁.cwd (t.path s) t.mode = .error e ∧
      execute line h.kernel.traced ⟨s, (m, [])⟩ =
        (.returned { exitCode := some 1, pids := [], failure := some .io }, ⟨s, (m', es)⟩) ∧
      Refused s m before t (.system e (some (t.path s))) ids m₁ m' es ∧
      ∀ operand, CommandLine.target? line.input = some operand →
        (∃ e, m.openPath m.cwd (s.resolve operand).toString .read = .error e) →
          m'.files = m.files := by
  obtain ⟨before, t, f, ids, m₁, hstops⟩ := (opens_or_stops s m line.targets).resolve_left hfails
  obtain ⟨later, hsplit⟩ := hstops.split
  have hnul : Machine.hasNul (t.path s) ≠ true := by
    rw [Target.path, hs.resolve (hline t (by simp [hsplit]))]
    nofun
  obtain ⟨e, hopen, rfl⟩ := hstops.fault_cases.resolve_right fun h => hnul h.1
  obtain ⟨m', es, hshut, hfiled, hrun⟩ := execute_stops h hcd hstops
  have hrefused := refused_of_shut hstops.opens rfl (hshut rfl) hfiled
  refine ⟨before, t, later, ids, m₁, e, m', es, hsplit, hstops.opens, hopen, hrun [], hrefused, ?_⟩
  rintro operand htarget ⟨e', hinput⟩
  -- the input file is the first, so no other one has been opened before it
  have hfirst : ∃ rest, line.targets = ⟨operand, .read⟩ :: rest := by
    rw [CommandLine.targets, htarget]
    exact ⟨_, rfl⟩
  obtain ⟨rest, hrest⟩ := hfirst
  rw [hrefused.files]
  cases hstops.opens with
  | nil => rfl
  | cons hopened _ =>
    obtain rfl := (List.cons.inj (hrest.symm.trans hsplit)).1
    exact absurd hopened (not_opened_of_error hinput)

/-- The line `a < missing | b > kept`. -/
def missingLine : CommandLine :=
  { first := ⟨"a", []⟩, others := [⟨"b", []⟩], input := some "missing", output := some "kept" }

/-- A machine with a file `kept` that is not empty. -/
def keptMachine : Machine Scripted :=
  { files := ⟨#[.directory FileSystem.root [("kept", 1)], .file [120, 10] false]⟩ }

/-- Where its input file is missing, a line leaves its output file as it was. -/
theorem execute_refuses_of_missing : ∃ m' es,
    execute missingLine gapHost.kernel.traced ⟨gapSession, (keptMachine, [])⟩ =
      (.returned { exitCode := some 1, failure := some .io }, ⟨gapSession, (m', es)⟩) ∧
        m'.files.content? 1 = some [120, 10] := by
  have hlookup : keptMachine.files.lookup keptMachine.cwd true "/missing" = .error 2 := by cbv
  have hinput : keptMachine.openPath keptMachine.cwd (gapSession.resolve "missing").toString .read =
      .error 2 := by
    rw [show (gapSession.resolve "missing").toString = "/missing" by decide]
    simp only [Machine.openPath, FileSystem.openReading, hlookup]
    rfl
  have hfails : ¬ ∃ ids m', Opens gapSession keptMachine missingLine.targets ids m' := by
    rintro ⟨ids, m', hopens⟩
    cases hopens with
    | cons hopen _ => exact not_opened_of_error hinput hopen
  have hs : gapSession.NulFree := ⟨Path.nulFree_nil, by decide⟩
  have hcd : missingLine.isChangeDirectory = false := by decide
  obtain ⟨-, -, -, -, -, -, m', es, -, -, -, hrun, -, hfiles⟩ :=
    execute_refuses gapHost hcd hs (by decide) hfails
  exact ⟨m', es, hrun, by rw [hfiles "missing" rfl ⟨_, hinput⟩]; rfl⟩

end LineShell
