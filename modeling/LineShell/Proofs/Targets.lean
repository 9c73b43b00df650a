import LineShell.Host.Answer
import LineShell.Proofs.Diagnostics
import LineShell.Proofs.StageWiring

namespace LineShell

/-!
# Files that cannot be opened

What a host is asked for by a line whose files it opens, one after another, up to the first that
cannot be opened.

* `RunsTo` — where a run comes to that leaves the session as it is, with just these events;
* `Target`, `CommandLine.targets` — the files that a line names, in the order in which they are
  opened, and `targets_wirings` — that its stages name just these;
* `Opens`, `Stops` — targets that can all be opened, and targets up to the first that cannot;
* `Shut` — a machine on which files have been closed, and nothing else has changed;
* `openStages_runs`, `openStages_stops` — what opening the files of all stages comes to.
-/

variable {σ α β : Type} {k : Kernel σ} {s : Session}

/-! ### Runs that leave the session as it is -/

/-- The run leaves the session as it is. It comes to an outcome and a state of the surroundings, by
just these events. -/
def RunsTo (k : Kernel σ) (x : Shell (σ × Trace) α) (s : Session) (out : σ) (o : Outcome α)
    (out' : σ) (es : Trace) : Prop :=
  ∀ t, x k.traced ⟨s, (out, t)⟩ = (o, ⟨s, (out', t ++ es)⟩)

namespace RunsTo

variable {x : Shell (σ × Trace) α} {f : α → Shell (σ × Trace) β} {out mid out' : σ} {o : Outcome α}
  {es es' : Trace}

/-- What a run ensures holds of where it comes to. -/
theorem ensured {Q : Post α} (h : RunsTo k x s out o out' es) (hx : Ensures k x s Q) : Q o s es :=
  (hx.run (h [])).2

theorem pure {a : α} : RunsTo k (Pure.pure a) s out (.returned a) out [] :=
  fun t => by rw [List.append_nil]; rfl

theorem raise {e : Fault} : RunsTo k (Shell.raise e) s out (.raised e : Outcome α) out [] :=
  fun t => by rw [List.append_nil]; rfl

theorem ask {r : Request} {o : Outcome r.Reply} (h : k.answer r out = (o, out')) :
    RunsTo k (Shell.ask r) s out o out' [⟨r, o⟩] :=
  fun t => by simp [Shell.ask, Kernel.traced, h]

theorem bind {o : Outcome β} {a : α} (hx : RunsTo k x s out (.returned a) mid es)
    (hf : RunsTo k (f a) s mid o out' es') : RunsTo k (x >>= f) s out o out' (es ++ es') :=
  fun t => by rw [Shell.bind_run, hx t, ← List.append_assoc]; exact hf _

theorem bind_raised {e : Fault} (hx : RunsTo k x s out (.raised e) out' es) :
    RunsTo k (x >>= f) s out (.raised e) out' es :=
  fun t => by rw [Shell.bind_run, hx t]

theorem session_bind {f : Session → Shell (σ × Trace) β} {o : Outcome β}
    (h : RunsTo k (f s) s out o out' es) : RunsTo k (Shell.session >>= f) s out o out' es := h

theorem map {g : α → β} {a : α} (hx : RunsTo k x s out (.returned a) out' es) :
    RunsTo k (g <$> x) s out (.returned (g a)) out' es := by
  rw [map_eq_pure_bind, ← List.append_nil es]
  exact hx.bind .pure

theorem map_raised {g : α → β} {e : Fault} (hx : RunsTo k x s out (.raised e) out' es) :
    RunsTo k (g <$> x) s out (.raised e) out' es := by
  rw [map_eq_pure_bind]
  exact hx.bind_raised

theorem attempt {a : α} (hx : RunsTo k x s out (.returned a) out' es) :
    RunsTo k x.attempt s out (.returned (.ok a)) out' es :=
  fun t => by rw [Shell.attempt, hx t]

theorem attempt_raised {e : Fault} (hx : RunsTo k x s out (.raised e) out' es) :
    RunsTo k x.attempt s out (.returned (.error e)) out' es :=
  fun t => by rw [Shell.attempt, hx t]

theorem handle {p : Fault → Bool} {g : Fault → Shell (σ × Trace) α} {a : α}
    (hx : RunsTo k x s out (.returned a) out' es) :
    RunsTo k (x.handle p g) s out (.returned a) out' es := by
  rw [← List.append_nil es]
  exact hx.attempt.bind .pure

theorem handle_raised {p : Fault → Bool} {g : Fault → Shell (σ × Trace) α} {e : Fault}
    (hx : RunsTo k x s out (.raised e) mid es) (hp : p e = true)
    (hg : RunsTo k (g e) s mid o out' es') :
    RunsTo k (x.handle p g) s out o out' (es ++ es') := by
  refine hx.attempt_raised.bind ?_
  show RunsTo k (if p e then g e else Shell.raise e) _ _ _ _ _
  rwa [if_pos hp]

theorem handle_passed {p : Fault → Bool} {g : Fault → Shell (σ × Trace) α} {e : Fault}
    (hx : RunsTo k x s out (.raised e) out' es) (hp : p e = false) :
    RunsTo k (x.handle p g) s out (.raised e) out' es := by
  rw [← List.append_nil es]
  refine hx.attempt_raised.bind ?_
  show RunsTo k (if p e then g e else Shell.raise e) _ _ _ _ _
  rw [hp]
  exact .raise

/-- After a run its files are closed, and if they can be, the outcome stays. -/
theorem closing {ids : List FileId} (hx : RunsTo k x s out o mid es) (ho : o ≠ .never)
    (hclose : RunsTo k (Shell.closeAll ids) s mid (.returned none) out' es') :
    RunsTo k (Shell.closing ids x) s out o out' (es ++ es') := by
  cases o with
  | never => exact absurd rfl ho
  | returned a =>
    rw [← List.append_nil es']
    exact hx.attempt.bind (hclose.bind .pure)
  | raised e =>
    rw [← List.append_nil es']
    exact hx.attempt_raised.bind (hclose.bind .raise)

end RunsTo

/-! ### The files that a line names -/

/-- A file that a redirection names, and what it is to be opened for. -/
structure Target where
  operand : String
  mode : OpenMode
  deriving DecidableEq, Repr

/-- The path that a target names, as the system is asked for it. -/
def Target.path (s : Session) (t : Target) : String := (s.resolve t.operand).toString

/-- What becomes of a fault of opening a target: what the system says is told of the operand. -/
def Target.fault (t : Target) (f : Fault) : Fault :=
  if f.isIo then .cannotOpen t.operand f.reason else f

theorem Target.isCannotOpen_fault (t : Target) (f : Fault) :
    (t.fault f).isCannotOpen = f.isIo := by
  rw [fault]
  split
  · exact Eq.symm ‹_›
  · cases f <;> first | rfl | exact absurd rfl ‹_›

/-- The targets of an operand, if there is one. -/
def targetsOf (operand : Option String) (mode : OpenMode) : List Target :=
  operand.toList.map (⟨·, mode⟩)

/-- The files that a wiring takes, in the order in which they are opened. -/
def Wiring.targets (w : Wiring) : List Target :=
  targetsOf w.inputPath .read ++ targetsOf w.outputPath (Shell.outputMode w) ++
    targetsOf w.errorPath .write

namespace CommandLine

/-- What a line's output file is opened for. -/
def outputMode (line : CommandLine) : OpenMode := if line.append then .append else .write

/-- The files that a line names, in the order in which they are opened. -/
def targets (line : CommandLine) : List Target :=
  targetsOf (target? line.input) .read ++ targetsOf (target? line.output) line.outputMode ++
    targetsOf (target? line.error) .write

variable {line : CommandLine}

/-- The first stage takes the input file, and the last one the other two. -/
theorem targets_wiring {i : Nat} (hi : i < line.commands.length) : (line.wiring i).targets =
    (if i = 0 then targetsOf (target? line.input) .read else []) ++
      if i + 1 = line.commands.length then targetsOf (target? line.output) line.outputMode ++
        targetsOf (target? line.error) .write else [] := by
  have hsound := wirings_sound (getElem?_wirings hi)
  -- the mode matters only where there is an output file
  have hmode : targetsOf (line.wiring i).outputPath (Shell.outputMode (line.wiring i)) =
      targetsOf (line.wiring i).outputPath line.outputMode := by
    by_cases hnone : (line.wiring i).outputPath = none
    · rw [hnone]
      rfl
    · rw [Shell.outputMode, hsound.append_eq hnone, outputMode]
  rw [Wiring.targets, hmode, hsound.inputPath_eq, hsound.outputPath_eq, hsound.errorPath_eq,
    List.append_assoc]
  congr 1
  · split <;> rfl
  · split <;> rfl

/-- The stages of a line take just the files that it names. -/
theorem targets_wirings (line : CommandLine) :
    line.wirings.flatMap Wiring.targets = line.targets := by
  have hwirings : line.wirings.flatMap Wiring.targets =
      (List.range line.commands.length).flatMap fun i =>
        (if i = 0 then targetsOf (target? line.input) .read else []) ++
          if i + 1 = line.commands.length then targetsOf (target? line.output) line.outputMode ++
            targetsOf (target? line.error) .write else [] := by
    rw [wirings, List.flatMap_map]
    exact List.flatMap_congr fun i hi => targets_wiring (List.mem_range.1 hi)
  rw [hwirings, length_commands]
  generalize line.others.length = n
  cases n with
  | zero => simp [targets]
  | succ n =>
    -- no stage between the first and the last takes any
    have hbetween : (List.range n).flatMap (fun i => if i + 1 + 1 = n + 1 + 1 then
        targetsOf (target? line.output) line.outputMode ++ targetsOf (target? line.error) .write
          else []) = [] := by
      refine List.flatMap_eq_nil_iff.2 fun i hi => if_neg ?_
      have := List.mem_range.1 hi
      omega
    rw [List.range_succ_eq_map, List.flatMap_cons, List.flatMap_map, List.range_succ,
      List.flatMap_append]
    simp only [Nat.succ_ne_zero, if_false, List.nil_append, Nat.succ_eq_add_one, hbetween]
    simp [targets]

/-- The only stage of a line takes them all. -/
theorem targets_of_single (hline : line.others = []) : (line.wiring 0).targets = line.targets := by
  rw [← targets_wirings]
  simp [wirings, commands, hline]

theorem flatMap_targets (line : CommandLine) :
    (line.commands.zip line.wirings).flatMap (·.2.targets) = line.targets := by
  have hwirings : (line.commands.zip line.wirings).map Prod.snd = line.wirings :=
    List.map_snd_zip (Nat.le_of_eq line.length_wirings)
  calc (line.commands.zip line.wirings).flatMap (·.2.targets)
      = ((line.commands.zip line.wirings).map Prod.snd).flatMap Wiring.targets := by
        rw [List.flatMap_map]
    _ = line.targets := by rw [hwirings, targets_wirings]

end CommandLine

/-! ### The events of opening files -/

/-- Whether a request opens a file, closes one or reports a fault. -/
def Request.isFiling : Request → Bool
  | .openFile .. | .closeFile _ | .report _ => true
  | _ => false

theorem Request.isAside_of_isFiling {r : Request} (h : r.isFiling = true) : r.isAside = true := by
  cases r <;> first | rfl | cases h

/-- The path that a file is opened at, and what for. -/
def Event.opening? : Event → Option (String × OpenMode)
  | ⟨.openFile path mode, _⟩ => some (path, mode)
  | _ => none

/-- The files that are opened, in order, be it in vain. -/
def Trace.openings (es : Trace) : List (String × OpenMode) := es.filterMap Event.opening?

/-- The events open files for some targets in order, close files, and report some texts. -/
structure Filed (s : Session) (ts : List Target) (texts : List String) (es : Trace) : Prop where
  only : es.Only Request.isFiling
  openings : es.openings = ts.map fun t => (t.path s, t.mode)
  reports : es.reports = texts

namespace Filed

variable {ts ts' : List Target} {texts texts' : List String} {es es' : Trace}

theorem nil : Filed s [] [] [] := ⟨Trace.only_nil _, rfl, rfl⟩

theorem append (h : Filed s ts texts es) (h' : Filed s ts' texts' es') :
    Filed s (ts ++ ts') (texts ++ texts') (es ++ es') := by
  refine ⟨Trace.only_append.2 ⟨h.only, h'.only⟩, ?_, ?_⟩
  · rw [List.map_append, ← h.openings, ← h'.openings]
    exact List.filterMap_append
  · rw [Trace.reports_append, h.reports, h'.reports]

theorem open_ (t : Target) (o : Outcome FileId) :
    Filed s [t] [] [⟨.openFile (t.path s) t.mode, o⟩] :=
  ⟨by simp [Request.isFiling], rfl, rfl⟩

theorem close (id : FileId) (o : Outcome Unit) : Filed s [] [] [⟨.closeFile id, o⟩] :=
  ⟨by simp [Request.isFiling], rfl, rfl⟩

theorem report (text : String) : Filed s [] [text] [⟨.report text, .returned ()⟩] :=
  ⟨by simp [Request.isFiling], rfl, rfl⟩

/-- Events that only open and close files start nothing. -/
theorem aside (h : Filed s ts texts es) : es.Aside :=
  h.only.mono fun _ => Request.isAside_of_isFiling

end Filed

namespace Host

variable {S : Type} {m m' mid : Machine S} {ids ids' : List FileId} {t : Target}
  {ts ts' before later : List Target} {f : Fault}

/-! ### Files that are closed again -/

/-- Some of the interpreter's files have nothing in their buffers. -/
def Machine.Unwritten (m : Machine S) (ids : List FileId) : Prop :=
  ∀ id ∈ ids, ∃ handle, m.handles[id]? = some handle ∧ handle.pending = []

theorem Machine.unwritten_nil (m : Machine S) : m.Unwritten [] := by simp [Unwritten]

/-- Files have been closed, and all else that a line finds on a machine is as it was, but for what
was reported. -/
structure Shut (m : Machine S) (ids : List FileId) (m' : Machine S) : Prop where
  files : m'.files = m.files
  openings : m'.openings = m.openings
  processes : m'.processes = m.processes
  handles : ∀ id, m'.handles[id]? =
    m.handles[id]?.map fun handle : Handle =>
      ({ handle with closed := handle.closed || ids.contains id } : Handle)

namespace Shut

theorem refl (m : Machine S) : Shut m [] m := ⟨rfl, rfl, rfl, fun id => by simp⟩

theorem trans {m'' : Machine S} (h : Shut m ids m') (h' : Shut m' ids' m'') :
    Shut m (ids ++ ids') m'' := by
  refine ⟨h'.files.trans h.files, h'.openings.trans h.openings, h'.processes.trans h.processes,
    fun id => ?_⟩
  rw [h'.handles, h.handles, Option.map_map]
  simp [Function.comp_def, Bool.or_assoc]

/-- Which files have been closed does not depend on the order. -/
theorem congr (h : Shut m ids m') (hids : ∀ id, id ∈ ids ↔ id ∈ ids') : Shut m ids' m' := by
  refine ⟨h.files, h.openings, h.processes, fun id => ?_⟩
  have hcontains : ids.contains id = ids'.contains id := by
    simp [hids]
  rw [h.handles, hcontains]

theorem unwritten (h : Shut m ids m') (hm : m.Unwritten ids') : m'.Unwritten ids' := by
  intro id hid
  obtain ⟨handle, hhandle, hpending⟩ := hm id hid
  have hkept := h.handles id
  rw [hhandle] at hkept
  exact ⟨_, hkept, hpending⟩

/-- A file that was closed is closed. -/
theorem closed (h : Shut m ids m') (hm : m.Unwritten ids) {id : FileId} (hid : id ∈ ids) :
    ∃ handle, m'.handles[id]? = some handle ∧ handle.closed = true := by
  obtain ⟨handle, hhandle, -⟩ := hm id hid
  have hshut := h.handles id
  rw [hhandle] at hshut
  exact ⟨_, hshut, by simp [hid]⟩

end Shut

/-- A file with an empty buffer can be closed. -/
theorem closeHandle_shut {id : FileId} (h : m.Unwritten [id]) :
    ∃ m', m.closeHandle id = (.returned (), m') ∧ Shut m [id] m' := by
  obtain ⟨handle, hhandle, hpending⟩ := h id (List.mem_singleton_self id)
  cases hclosed : handle.closed with
  | true =>
    refine ⟨m, by simp [Machine.closeHandle, hhandle, hclosed], rfl, rfl, rfl, fun other => ?_⟩
    by_cases hother : other = id
    · subst hother
      simp [hhandle, ← hclosed]
    · simp [hother]
  | false =>
    refine ⟨m.modifyHandle id fun h => { h with closed := true }, ?_, rfl, rfl, rfl,
      fun other => ?_⟩
    · simp [Machine.closeHandle, Machine.flushHandle, hhandle, hclosed, hpending]
    · by_cases hother : other = id
      · subst hother
        simp [Machine.modifyHandle, Array.getElem?_modify]
      · simp [Machine.modifyHandle, Array.getElem?_modify, hother, Ne.symm hother]

theorem closeAll_runs (h : Host S) (hm : m.Unwritten ids) : ∃ m' es,
    RunsTo h.kernel (Shell.closeAll ids) s m (.returned none) m' es ∧ Shut m ids m' ∧
      Filed s [] [] es := by
  induction ids generalizing m with
  | nil => exact ⟨m, [], .pure, .refl m, .nil⟩
  | cons id ids ih =>
    obtain ⟨m₁, hclose, hshut⟩ := closeHandle_shut fun i hi =>
      hm i (List.mem_singleton.1 hi ▸ List.mem_cons_self)
    obtain ⟨m₂, es, hrun, hshut', hfiled⟩ :=
      ih (hshut.unwritten fun i hi => hm i (List.mem_cons_of_mem id hi))
    have hask : RunsTo h.kernel (Shell.closeFile id) s m (.returned ()) m₁
        [⟨.closeFile id, .returned ()⟩] := .ask hclose
    refine ⟨m₂, _, hask.attempt.bind (hrun.bind .pure), hshut.trans hshut', ?_⟩
    exact (Filed.close id _).append (hfiled.append .nil)

/-! ### Targets that are opened one after another -/

/-- Targets are opened one after another, and all of them can be. -/
inductive Opens (s : Session) : Machine S → List Target → List FileId → Machine S → Prop
  | nil (m : Machine S) : Opens s m [] [] m
  | cons {m mid m' : Machine S} {t : Target} {ts : List Target} {id : FileId} {ids : List FileId} :
    m.openHandle (t.path s) t.mode = (.returned id, mid) → Opens s mid ts ids m' →
    Opens s m (t :: ts) (id :: ids) m'

/-- Targets are opened one after another, up to the first that cannot be. -/
structure Stops (s : Session) (m : Machine S) (ts before : List Target) (t : Target) (f : Fault)
    (ids : List FileId) (m' : Machine S) : Prop where
  split : ∃ later, ts = before ++ t :: later
  opens : Opens s m before ids m'
  fails : m'.openHandle (t.path s) t.mode = (.raised f, m')

theorem openPath_frame {cwd : Path} {path : String} {mode : OpenMode} {o : Nat}
    (h : m.openPath cwd path mode = .ok (o, m')) :
    m'.handles = m.handles ∧ m'.processes = m.processes := by
  unfold Machine.openPath at h
  cases mode <;> simp only [Bind.bind, Except.bind, Pure.pure, Except.pure] at h <;> split at h <;>
    first | (cases h; done) | (cases h; exact ⟨rfl, rfl⟩)

/-- What comes of opening a file. -/
theorem openHandle_cases (m : Machine S) (path : String) (mode : OpenMode) :
    (Machine.hasNul path = true ∧ m.openHandle path mode = (.raised .embeddedNul, m)) ∨
      (∃ e, m.openPath m.cwd path mode = .error e ∧
        m.openHandle path mode = (.raised (.system e (some path)), m)) ∨
      ∃ mid opening, m.openHandle path mode = (.returned m.handles.size, mid) ∧
        mid.handles = m.handles.push { opening, path, mode } ∧ mid.processes = m.processes := by
  rw [Machine.openHandle]
  by_cases hnul : Machine.hasNul path = true
  · exact .inl ⟨hnul, by rw [if_pos hnul]⟩
  · rw [if_neg hnul]
    cases hopen : m.openPath m.cwd path mode with
    | error e => exact .inr (.inl ⟨e, rfl, rfl⟩)
    | ok opened =>
      obtain ⟨opening, mid⟩ := opened
      obtain ⟨hhandles, hprocesses⟩ := openPath_frame hopen
      refine .inr (.inr ⟨{ mid with handles := mid.handles.push { opening, path, mode } }, opening,
        ?_, ?_, hprocesses⟩)
      · rw [← hhandles]
      · rw [← hhandles]

theorem not_opened_of_error {path : String} {mode : OpenMode} {id : FileId} {e : Nat}
    (h : m.openPath m.cwd path mode = .error e) : m.openHandle path mode ≠ (.returned id, m') := by
  rw [Machine.openHandle, h]
  split <;> nofun

/-- Either all targets can be opened, or there is a first one that cannot. -/
theorem opens_or_stops (s : Session) (m : Machine S) (ts : List Target) :
    (∃ ids m', Opens s m ts ids m') ∨
      ∃ before t f ids m', Stops s m ts before t f ids m' := by
  induction ts generalizing m with
  | nil => exact .inl ⟨[], m, .nil m⟩
  | cons t ts ih =>
    rcases openHandle_cases m (t.path s) t.mode with
      ⟨-, hfails⟩ | ⟨e, -, hfails⟩ | ⟨mid, -, hopen, -, -⟩
    · exact .inr ⟨[], t, _, [], m, ⟨ts, rfl⟩, .nil m, hfails⟩
    · exact .inr ⟨[], t, _, [], m, ⟨ts, rfl⟩, .nil m, hfails⟩
    · rcases ih mid with ⟨ids, m', hall⟩ | ⟨before, t', f, ids, m', ⟨later, hsplit⟩, hopens, hfails⟩
      · exact .inl ⟨_, m', .cons hopen hall⟩
      · exact .inr ⟨t :: before, t', f, _, m', ⟨later, by rw [hsplit]; rfl⟩, .cons hopen hopens,
          hfails⟩

theorem opens_append (h : Opens s m (ts ++ ts') ids m') : ∃ ids₁ ids₂ mid,
    ids = ids₁ ++ ids₂ ∧ Opens s m ts ids₁ mid ∧ Opens s mid ts' ids₂ m' := by
  induction ts generalizing m ids with
  | nil => exact ⟨[], ids, m, rfl, .nil m, h⟩
  | cons t ts ih =>
    cases h with
    | cons hopen hrest =>
      obtain ⟨ids₁, ids₂, mid, rfl, h₁, h₂⟩ := ih hrest
      exact ⟨_, ids₂, mid, rfl, .cons hopen h₁, h₂⟩

/-- The first target that cannot be opened is among the first ones, or these can all be opened. -/
theorem Stops.append_cases (h : Stops s m (ts ++ ts') before t f ids m') :
    Stops s m ts before t f ids m' ∨ ∃ ids₁ ids₂ mid before',
      ids = ids₁ ++ ids₂ ∧ before = ts ++ before' ∧ Opens s m ts ids₁ mid ∧
        Stops s mid ts' before' t f ids₂ m' := by
  obtain ⟨⟨later, hsplit⟩, hopens, hfails⟩ := h
  rcases List.append_eq_append_iff.1 hsplit with ⟨rest, rfl, hrest⟩ | ⟨rest, hts, hrest⟩
  · obtain ⟨ids₁, ids₂, mid, rfl, h₁, h₂⟩ := opens_append hopens
    exact .inr ⟨ids₁, ids₂, mid, rest, rfl, rfl, h₁, ⟨later, hrest⟩, h₂, hfails⟩
  · cases rest with
    | nil =>
      rw [List.append_nil] at hts
      subst hts
      exact .inr ⟨ids, [], m', [], by simp, by simp, hopens, ⟨later, hrest.symm⟩, .nil m', hfails⟩
    | cons t' rest =>
      obtain ⟨rfl, -⟩ : t = t' ∧ later = rest ++ ts' := by simpa using hrest
      exact .inl ⟨⟨rest, hts⟩, hopens, hfails⟩

theorem Stops.ne_nil (h : Stops s m ts before t f ids m') : ts ≠ [] := by
  obtain ⟨later, hsplit⟩ := h.split
  simp [hsplit]

/-- A file that was opened is a new one, with nothing in its buffer. -/
theorem openHandle_returned {path : String} {mode : OpenMode} {id : FileId}
    (h : m.openHandle path mode = (.returned id, m')) (hm : m.Unwritten ids) :
    m'.Unwritten (ids ++ [id]) ∧ m'.processes = m.processes := by
  rcases openHandle_cases m path mode with
    ⟨-, hfails⟩ | ⟨e, -, hfails⟩ | ⟨mid, opening, hopened, hhandles, hprocesses⟩
  · cases h.symm.trans hfails
  · cases h.symm.trans hfails
  · cases h.symm.trans hopened
    refine ⟨fun i hi => ?_, hprocesses⟩
    rw [hhandles]
    rcases List.mem_append.1 hi with hi | hi
    · obtain ⟨handle, hhandle, hpending⟩ := hm i hi
      have hlt : i < m.handles.size := (Array.getElem?_eq_some_iff.1 hhandle).1
      refine ⟨handle, ?_, hpending⟩
      rw [Array.getElem?_push, if_neg (Nat.ne_of_lt hlt), hhandle]
    · rw [List.mem_singleton.1 hi, Array.getElem?_push_size]
      exact ⟨_, rfl, rfl⟩

theorem Opens.kept (h : Opens s m ts ids m') (hm : m.Unwritten ids') :
    m'.Unwritten (ids' ++ ids) ∧ m'.processes = m.processes := by
  induction h generalizing ids' with
  | nil m => simpa using hm
  | cons hopen _ ih =>
    obtain ⟨hmid, hprocesses⟩ := openHandle_returned hopen hm
    obtain ⟨hm', hprocesses'⟩ := ih hmid
    exact ⟨by simpa using hm', hprocesses'.trans hprocesses⟩

/-- Files that have just been opened have nothing in their buffers. -/
theorem Opens.unwritten (h : Opens s m ts ids m') : m'.Unwritten ids :=
  (h.kept m.unwritten_nil).1

theorem Opens.processes (h : Opens s m ts ids m') : m'.processes = m.processes :=
  (h.kept m.unwritten_nil).2

/-! ### Opening the files of a stage -/

/-- The files of a stage that are closed at once after a fault, which are none if it is not one of
the system's. -/
def dropped (f : Fault) (ids : List FileId) : List FileId := if f.isIo then ids else []

theorem mem_dropped {id : FileId} : id ∈ dropped f ids ↔ f.isIo = true ∧ id ∈ ids := by
  rw [dropped]
  split <;> simp [*]

variable (h : Host S) {operand : Option String} {mode : OpenMode} {others : List FileId} {w : Wiring}

theorem answer_openFile (path : String) (mode : OpenMode) (m : Machine S) :
    h.kernel.answer (.openFile path mode) m = m.openHandle path mode := rfl

theorem openTarget_runs {id : FileId}
    (hopen : m.openHandle (t.path s) t.mode = (.returned id, m')) :
    RunsTo h.kernel (Shell.openTarget t.operand t.mode) s m (.returned id) m'
      [⟨.openFile (t.path s) t.mode, .returned id⟩] := by
  have hask : RunsTo h.kernel (Shell.openFile (t.path s) t.mode) s m (.returned id) m'
      [⟨.openFile (t.path s) t.mode, .returned id⟩] := .ask ((answer_openFile h _ _ m).trans hopen)
  exact .session_bind hask.handle

theorem openTarget_raises (hfails : m.openHandle (t.path s) t.mode = (.raised f, m)) :
    RunsTo h.kernel (Shell.openTarget t.operand t.mode) s m (.raised (t.fault f)) m
      [⟨.openFile (t.path s) t.mode, .raised f⟩] := by
  have hask : RunsTo h.kernel (Shell.openFile (t.path s) t.mode) s m (.raised f) m
      [⟨.openFile (t.path s) t.mode, .raised f⟩] := .ask ((answer_openFile h _ _ m).trans hfails)
  rw [Target.fault]
  split
  · exact .session_bind (hask.handle_raised ‹_› .raise)
  · exact .session_bind (hask.handle_passed (Bool.eq_false_iff.2 ‹_›))

theorem openOptional_runs (others : List FileId)
    (hopens : Opens s m (targetsOf operand mode) ids m') :
    ∃ file es, ids = file.toList ∧ Filed s (targetsOf operand mode) [] es ∧
      RunsTo h.kernel (Shell.openOptional operand mode others) s m (.returned file) m' es := by
  cases operand with
  | none =>
    cases hopens
    exact ⟨none, [], rfl, .nil, .pure⟩
  | some operand =>
    obtain ⟨id, rfl, hopen⟩ : ∃ id, ids = [id] ∧
        m.openHandle (Target.path s ⟨operand, mode⟩) mode = (.returned id, m') := by
      rcases hopens with _ | ⟨hopen, hnil⟩
      cases hnil
      exact ⟨_, rfl, hopen⟩
    exact ⟨some id, _, rfl, .open_ ⟨operand, mode⟩ _,
      (openTarget_runs h (t := ⟨operand, mode⟩) hopen).handle.map⟩

theorem openOptional_stops (hstops : Stops s m (targetsOf operand mode) before t f ids m')
    (hm : m.Unwritten others) : ∃ m'' es, before = [] ∧ ids = [] ∧ m' = m ∧
      Shut m (dropped f others) m'' ∧ Filed s [t] [] es ∧
      RunsTo h.kernel (Shell.openOptional operand mode others) s m (.raised (t.fault f)) m'' es := by
  obtain ⟨⟨later, hsplit⟩, hopens, hfails⟩ := hstops
  cases operand with
  | none => simp [targetsOf] at hsplit
  | some operand =>
    -- there is one target only, so it is the one that fails
    obtain ⟨rfl, rfl⟩ : before = [] ∧ t = ⟨operand, mode⟩ := by
      cases before with
      | nil => exact ⟨rfl, by simpa [targetsOf, eq_comm] using (List.cons.inj hsplit).1⟩
      | cons _ before => simp [targetsOf] at hsplit
    cases hopens
    have htarget := openTarget_raises h hfails
    cases hio : f.isIo with
    | true =>
      obtain ⟨m'', es, hclose, hshut, hfiled⟩ := closeAll_runs (s := s) h hm
      have hraise : ∀ e, RunsTo h.kernel (Shell.closing others (Shell.raise e : Shell _ FileId)) s m
          (.raised e) m'' ([] ++ es) := fun e => .closing .raise nofun hclose
      refine ⟨m'', _, rfl, rfl, rfl, by rwa [dropped, if_pos hio], ?_,
        (htarget.handle_raised ((Target.isCannotOpen_fault _ _).trans hio) (hraise _)).map_raised⟩
      exact (Filed.open_ _ _).append hfiled
    | false =>
      -- the other files are left open
      refine ⟨m, _, rfl, rfl, rfl, ?_, .open_ _ _,
        (htarget.handle_passed ((Target.isCannotOpen_fault _ _).trans hio)).map_raised⟩
      simpa [dropped, hio] using Shut.refl m

/-- If all its files can be opened, so can a stage's. -/
theorem openStage_runs (hopens : Opens s m w.targets ids m') : ∃ files es,
    files.ids = ids.reverse ∧ Filed s w.targets [] es ∧
      RunsTo h.kernel (Shell.openStage w) s m (.returned files) m' es := by
  obtain ⟨ids₁, ids₂, mid, rfl, hopens₁, herror⟩ := opens_append hopens
  obtain ⟨ids₃, ids₄, mid', rfl, hinput, houtput⟩ := opens_append hopens₁
  obtain ⟨input, es₁, rfl, hfiled₁, hrun₁⟩ := openOptional_runs h [] hinput
  obtain ⟨output, es₂, rfl, hfiled₂, hrun₂⟩ := openOptional_runs h input.toList houtput
  obtain ⟨error, es₃, rfl, hfiled₃, hrun₃⟩ :=
    openOptional_runs h (output.toList ++ input.toList) herror
  refine ⟨{ input, output, error }, _, ?_, ?_, hrun₁.bind (hrun₂.bind (hrun₃.bind .pure))⟩
  · cases input <;> cases output <;> cases error <;> rfl
  · have hfiled := hfiled₁.append (hfiled₂.append (hfiled₃.append .nil))
    simpa [Wiring.targets, List.append_assoc] using hfiled

/-- If the system refuses one, those of the stage that were opened before are closed. -/
theorem openStage_stops (hstops : Stops s m w.targets before t f ids m') :
    ∃ m'' es, Shut m' (dropped f ids) m'' ∧ Filed s (before ++ [t]) [] es ∧
      RunsTo h.kernel (Shell.openStage w) s m (.raised (t.fault f)) m'' es := by
  rcases hstops.append_cases with hstops | ⟨ids₁, ids₂, mid, before', rfl, rfl, hopens, herror⟩
  · rcases hstops.append_cases with hinput | ⟨ids₁, ids₂, mid, before', rfl, rfl, hinput, houtput⟩
    · -- the input file
      obtain ⟨m'', es, rfl, rfl, rfl, hshut, hfiled, hrun⟩ :=
        openOptional_stops h hinput m.unwritten_nil
      exact ⟨m'', es, hshut, hfiled, hrun.bind_raised⟩
    · -- the output file
      obtain ⟨input, es₁, rfl, hfiled₁, hrun₁⟩ := openOptional_runs h [] hinput
      obtain ⟨m'', es, rfl, rfl, rfl, hshut, hfiled, hrun⟩ :=
        openOptional_stops h houtput hinput.unwritten
      refine ⟨m'', _, by rwa [List.append_nil], ?_, hrun₁.bind hrun.bind_raised⟩
      rw [List.append_nil]
      exact hfiled₁.append hfiled
  · -- the error file
    obtain ⟨ids₃, ids₄, mid', rfl, hinput, houtput⟩ := opens_append hopens
    obtain ⟨input, es₁, rfl, hfiled₁, hrun₁⟩ := openOptional_runs h [] hinput
    obtain ⟨output, es₂, rfl, hfiled₂, hrun₂⟩ :=
      openOptional_runs h input.toList houtput
    have hboth : ∀ id, id ∈ input.toList ++ output.toList ↔ id ∈ output.toList ++ input.toList := by
      intro id
      rw [List.mem_append, List.mem_append, or_comm]
    have hunwritten : mid.Unwritten (output.toList ++ input.toList) :=
      fun id hid => hopens.unwritten id ((hboth id).2 hid)
    obtain ⟨m'', es, rfl, rfl, rfl, hshut, hfiled, hrun⟩ :=
      openOptional_stops h herror hunwritten
    refine ⟨m'', _, ?_, ?_, hrun₁.bind (hrun₂.bind hrun.bind_raised)⟩
    · rw [List.append_nil]
      refine hshut.congr fun id => ?_
      rw [mem_dropped, mem_dropped, hboth]
    · rw [List.append_nil, List.append_assoc]
      exact hfiled₁.append (hfiled₂.append hfiled)

/-! ### Opening the files of all stages -/

variable {stages : List (Command × Wiring)}

theorem idsOf_cons (plan : Shell.Plan) (plans : List Shell.Plan) :
    Shell.idsOf (plan :: plans) = Shell.idsOf plans ++ plan.files.ids := by
  simp [Shell.idsOf]

theorem openStages_runs (hopens : Opens s m (stages.flatMap (·.2.targets)) ids m') : ∃ plans es,
    Shell.idsOf plans = ids.reverse ∧ Filed s (stages.flatMap (·.2.targets)) [] es ∧
      RunsTo h.kernel (Shell.openStages stages) s m (.returned (plans, none)) m' es := by
  induction stages generalizing m ids with
  | nil =>
    cases hopens
    exact ⟨[], [], rfl, .nil, .pure⟩
  | cons stage stages ih =>
    obtain ⟨command, w⟩ := stage
    obtain ⟨ids₁, ids₂, mid, rfl, hstage, hrest⟩ := opens_append hopens
    obtain ⟨files, es₁, hids₁, hfiled₁, hrun₁⟩ := openStage_runs h hstage
    obtain ⟨plans, es₂, hids₂, hfiled₂, hrun₂⟩ := ih hrest
    refine ⟨⟨command, w, files⟩ :: plans, _, ?_, ?_, hrun₁.attempt.bind (hrun₂.bind .pure)⟩
    · rw [idsOf_cons, hids₁, hids₂, List.reverse_append]
    · rw [List.append_nil, List.flatMap_cons]
      exact hfiled₁.append hfiled₂

/-- If some file cannot be opened, those of the stages before are still open. -/
theorem openStages_stops (hstops : Stops s m (stages.flatMap (·.2.targets)) before t f ids m')
    : ∃ plans ids₁ ids₂ m'' es, ids = ids₁ ++ ids₂ ∧
      Shell.idsOf plans = ids₁.reverse ∧ Shut m' (dropped f ids₂) m'' ∧
        Filed s (before ++ [t]) [] es ∧ RunsTo h.kernel (Shell.openStages stages) s m
          (.returned (plans, some (t.fault f))) m'' es := by
  induction stages generalizing m before ids with
  | nil => exact absurd rfl hstops.ne_nil
  | cons stage stages ih =>
    obtain ⟨command, w⟩ := stage
    rcases hstops.append_cases with hstops | ⟨ids₁, ids₂, mid, before', rfl, rfl, hopens, hstops⟩
    · obtain ⟨m'', es, hshut, hfiled, hrun⟩ := openStage_stops h hstops
      refine ⟨[], [], ids, m'', _, rfl, rfl, hshut, ?_, hrun.attempt_raised.bind .pure⟩
      rwa [List.append_nil]
    · obtain ⟨files, es₁, hids₁, hfiled₁, hrun₁⟩ := openStage_runs h hopens
      obtain ⟨plans, ids₃, ids₄, m'', es₂, rfl, hids, hshut, hfiled, hrun⟩ := ih hstops
      refine ⟨⟨command, w, files⟩ :: plans, ids₁ ++ ids₃, ids₄, m'', _, by simp, ?_, hshut, ?_,
        hrun₁.attempt.bind (hrun.bind .pure)⟩
      · rw [idsOf_cons, hids₁, hids, List.reverse_append]
      · rw [List.append_nil, List.append_assoc]
        exact hfiled₁.append hfiled

end Host

end LineShell
