import LineShell.Proofs.Launch
import LineShell.Proofs.Drain
import LineShell.Shell.Execute
import Mathlib.Data.List.Nodup

namespace LineShell

/-!
# What lines leave alone

A line that is more than a change of the working directory leaves that directory as it was, and all
that it starts and opens is named as seen from there.

* `Session.Grown` — a session whose registry may have grown, and that is otherwise as it was;
* `Request.isOfLine` — the requests that lines make, as seen from a session's working directory;
* `Frames` — a run that leaves such a session behind and makes such requests only;
* `runSingle_frames`, `runPipeline_frames` — both ways of running processes are such runs;
* `changeDirectory_moves` — the other way of running a line: it moves the session, or leaves it;
* `handleLine_frames` — what any line leaves alone.
-/

variable {σ α β : Type} {k : Kernel σ} {s : Session}

/-! ### Sessions that have grown -/

namespace Jobs

/-- A job that takes the place of another one belongs to the same process. -/
theorem pids_register_of_contains {js : Jobs} {job : Job} (h : js.contains job.pid = true) :
    (js.register job).pids = js.pids := by
  rw [register, if_pos h, pids, pids, List.map_map]
  refine List.map_congr_left fun j _ => ?_
  show (if j.pid = job.pid then job else j).pid = j.pid
  split
  · rename_i heq
    exact heq.symm
  · rfl

/-- Registering leaves at most one job for each process. -/
theorem nodup_register {js : Jobs} (h : js.pids.Nodup) (job : Job) :
    (js.register job).pids.Nodup := by
  cases hpid : js.contains job.pid with
  | true => rwa [pids_register_of_contains hpid]
  | false =>
    have hnot : job.pid ∉ js.pids := by
      intro hmem
      rw [contains, List.contains_iff_mem.2 hmem] at hpid
      cases hpid
    rw [pids, list_register_of_not_contains hpid, List.map_append]
    refine List.nodup_append.2 ⟨h, by simp, fun pid hmem other hother => ?_⟩
    rw [List.mem_singleton.1 hother]
    rintro rfl
    exact hnot hmem

end Jobs

/-- Nothing but the registry and the mark of an interrupt may have changed, and the registry still
has at most one job for each process. -/
structure Session.Grown (s s' : Session) : Prop where
  cwd : s'.cwd = s.cwd
  home : s'.home = s.home
  settings : s'.settings = s.settings
  nodup : s.jobs.pids.Nodup → s'.jobs.pids.Nodup

namespace Session.Grown

variable {s₁ s₂ : Session}

theorem refl (s : Session) : s.Grown s := ⟨rfl, rfl, rfl, id⟩

theorem trans (h : s.Grown s₁) (h' : s₁.Grown s₂) : s.Grown s₂ where
  cwd := h'.cwd.trans h.cwd
  home := h'.home.trans h.home
  settings := h'.settings.trans h.settings
  nodup := h'.nodup ∘ h.nodup

/-- An operand names the same path as before. -/
theorem resolve (h : s.Grown s₁) (operand : String) : s₁.resolve operand = s.resolve operand := by
  simp only [Session.resolve, Session.expandHome, h.cwd, h.home]

end Session.Grown

/-! ### The requests of lines -/

/-- The redirection operands of a line that name files. -/
def CommandLine.operands (line : CommandLine) : List String :=
  (target? line.input).toList ++ (target? line.output).toList ++ (target? line.error).toList

/-- Whether a request is for the user at the prompt, or for the line editor. -/
def Request.isEditing : Request → Bool
  | .readInput .. | .editorAvailable | .isTerminal | .bindKey _ | .exists _ | .readHistory _
  | .limitHistory _ | .historyLength | .writeHistory _ => true
  | _ => false

/-- Whether a line makes such a request: if it starts a process, it does so in the working directory,
if it opens a file, some operand names that as seen from there, and it leaves the prompt and the line
editor alone. -/
def Request.isOfLine (s : Session) (operands : List String) : Request → Bool
  | .spawn _ cwd _ => cwd == s.cwd
  | .openFile path _ => operands.any fun operand => path == (s.resolve operand).toString
  | r => !r.isEditing

variable {operands : List String}

/-- A session that has grown stands where it stood. -/
theorem Session.Grown.isOfLine {s₁ : Session} (h : s.Grown s₁) :
    Request.isOfLine s₁ operands = Request.isOfLine s operands := by
  funext r
  cases r <;> simp only [Request.isOfLine, h.cwd, h.resolve]

theorem Request.not_isEditing_of_isOfLine {r : Request} (h : r.isOfLine s operands = true) :
    (!r.isEditing) = true := by
  cases r <;> first | rfl | cases h

theorem Request.isOfLine_of_isTending (s : Session) (operands : List String) {r : Request}
    (h : r.isTending = true) : r.isOfLine s operands = true := by
  cases r <;> first | rfl | cases h

theorem Request.isOfLine_of_isClose (s : Session) (operands : List String) {r : Request}
    (h : r.isClose = true) : r.isOfLine s operands = true := by
  cases r <;> first | rfl | cases h

/-- A run that leaves the session where it was, and makes requests as lines make them from there. -/
def Frames (k : Kernel σ) (operands : List String) (x : Shell (σ × Trace) α) : Prop :=
  ∀ s, Ensures k x s fun _ s' es => s.Grown s' ∧ es.Only (Request.isOfLine s operands)

namespace Frames

variable {x : Shell (σ × Trace) α} {f : α → Shell (σ × Trace) β}

/-- A run that leaves the session as it is, and makes requests as lines make them from there. -/
theorem of_asks (h : ∀ s, Asks k (Request.isOfLine s operands) x) : Frames k operands x := by
  refine fun s => (h s s).mono ?_
  rintro o s' es ⟨rfl, hes⟩
  exact ⟨.refl s', hes⟩

theorem pure (a : α) : Frames k operands (Pure.pure a) := of_asks fun _ => .pure a

theorem raise (e : Fault) : Frames k operands (Shell.raise e : Shell (σ × Trace) α) :=
  of_asks fun _ => .raise e

/-- A request that neither starts a process nor opens a file. -/
theorem ask {r : Request} (h : ∀ s, r.isOfLine s operands = true) :
    Frames k operands (Shell.ask r) := of_asks fun s => .ask (h s)

theorem bind (hx : Frames k operands x) (hf : ∀ a, Frames k operands (f a)) :
    Frames k operands (x >>= f) := by
  refine fun s => (hx s).bind (fun a s₁ es h => ?_) (fun _ _ _ h => h) fun _ _ h => h
  obtain ⟨hgrown, hes⟩ := h
  refine (hf a s₁).mono fun o s₂ es' h' => ⟨hgrown.trans h'.1, ?_⟩
  have hes' := h'.2
  rw [hgrown.isOfLine] at hes'
  exact Trace.only_append.2 ⟨hes, hes'⟩

theorem attempt (hx : Frames k operands x) : Frames k operands x.attempt :=
  fun s => .attempt (hx s) (fun _ _ _ h => h) (fun _ _ _ h => h) fun _ _ h => h

theorem handle {handles : Fault → Bool} {g : Fault → Shell (σ × Trace) α}
    (hx : Frames k operands x) (hg : ∀ e, Frames k operands (g e)) :
    Frames k operands (x.handle handles g) := by
  refine hx.attempt.bind ?_
  rintro (e | a)
  · show Frames k operands (if handles e then g e else Shell.raise e)
    split
    · exact hg e
    · exact raise e
  · exact pure a

theorem session_bind {f : Session → Shell (σ × Trace) β} (h : ∀ s, Frames k operands (f s)) :
    Frames k operands (Shell.session >>= f) := fun s => .session_bind (h s s)

/-- What is done with the session may depend on where it stands. -/
theorem session_bind_asks {f : Session → Shell (σ × Trace) β}
    (h : ∀ s, Asks k (Request.isOfLine s operands) (f s)) :
    Frames k operands (Shell.session >>= f) := by
  refine fun s => .session_bind ((h s s).mono ?_)
  rintro o s' es ⟨rfl, hes⟩
  exact ⟨.refl s', hes⟩

theorem modifySession {g : Session → Session} (h : ∀ s : Session, s.Grown (g s)) :
    Frames k operands (Shell.modifySession g) :=
  fun s => .modifySession ⟨h s, Trace.only_nil _⟩

theorem forM {l : List α} {g : α → Shell (σ × Trace) Unit} (hg : ∀ a, Frames k operands (g a)) :
    Frames k operands (l.forM g) := by
  induction l with
  | nil => exact pure ()
  | cons a l ih => exact (hg a).bind fun _ => ih

theorem closing (ids : List FileId) (hx : Frames k operands x) :
    Frames k operands (Shell.closing ids x) := by
  refine fun s => (Ensures.closing ids (hx s)).mono ?_
  rintro o s' _ ⟨o₁, es₁, es₂, rfl, ⟨hgrown, hes⟩, hclosed, -⟩
  refine ⟨hgrown, Trace.only_append.2 ⟨hes, ?_⟩⟩
  exact hclosed.mono fun _ => Request.isOfLine_of_isClose s operands

/-- Draining and waiting start nothing and open nothing. -/
theorem of_tending {R : Session → α → Trace → Prop}
    (h : ∀ s, Performs k Request.isTending x s (R s)) : Frames k operands x :=
  of_asks fun s₀ => Performs.asks fun s => ⟨R s, (h s).mono
    (fun _ => Request.isOfLine_of_isTending s₀ operands) fun _ _ _ h => h⟩

end Frames

namespace Shell

/-! ### Opening files -/

theorem openTarget_frames {operand : String} (h : operand ∈ operands) (mode : OpenMode) :
    Frames k operands (openTarget operand mode) := by
  refine .session_bind_asks fun s => (Asks.ask ?_).handle fun f => .raise _
  exact List.any_eq_true.2 ⟨operand, h, beq_self_eq_true _⟩

theorem openOptional_frames {operand : Option String} (h : ∀ o ∈ operand, o ∈ operands)
    (mode : OpenMode) (others : List FileId) :
    Frames k operands (openOptional operand mode others) := by
  cases operand with
  | none => exact .pure _
  | some operand =>
    have hopen : Frames k operands ((openTarget operand mode).handle Fault.isCannotOpen fun f =>
        closing others (raise f)) :=
      (openTarget_frames (h operand rfl) mode).handle fun f => .closing others (.raise f)
    exact hopen.bind fun _ => .pure _

/-- The operands of a stage's wiring are among some operands. -/
def WiredFrom (operands : List String) (w : Wiring) : Prop :=
  (∀ o ∈ w.inputPath, o ∈ operands) ∧ (∀ o ∈ w.outputPath, o ∈ operands) ∧
    ∀ o ∈ w.errorPath, o ∈ operands

theorem openStage_frames {w : Wiring} (h : WiredFrom operands w) :
    Frames k operands (openStage w) := by
  obtain ⟨hinput, houtput, herror⟩ := h
  refine (openOptional_frames hinput _ _).bind fun input => ?_
  refine (openOptional_frames houtput _ _).bind fun output => ?_
  exact (openOptional_frames herror _ _).bind fun error => .pure _

theorem openStages_frames {stages : List (Command × Wiring)}
    (h : ∀ stage ∈ stages, WiredFrom operands stage.2) : Frames k operands (openStages stages) := by
  induction stages with
  | nil => exact .pure _
  | cons stage stages ih =>
    refine (openStage_frames (h stage (.head _))).attempt.bind ?_
    rintro (f | files)
    · exact .pure _
    · exact (ih fun stage hstage => h stage (.tail _ hstage)).bind fun _ => .pure _

/-! ### Starting processes -/

theorem start_frames (command : Command) (streams : Streams) :
    Frames k operands (start command streams) := by
  refine .session_bind_asks fun s => (Asks.ask rfl).bind fun _ => ?_
  have hspawn : Request.isOfLine s operands
      (.spawn (Platform.direct.arguments command.argv) s.cwd streams) = true :=
    beq_self_eq_true s.cwd
  refine (Asks.ask hspawn).attempt.bind ?_
  rintro (f | pid)
  · show Asks k _ (if f.isIo then report _ >>= fun _ => Pure.pure _ else raise f)
    split
    · exact (Asks.ask rfl).bind fun _ => .pure _
    · exact .raise f
  · exact (Asks.ask rfl).bind fun _ => .pure _

theorem launch_frames (foreground : Bool) (chunk : Int) (before : Predecessor)
    (plans : List Plan) : Frames k operands (launch foreground chunk before plans) := by
  induction plans generalizing before with
  | nil => exact .pure _
  | cons plan plans ih =>
    rw [launch_cons]
    refine (start_frames _ _).bind fun pid => ?_
    have hlink : Frames k operands (link chunk before pid) := by
      cases before with
      | running up => exact (Frames.ask fun _ => rfl).bind fun _ => .pure _
      | none => exact .pure _
      | missing => exact .pure _
    exact hlink.bind fun relay => (ih _).bind fun _ => .pure _

/-! ### The registry -/

theorem register_frames (job : Job) (announce : Bool) :
    Frames k operands (register job announce) := by
  have hgrown : ∀ s : Session, s.Grown { s with jobs := s.jobs.register job } :=
    fun s => ⟨rfl, rfl, rfl, fun h => Jobs.nodup_register h job⟩
  refine (Frames.modifySession hgrown).bind fun _ => (Frames.ask fun _ => rfl).bind fun _ => ?_
  cases announce with
  | true => exact .ask fun _ => rfl
  | false => exact .pure ()

theorem leaveInterrupted_frames (text : String) (stages : List Stage) :
    Frames k operands (leaveInterrupted text stages) := by
  refine (Frames.modifySession (g := fun s => { s with interrupted := true })
    fun s => ⟨rfl, rfl, rfl, id⟩).bind fun _ => (Frames.ask fun _ => rfl).bind fun _ =>
      .forM fun stage => ?_
  cases stage.pid with
  | none => exact .pure ()
  | some pid =>
    refine (Frames.ask fun _ => rfl).bind fun status => ?_
    cases status with
    | none => exact register_frames _ _
    | some code => exact .pure ()

theorem leaveInBackground_frames (line : CommandLine) (stages : List Stage) :
    Frames k operands (leaveInBackground line stages) := by
  refine (Frames.forM fun pid => register_frames _ _).bind fun _ => ?_
  cases stages.getLast?.bind Stage.pid with
  | none => exact .pure ()
  | some pid => exact register_frames _ _

/-! ### Lines of one command -/

theorem awaitSingle_frames (command : Command) (pid : ProcessId) :
    Frames k operands (awaitSingle command pid) := by
  refine (Frames.of_tending fun s => wait_performs pid).attempt.bind ?_
  rintro (f | code)
  · cases f with
    | interrupt => exact (leaveInterrupted_frames _ _).bind fun _ => .pure _
    | _ => exact .raise _
  · show Frames k operands (if @bne Int _ code 0 then report _ >>= fun _ => Pure.pure _ else
      Pure.pure _)
    split
    · exact (Frames.ask fun _ => rfl).bind fun _ => .pure _
    · exact .pure _

/-- Each stage is wired to files that operands of the line name. -/
theorem wiredFrom_wiring (line : CommandLine) (index : Int) :
    WiredFrom line.operands (line.wiring index) := by
  have hif : ∀ {b : Bool} {operand : Option String}, (∀ o ∈ operand, o ∈ line.operands) →
      ∀ o ∈ (if b then operand else none), o ∈ line.operands := by
    intro b operand h
    cases b with
    | true => exact h
    | false => exact fun _ => nofun
  refine ⟨hif fun o ho => ?_, hif fun o ho => ?_, hif fun o ho => ?_⟩ <;>
    simp [CommandLine.operands, Option.mem_def.1 ho]

theorem runSingle_frames (line : CommandLine) : Frames k line.operands (runSingle line) := by
  have hstart : Frames k line.operands (startSingle line) :=
    (openStage_frames (wiredFrom_wiring line 0)).bind fun files => .closing _ (start_frames _ _)
  refine hstart.attempt.bind ?_
  rintro (f | _ | pid)
  · show Frames k _ (if f.isCannotOpen then report _ >>= fun _ => Pure.pure _ else raise f)
    split
    · exact (Frames.ask fun _ => rfl).bind fun _ => .pure _
    · exact .raise f
  · exact .pure _
  · show Frames k _ (if line.blocks then awaitSingle line.first pid else
      (register ⟨pid, line.text, false⟩ true >>= fun _ => Pure.pure _))
    split
    · exact awaitSingle_frames _ _
    · exact (register_frames _ _).bind fun _ => .pure _

/-! ### Pipelines -/

theorem awaitPipeline_frames (sink : Option FileId) (stages : List Stage) (relays : List RelayId)
    (result : Result) : Frames k operands (awaitPipeline sink stages relays result) := by
  refine (Frames.of_tending fun s => collect_performs).bind fun collected => ?_
  obtain ⟨code, fault⟩ := collected
  cases fault with
  | none => exact .pure _
  | some f =>
    cases f with
    | interrupt => exact (leaveInterrupted_frames _ _).bind fun _ => .pure _
    | system | described | brokenPipe | cannotOpen =>
      refine (Frames.ask fun _ => rfl).bind fun _ => ?_
      exact (Frames.of_tending fun s => waitAll_performs _).bind fun _ => .pure _
    | invalid | wrongKind | outOfRange | linkLoop => exact .raise _

theorem runStages_frames (line : CommandLine) (plans : List Plan) :
    Frames k operands (runStages line plans) := by
  refine .session_bind fun s => (launch_frames _ _ _ _).bind fun launched => ?_
  show Frames k operands (if line.blocks then _ else _)
  split
  · exact awaitPipeline_frames _ _ _ _
  · exact (leaveInBackground_frames _ _).bind fun _ => .pure _

theorem reportRelays_frames (result : Result) (relays : List RelayId) :
    Frames k operands (reportRelays result relays) := by
  induction relays generalizing result with
  | nil => exact .pure _
  | cons relay relays ih =>
    refine (Frames.ask fun _ => rfl).bind fun fault => ?_
    cases fault with
    | none => exact ih result
    | some f => exact (Frames.ask fun _ => rfl).bind fun _ => ih _

theorem reportExit_frames (result : Result) (lastStarted : Bool) :
    Frames k operands (reportExit result lastStarted) := by
  unfold reportExit
  split
  · exact .pure ()
  · split
    · exact .ask fun _ => rfl
    · exact .pure ()

theorem runPipeline_frames (line : CommandLine) : Frames k line.operands (runPipeline line) := by
  have hopen : Frames k line.operands (openStages (line.commands.zip line.wirings)) := by
    refine openStages_frames fun stage hstage => ?_
    obtain ⟨i, -, hi⟩ := List.mem_map.1 (List.of_mem_zip hstage).2
    exact hi ▸ wiredFrom_wiring line i
  refine hopen.bind fun opened => ?_
  obtain ⟨plans, fault⟩ := opened
  refine Frames.bind (.closing _ ?_) fun ending => ?_
  · cases fault with
    | none => exact runStages_frames line plans
    | some f =>
      show Frames k _ (if f.isCannotOpen then report _ >>= fun _ => Pure.pure _ else raise f)
      split
      · exact (Frames.ask fun _ => rfl).bind fun _ => .pure _
      · exact .raise f
  · cases ending with
    | done result => exact .pure _
    | exited result relays lastStarted =>
      refine (reportRelays_frames _ _).bind fun result => ?_
      exact (reportExit_frames _ _).bind fun _ => .pure _

/-! ### Changes of the working directory -/

/-- What a change of the working directory is to lead to: what the first argument names, or home. -/
def destination (s : Session) (command : Command) : String :=
  s.expandHome (command.args.headD s.home)

/-- The session stands elsewhere now, where it has been told that its destination leads to, and that
a directory is there. Nothing else of it has changed. -/
def MovedTo (s : Session) (command : Command) (s' : Session) (es : Trace) : Prop :=
  ∃ path before after, s' = { s with cwd := path } ∧
    es = before ++ ⟨.canonical (s.resolve (destination s command)), .returned path⟩ ::
      ⟨.isDirectory path, .returned true⟩ :: after

/-- The answer of a change of the working directory that was made. -/
abbrev moved : Result := { exitCode := some 0 }

/-- **A change of the working directory** is answered with success just where it moves the session,
and starts and opens nothing. -/
theorem changeDirectory_moves (operands : List String) (command : Command) :
    Ensures k (changeDirectory command) s fun o s' es =>
      es.Only (Request.isOfLine s operands) ∧
        ((s' = s ∧ o ≠ .returned moved) ∨ (o = .returned moved ∧ MovedTo s command s' es)) := by
  have hone : ∀ (r : Request) o, r.isOfLine s operands = true →
      Trace.Only (Request.isOfLine s operands) [⟨r, o⟩] :=
    fun r o h => Trace.only_cons.2 ⟨h, Trace.only_nil _⟩
  -- whatever is reported, the answer is one of failure
  have hreport : ∀ (text : String) (failure : Failure),
      Ensures k (report text >>= fun _ =>
        pure ({ exitCode := some 1, failure := some failure } : Result)) s fun o s' es =>
          s' = s ∧ o ≠ .returned moved ∧ es.Only (Request.isOfLine s operands) := by
    intro text failure
    refine .ask_bind (fun _ => .pure ⟨rfl, by simp, hone _ _ rfl⟩)
      (fun _ => ⟨rfl, nofun, hone _ _ rfl⟩) ⟨rfl, nofun, hone _ _ rfl⟩
  refine .session_bind (Ensures.attempt_bind (.ask (Q := fun o s' es => s' = s ∧
    es = [⟨.canonical (s.resolve (destination s command)), o⟩]) fun o => ⟨rfl, rfl⟩) ?_ ?_ ?_)
  · rintro path s' es ⟨rfl, rfl⟩
    have hfound := hone (.canonical (s'.resolve (destination s' command))) (.returned path) rfl
    refine .ask_bind (fun there => ?_)
      (fun _ => ⟨Trace.only_append.2 ⟨hfound, hone _ _ rfl⟩, .inl ⟨rfl, nofun⟩⟩)
      ⟨Trace.only_append.2 ⟨hfound, hone _ _ rfl⟩, .inl ⟨rfl, nofun⟩⟩
    have hlooked : ∀ {es : Trace}, es.Only (Request.isOfLine s' operands) →
        Trace.Only (Request.isOfLine s' operands)
          ([⟨.canonical (s'.resolve (destination s' command)), .returned path⟩] ++
            ⟨.isDirectory path, .returned there⟩ :: es) :=
      fun h => Trace.only_append.2 ⟨hfound, Trace.only_cons.2 ⟨rfl, h⟩⟩
    cases there with
    | true =>
      refine .session_bind (.ask_bind (fun _ => .modifySession_bind (.pure ⟨?_, .inr ⟨rfl, ?_⟩⟩))
        (fun _ => ⟨hlooked (hone _ _ rfl), .inl ⟨rfl, nofun⟩⟩)
        ⟨hlooked (hone _ _ rfl), .inl ⟨rfl, nofun⟩⟩)
      · exact hlooked (hone _ _ rfl)
      · exact ⟨path, [], _, rfl, rfl⟩
    | false =>
      refine (hreport _ .notFound).mono ?_
      rintro o s'' es ⟨rfl, hfailed, hes⟩
      exact ⟨hlooked hes, .inl ⟨rfl, hfailed⟩⟩
  · rintro f s' es ⟨rfl, rfl⟩
    show Ensures k (if isUnreachable f then report _ >>= fun _ => pure _ else raise f) s' _
    split
    · refine (hreport _ .io).mono ?_
      rintro o s'' es ⟨rfl, hfailed, hes⟩
      exact ⟨Trace.only_append.2 ⟨hone _ _ rfl, hes⟩, .inl ⟨rfl, hfailed⟩⟩
    · exact .raise ⟨hone _ _ rfl, .inl ⟨rfl, nofun⟩⟩
  · rintro s' es ⟨rfl, rfl⟩
    exact ⟨hone _ _ rfl, .inl ⟨rfl, nofun⟩⟩

/-! ### Any line -/

/-- The redirection operands of a text that is a command line. -/
def operandsOf (text : String) : List String :=
  match CommandLine.parse text with
  | .ok (some line) => line.operands
  | _ => []

/-- A text is a change of the working directory that was made. -/
def MovedBy (text : String) (s : Session) (o : Outcome (Option Result)) (s' : Session)
    (es : Trace) : Prop :=
  ∃ line, CommandLine.parse text = .ok (some line) ∧ line.isChangeDirectory = true ∧
    o = .returned (some moved) ∧ MovedTo s line.first s' es

/-- **What a line leaves alone.** All that it starts and opens is seen from where the session stands.
It stays there, with its home and its settings, unless the line is a change of the working directory
that was made. -/
theorem handleLine_frames (text : String) : Ensures k (handleLine text) s fun o s' es =>
    es.Only (Request.isOfLine s (operandsOf text)) ∧
      (s.Grown s' ∨ MovedBy text s o s' es) := by
  have hquiet : ∀ {x : Shell (σ × Trace) (Option Result)}, Frames k (operandsOf text) x →
      Ensures k x s fun o s' es => es.Only (Request.isOfLine s (operandsOf text)) ∧
        (s.Grown s' ∨ MovedBy text s o s' es) := by
    intro x hx
    exact (hx s).mono fun o s' es h => ⟨h.2, .inl h.1⟩
  unfold handleLine
  split
  · exact hquiet ((Frames.ask fun _ => rfl).bind fun _ => .pure none)
  · exact hquiet (.pure none)
  · rename_i line hparse
    have hoperands : operandsOf text = line.operands := by
      rw [operandsOf, hparse]
    unfold execute
    split
    · rename_i hcd
      -- the note comes before whatever the change of the directory asks for
      have hnote : ∀ o, Trace.Only (Request.isOfLine s (operandsOf text))
          [⟨.log ⟨.debug, .prompt, "executing: " ++ line.text⟩, o⟩] :=
        fun o => Trace.only_cons.2 ⟨rfl, Trace.only_nil _⟩
      refine .ask_bind (fun _ => ?_) (fun _ => ⟨hnote _, .inl (.refl s)⟩) ⟨hnote _, .inl (.refl s)⟩
      refine (changeDirectory_moves (operandsOf text) line.first).map ?_ ?_ ?_
      · rintro r s' es ⟨hes, ⟨rfl, -⟩ | ⟨hr, path, before, after, hs', hes'⟩⟩
        · exact ⟨Trace.only_cons.2 ⟨rfl, hes⟩, .inl (.refl s')⟩
        · cases hr
          refine ⟨Trace.only_cons.2 ⟨rfl, hes⟩, .inr ⟨line, hparse, hcd, rfl, ?_⟩⟩
          exact ⟨path, _ :: before, after, hs', by rw [hes', List.cons_append]⟩
      · rintro f s' es ⟨hes, ⟨rfl, -⟩ | ⟨hr, -⟩⟩
        · exact ⟨Trace.only_cons.2 ⟨rfl, hes⟩, .inl (.refl s')⟩
        · cases hr
      · rintro s' es ⟨hes, ⟨rfl, -⟩ | ⟨hr, -⟩⟩
        · exact ⟨Trace.only_cons.2 ⟨rfl, hes⟩, .inl (.refl s')⟩
        · cases hr
    · rw [hoperands] at hquiet ⊢
      refine hquiet ((Frames.ask fun _ => rfl).bind fun _ => ?_)
      rw [map_eq_pure_bind]
      refine Frames.bind ?_ fun _ => .pure _
      split
      · exact runPipeline_frames line
      · exact runSingle_frames line

end Shell

end LineShell
