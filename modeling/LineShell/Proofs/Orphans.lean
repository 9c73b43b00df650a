import LineShell.Proofs.Custody
import LineShell.Proofs.Serving

namespace LineShell

/-!
# What the prompt loop leaves behind

When the interpreter ends its jobs on leaving, no process that it has started is left running
unasked, unless a fault has escaped from a line that still had one.

* `Trace.Followed` — each event is followed by what it should be;
* `Trace.NoOrphans` — each process has been seen to exit, or has been asked to end;
* `Trace.WatchedIf` — each process has been seen to exit, or is a job;
* `Goes`, `Tracks` — the registry gives up only processes that have been seen to exit;
* `execute_watches`, `serveLines_watches` — what lines, and the loop over them, do for processes;
* `leave_ends` — leaving ends all jobs;
* `serve_orphans_iff` — which processes become orphans.
-/

variable {σ α β : Type} {k : Kernel σ} {s : Session}

/-! ### What follows the start of a process -/

/-- The process that an event finds to have exited, or asks to end with a signal that is
delivered. -/
def Event.ended? : Event → Option ProcessId
  | ⟨.terminate pid, .returned .delivered⟩ => some pid
  | e => e.exited?

theorem Event.ended?_of_exited? {e : Event} {pid : ProcessId} (h : e.exited? = some pid) :
    e.ended? = some pid := by
  obtain ⟨r, o⟩ := e
  cases r <;> first | exact h | cases h

namespace Trace

/-- Each event is followed by what it should be. -/
def Followed (P : Event → Trace → Prop) : Trace → Prop
  | [] => True
  | e :: es => P e es ∧ Followed P es

instance {P : Event → Trace → Prop} [∀ e post, Decidable (P e post)] :
    ∀ es, Decidable (Followed P es)
  | [] => isTrue trivial
  | e :: es =>
    have : Decidable (Followed P es) := instDecidableFollowed es
    inferInstanceAs (Decidable (P e es ∧ Followed P es))

variable {P Q : Event → Trace → Prop} {es es' : Trace}

theorem followed_append :
    Followed P (es ++ es') ↔ Followed (fun e post => P e (post ++ es')) es ∧ Followed P es' := by
  induction es with
  | nil => simp [Followed]
  | cons e es ih => simp only [List.cons_append, Followed, ih, and_assoc]

theorem Followed.mono (h : Followed P es) (hPQ : ∀ e post, P e post → Q e post) :
    Followed Q es := by
  induction es with
  | nil => trivial
  | cons e es ih => exact ⟨hPQ e es h.1, ih h.2⟩

theorem Followed.and (h : Followed P es) (h' : Followed Q es) :
    Followed (fun e post => P e post ∧ Q e post) es := by
  induction es with
  | nil => trivial
  | cons e es ih => exact ⟨⟨h.1, h'.1⟩, ih h.2 h'.2⟩

/-- The processes that were found to have exited or were asked to end, in order. -/
def ended (es : Trace) : List ProcessId := es.filterMap Event.ended?

@[simp] theorem ended_append (es es' : Trace) : ended (es ++ es') = es.ended ++ es'.ended :=
  List.filterMap_append

theorem exits_subset_ended : es.exits ⊆ es.ended := by
  intro pid hpid
  obtain ⟨e, he, hexited⟩ := List.mem_filterMap.1 hpid
  exact List.mem_filterMap.2 ⟨e, he, Event.ended?_of_exited? hexited⟩

/-- Each process that was started has been seen to exit since, or has been asked to end. -/
def NoOrphans (es : Trace) : Prop :=
  es.Followed fun e post => ∀ pid ∈ e.spawned?.join, pid ∈ post.ended

instance (es : Trace) : Decidable es.NoOrphans :=
  inferInstanceAs (Decidable (Followed _ es))

/-- Each process that was started where something holds of what follows has been seen to exit since,
or asked to end, or is a job. -/
def WatchedIf (p : Trace → Prop) (jobs : Jobs) (es : Trace) : Prop :=
  es.Followed fun e post => p post →
    ∀ pid ∈ e.spawned?.join, pid ∈ post.ended ∨ jobs.contains pid = true

/-- Each process that was started has been seen to exit since, or asked to end, or is a job. -/
abbrev Watched : Jobs → Trace → Prop := WatchedIf fun _ => True

theorem Followed.of_forall (h : ∀ e ∈ es, ∀ post, P e post) : Followed P es := by
  induction es with
  | nil => trivial
  | cons e es ih => exact ⟨h e (.head _) es, ih fun e he => h e (.tail _ he)⟩

theorem mem_started {e : Event} {pid : ProcessId} (he : e ∈ es) (hpid : pid ∈ e.spawned?.join) :
    pid ∈ es.started := by
  have hspawned : e.spawned? = some (some pid) := Option.join_eq_some_iff.1 hpid
  exact List.mem_filterMap.2 ⟨_, List.mem_filterMap.2 ⟨e, he, hspawned⟩, rfl⟩

theorem watchedIf_of_spawns {p : Trace → Prop} {jobs : Jobs} (h : es.spawns = []) :
    es.WatchedIf p jobs := by
  refine .of_forall fun e he post _ pid hpid => ?_
  have hmem := mem_started he hpid
  rw [started, h] at hmem
  cases hmem

end Trace

/-! ### The registry along a run -/

/-- The settings stay, and the registry gives up only processes that have been seen to exit. -/
structure Goes (s s' : Session) (es : Trace) : Prop where
  settings : s'.settings = s.settings
  keeps : ∀ pid, s.jobs.contains pid = true → s'.jobs.contains pid = true ∨ pid ∈ es.ended

namespace Goes

variable {s₁ s₂ : Session} {es es' : Trace}

theorem refl (s : Session) (es : Trace) : Goes s s es := ⟨rfl, fun _ h => .inl h⟩

theorem trans (h : Goes s s₁ es) (h' : Goes s₁ s₂ es') : Goes s s₂ (es ++ es') := by
  refine ⟨h'.settings.trans h.settings, fun pid hpid => ?_⟩
  rw [Trace.ended_append, List.mem_append]
  rcases h.keeps pid hpid with hpid | hpid
  · exact (h'.keeps pid hpid).imp id .inr
  · exact .inr (.inl hpid)

/-- Registering a process gives up none. -/
theorem register (s : Session) (job : Job) (es : Trace) :
    Goes s { s with jobs := s.jobs.register job } es := by
  refine ⟨rfl, fun pid hpid => .inl ?_⟩
  show (s.jobs.register job).contains pid = true
  rw [Jobs.contains_register, hpid, Bool.or_true]

/-- What is watched stays watched. -/
theorem watched (h : Goes s s₁ es') {p : Trace → Prop} (hes : es.Watched s.jobs)
    (hes' : es'.WatchedIf p s₁.jobs) : Trace.WatchedIf p s₁.jobs (es ++ es') := by
  refine Trace.followed_append.2 ⟨hes.mono fun e post hwatched _ pid hpid => ?_, hes'⟩
  rw [Trace.ended_append, List.mem_append]
  rcases hwatched trivial pid hpid with hpid | hpid
  · exact .inl (.inl hpid)
  · exact (h.keeps pid hpid).elim .inr fun h => .inl (.inr h)

end Goes

/-- A run along which the registry gives up only processes that have been seen to exit. -/
def Tracks (k : Kernel σ) (x : Shell (σ × Trace) α) : Prop :=
  ∀ s, Ensures k x s fun _ s' es => Goes s s' es

namespace Tracks

variable {x : Shell (σ × Trace) α} {f : α → Shell (σ × Trace) β}

theorem of_stays (h : ∀ s, Ensures k x s fun _ s' _ => s' = s) : Tracks k x := by
  refine fun s => (h s).mono ?_
  rintro _ s' es rfl
  exact .refl s' es

theorem pure (a : α) : Tracks k (Pure.pure a) := fun s => .pure (.refl s _)

theorem raise (f : Fault) : Tracks k (Shell.raise f : Shell (σ × Trace) α) :=
  fun s => .raise (.refl s _)

theorem ask (r : Request) : Tracks k (Shell.ask r) := fun s => .ask fun _ => .refl s _

theorem bind (hx : Tracks k x) (hf : ∀ a, Tracks k (f a)) : Tracks k (x >>= f) := fun s =>
  (hx s).bind (fun a s' _ h => (hf a s').mono fun _ _ _ h' => h.trans h') (fun _ _ _ h => h)
    fun _ _ h => h

theorem attempt (hx : Tracks k x) : Tracks k x.attempt :=
  fun s => .attempt (hx s) (fun _ _ _ h => h) (fun _ _ _ h => h) fun _ _ h => h

theorem session_bind {f : Session → Shell (σ × Trace) β} (h : ∀ s, Tracks k (f s)) :
    Tracks k (Shell.session >>= f) := fun s => .session_bind (h s s)

theorem modifySession {g : Session → Session} (h : ∀ s, Goes s (g s) []) :
    Tracks k (Shell.modifySession g) := fun s => .modifySession (h s)

theorem forM {l : List α} {g : α → Shell (σ × Trace) Unit} (hg : ∀ a, Tracks k (g a)) :
    Tracks k (l.forM g) := by
  induction l with
  | nil => exact pure ()
  | cons a l ih => exact (hg a).bind fun _ => ih

theorem closing (ids : List FileId) (hx : Tracks k x) : Tracks k (Shell.closing ids x) := by
  refine fun s => (Ensures.closing ids (hx s)).mono ?_
  rintro o s' _ ⟨o₁, es₁, es₂, rfl, h, -, -⟩
  exact h.trans (.refl s' es₂)

end Tracks

namespace Shell

theorem register_tracks (job : Job) (announce : Bool) : Tracks k (register job announce) := by
  refine (Tracks.modifySession fun s => .register s job _).bind fun _ =>
    (Tracks.ask _).bind fun _ => ?_
  cases announce with
  | true => exact .ask _
  | false => exact .pure ()

theorem leaveInterrupted_tracks (text : String) (stages : List Stage) :
    Tracks k (leaveInterrupted text stages) := by
  refine (Tracks.modifySession (g := fun s => { s with interrupted := true })
    fun s => ⟨rfl, fun _ h => .inl h⟩).bind fun _ => (Tracks.ask _).bind fun _ =>
      .forM fun stage => ?_
  cases stage.pid with
  | none => exact .pure ()
  | some pid =>
    refine (Tracks.ask _).bind fun status => ?_
    cases status with
    | none => exact register_tracks _ _
    | some code => exact .pure ()

theorem leaveInBackground_tracks (line : CommandLine) (stages : List Stage) :
    Tracks k (leaveInBackground line stages) := by
  refine (Tracks.forM fun pid => register_tracks _ _).bind fun _ => ?_
  cases stages.getLast?.bind Stage.pid with
  | none => exact .pure ()
  | some pid => exact register_tracks _ _

theorem awaitSingle_tracks (command : Command) (pid : ProcessId) :
    Tracks k (awaitSingle command pid) := by
  refine (Tracks.ask _).attempt.bind fun code => ?_
  rcases code with f | code
  · cases f with
    | interrupt => exact (leaveInterrupted_tracks _ _).bind fun _ => .pure _
    | _ => exact .raise _
  · show Tracks k (if @bne Int _ code 0 then report _ >>= fun _ => Pure.pure _ else Pure.pure _)
    split
    · exact (Tracks.ask _).bind fun _ => .pure _
    · exact .pure _

theorem runSingle_tracks (line : CommandLine) : Tracks k (runSingle line) := by
  have hstart : Tracks k (startSingle line) :=
    .of_stays fun s => (startSingle_ensures line).mono fun _ _ _ h => h.1
  refine hstart.attempt.bind fun pid => ?_
  rcases pid with f | _ | pid
  · show Tracks k (if f.isCannotOpen then report _ >>= fun _ => Pure.pure _ else Shell.raise f)
    split
    · exact (Tracks.ask _).bind fun _ => .pure _
    · exact .raise f
  · exact .pure _
  · show Tracks k (if line.blocks then awaitSingle line.first pid else
      (register ⟨pid, line.text, false⟩ true >>= fun _ => Pure.pure _))
    split
    · exact awaitSingle_tracks _ _
    · exact (register_tracks _ _).bind fun _ => .pure _

theorem awaitPipeline_tracks (sink : Option FileId) (stages : List Stage) (relays : List RelayId)
    (result : Result) : Tracks k (awaitPipeline sink stages relays result) := by
  have hcollect : Tracks k (collect sink stages relays) :=
    .of_stays fun s => Ensures.mono collect_performs fun _ _ _ h => h.1
  refine hcollect.bind fun collected => ?_
  obtain ⟨code, fault⟩ := collected
  cases fault with
  | none => exact .pure _
  | some f =>
    cases f with
    | interrupt => exact (leaveInterrupted_tracks _ _).bind fun _ => .pure _
    | system | described | brokenPipe | cannotOpen =>
      exact (Tracks.ask _).bind fun _ =>
        (Tracks.forM fun pid => (Tracks.ask _).bind fun _ => .pure ()).bind fun _ => .pure _
    | invalid | wrongKind | outOfRange | linkLoop => exact .raise _

theorem runPipeline_tracks (line : CommandLine) : Tracks k (runPipeline line) := by
  have hopen : Tracks k (openStages (line.commands.zip line.wirings)) :=
    .of_stays fun s => (openStages_ensures _).mono fun _ _ _ h => h.1
  refine hopen.bind fun opened => ?_
  obtain ⟨plans, fault⟩ := opened
  refine Tracks.bind (.closing _ ?_) fun ending => ?_
  · cases fault with
    | none =>
      refine .session_bind fun s => Tracks.bind (.of_stays fun s =>
        Ensures.mono launch_performs fun _ _ _ h => h.1) fun launched => ?_
      show Tracks k (if line.blocks then _ else _)
      split
      · exact awaitPipeline_tracks _ _ _ _
      · exact (leaveInBackground_tracks _ _).bind fun _ => .pure _
    | some f => exact .of_stays fun s => (refuse_ensures f).mono fun _ _ _ h => h.1
  · cases ending with
    | done result => exact .pure _
    | exited result relays lastStarted =>
      refine Tracks.bind (.of_stays fun s => Ensures.mono (reportRelays_performs result relays)
        fun _ _ _ h => h.1) fun result => ?_
      exact Tracks.bind (.of_stays fun s => (reportExit_asks result lastStarted s).mono
        fun _ _ _ h => h.1) fun _ => .pure _

/-- Changing the working directory concerns no process and no job. -/
theorem changeDirectory_ensures (command : Command) :
    Ensures k (changeDirectory command) s fun _ s' es => es.Aside ∧ Goes s s' es := by
  have hask : ∀ {r : Request}, r.isAside = true → ∀ o, Trace.Aside [⟨r, o⟩] :=
    fun h o => Trace.only_cons.2 ⟨h, Trace.only_nil _⟩
  have hreport : ∀ (text : String) (r : Result) s, Ensures k (report text >>= fun _ => pure r) s
      fun _ s' es => es.Aside ∧ Goes s s' es := fun text r s =>
    .ask_bind (fun _ => .pure ⟨hask rfl _, .refl s _⟩) (fun _ => ⟨hask rfl _, .refl s _⟩)
      ⟨hask rfl _, .refl s _⟩
  have hmove : ∀ target path s, Ensures k (moveTo target path) s
      fun _ s' es => es.Aside ∧ Goes s s' es := by
    intro target path s
    refine .ask_bind (fun there => ?_) (fun _ => ⟨hask rfl _, .refl s _⟩) ⟨hask rfl _, .refl s _⟩
    cases there with
    | true =>
      refine .session_bind (.ask_bind (fun _ => ?_) (fun _ => ?_) ?_)
      · refine .modifySession_bind (.pure ⟨?_, rfl, fun _ h => .inl h⟩)
        exact Trace.only_cons.2 ⟨rfl, hask rfl _⟩
      · exact ⟨Trace.only_cons.2 ⟨rfl, hask rfl _⟩, .refl s _⟩
      · exact ⟨Trace.only_cons.2 ⟨rfl, hask rfl _⟩, .refl s _⟩
    | false =>
      refine (hreport _ _ s).mono fun _ _ _ h => ⟨Trace.only_cons.2 ⟨rfl, h.1⟩, ?_⟩
      exact (Goes.refl s [_]).trans h.2
  refine .session_bind (Ensures.attempt_bind (.ask (Q := fun o s' es => s' = s ∧ es.Aside)
    fun o => ⟨rfl, hask rfl o⟩) ?_ ?_ ?_)
  · rintro path s' es ⟨rfl, hes⟩
    exact (hmove _ _ s').mono fun _ _ _ h =>
      ⟨Trace.only_append.2 ⟨hes, h.1⟩, (Goes.refl s' es).trans h.2⟩
  · rintro f s' es ⟨rfl, hes⟩
    show Ensures k (if isUnreachable f then report _ >>= fun _ => pure _ else raise f) s' _
    split
    · exact (hreport _ _ s').mono fun _ _ _ h =>
        ⟨Trace.only_append.2 ⟨hes, h.1⟩, (Goes.refl s' es).trans h.2⟩
    · refine .raise ⟨?_, .refl s' _⟩
      rw [List.append_nil]
      exact hes
  · rintro s' es ⟨rfl, hes⟩
    exact ⟨hes, .refl s' es⟩

theorem execute_tracks (line : CommandLine) : Tracks k (execute line) := by
  unfold execute
  split
  · exact fun s => (changeDirectory_ensures _).mono fun _ _ _ h => h.2
  · split
    · exact runPipeline_tracks line
    · exact runSingle_tracks line

/-! ### Lines -/

/-- Whatever has been left to the registry is watched. -/
theorem Detached.watches {stages : List Stage} {jobs jobs' : Jobs} {es : Trace}
    (h : Detached stages jobs jobs' es) :
    (∀ pid, jobs.contains pid = true → jobs'.contains pid = true) ∧
      ∀ pid ∈ pidsOf stages, pid ∈ es.exits ∨ jobs'.contains pid = true := by
  induction h with
  | nil => exact ⟨fun _ h => h, by simp [pidsOf]⟩
  | missing _ ih => exact ih
  | exited _ ih =>
    refine ⟨ih.1, fun q hq => ?_⟩
    rcases List.mem_cons.1 hq with rfl | hq
    · exact .inl (.head _)
    · exact (ih.2 q hq).imp (List.mem_cons_of_mem _) id
  | @left command pid stages jobs jobs' es es' haside _ ih =>
    refine ⟨fun q hq => ih.1 q ?_, fun q hq => ?_⟩
    · rw [Jobs.contains_register, hq, Bool.or_true]
    rcases List.mem_cons.1 hq with rfl | hq
    · -- it is registered now, and the registry keeps it
      refine .inr (ih.1 q ?_)
      rw [Jobs.contains_register, beq_self_eq_true, Bool.true_or]
    · refine (ih.2 q hq).imp (fun h => ?_) id
      show q ∈ Trace.exits (es ++ es')
      rw [Trace.exits_append]
      exact List.mem_append_right _ h

theorem contains_foldl_register {jobs : Jobs} {new : List Job} {pid : ProcessId}
    (h : jobs.contains pid = true ∨ pid ∈ new.map Job.pid) :
    (new.foldl Jobs.register jobs).contains pid = true := by
  induction new generalizing jobs with
  | nil => simpa using h
  | cons job new ih =>
    refine ih ?_
    rw [Jobs.contains_register, Bool.or_eq_true, beq_iff_eq]
    rw [List.map_cons, List.mem_cons] at h
    rcases h with h | h | h
    · exact .inl (.inr h)
    · exact .inl (.inl h)
    · exact .inr h

variable {line : CommandLine} {jobs jobs' : Jobs} {failure : Option Failure} {es : Trace}

theorem Settled.watches {spawns : List (Option ProcessId)}
    (h : Settled line spawns jobs jobs' failure es) :
    ∀ pid ∈ spawns.filterMap id, pid ∈ es.exits ∨ jobs'.contains pid = true := by
  intro pid hpid
  cases h with
  | seen _ _ hexits => exact .inl (hexits pid hpid)
  | @left stages _ es₁ es₂ es₃ _ hstages _ hd _ =>
    have hmem : pid ∈ pidsOf stages := by
      rw [← hstages, List.filterMap_map] at hpid
      exact hpid
    refine (hd.watches.2 pid hmem).imp (fun h => ?_) id
    rw [Trace.exits_append, Trace.exits_append]
    exact List.mem_append_left _ (List.mem_append_right _ h)
  | background =>
    refine .inr (contains_foldl_register (.inr ?_))
    rw [map_pid_backgroundJobs]
    exact hpid

/-- A line that has settled all its processes has left them watched. -/
theorem Course.watched (h : Course line jobs jobs' failure es) : es.Watched jobs' := by
  obtain ⟨start, rest, rfl, -, hrest, -, hsettled⟩ := h
  refine Trace.followed_append.2 ⟨.of_forall fun e he post _ pid hpid => ?_,
    Trace.watchedIf_of_spawns hrest⟩
  rw [Trace.ended_append, List.mem_append]
  exact (hsettled.watches pid (Trace.mem_started he hpid)).imp
    (fun h => .inr (Trace.exits_subset_ended h)) id

end Shell

/-! ### The loop over lines -/

/-- Whether a request looks after one process, or concerns none. -/
def Request.isLook (pid : ProcessId) : Request → Bool
  | .poll other => other == pid
  | r => r.isAside

theorem Request.isLook_of_isAside {pid : ProcessId} {r : Request} (h : r.isAside = true) :
    r.isLook pid = true := by
  cases r <;> first | rfl | cases h

/-- Nothing but the interpreter itself complains of a file that it cannot open. -/
def Trace.Own (es : Trace) : Prop := ∀ e ∈ es, ∀ f ∈ e.fault?, f.isCannotOpen = false

instance (es : Trace) : Decidable es.Own :=
  inferInstanceAs (Decidable (∀ e ∈ es, ∀ f ∈ e.fault?, f.isCannotOpen = false))

theorem Trace.own_append {es es' : Trace} : Own (es ++ es') ↔ es.Own ∧ es'.Own := by
  simp only [Own, List.mem_append]
  exact ⟨fun h => ⟨fun e he => h e (.inl he), fun e he => h e (.inr he)⟩,
    fun h e he => he.elim (h.1 e) (h.2 e)⟩

/-- Of processes that no line was executed after, nothing is asked. -/
theorem Trace.watchedIf_of_executed {jobs : Jobs} {es : Trace} (h : es.executed = []) :
    es.WatchedIf (·.executed ≠ []) jobs := by
  induction es with
  | nil => trivial
  | cons e es ih =>
    have hes : executed es = [] := by
      rw [executed, List.filterMap_cons] at h
      cases he : e.executed? with
      | none => rwa [he] at h
      | some text => rw [he] at h; cases h
    exact ⟨fun hne => absurd hes hne, ih hes⟩

/-- A part of the loop that watches its processes if it returns, and in any case those of all lines
but the last one. -/
def Watches (k : Kernel σ) (x : Shell (σ × Trace) α) : Prop :=
  ∀ s, Ensures k x s fun o s' es => Goes s s' es ∧ (es.Own →
    (∀ a, o = .returned a → es.Watched s'.jobs) ∧ es.WatchedIf (·.executed ≠ []) s'.jobs)

namespace Watches

variable {x : Shell (σ × Trace) α} {f : α → Shell (σ × Trace) β}

theorem of_spawns (h : ∀ s, Ensures k x s fun _ s' es => Goes s s' es ∧ es.spawns = []) :
    Watches k x := fun s => (h s).mono fun _ _ _ h =>
  ⟨h.1, fun _ => ⟨fun _ _ => Trace.watchedIf_of_spawns h.2, Trace.watchedIf_of_spawns h.2⟩⟩

theorem ask {r : Request} (h : r.isSpawn = false) : Watches k (Shell.ask r) :=
  of_spawns fun s => .ask fun _ => ⟨.refl s _, Trace.spawns_of_no_spawn (by simp [h])⟩

theorem pure (a : α) : Watches k (Pure.pure a) := of_spawns fun s => .pure ⟨.refl s _, rfl⟩

theorem session_bind {f : Session → Shell (σ × Trace) β} (h : ∀ s, Watches k (f s)) :
    Watches k (Shell.session >>= f) := fun s => .session_bind (h s s)

theorem bind (hx : Watches k x) (hf : ∀ a, Watches k (f a)) : Watches k (x >>= f) := by
  refine fun s => (hx s).bind ?_ (fun _ _ _ h => ⟨h.1, fun ho => ⟨fun _ => nofun, (h.2 ho).2⟩⟩)
    fun _ _ h => ⟨h.1, fun ho => ⟨fun _ => nofun, (h.2 ho).2⟩⟩
  rintro a s₁ es ⟨hgoes, hes⟩
  refine (hf a s₁).mono ?_
  rintro o s₂ es' ⟨hgoes', hes'⟩
  refine ⟨hgoes.trans hgoes', fun ho => ?_⟩
  obtain ⟨ho, ho'⟩ := Trace.own_append.1 ho
  -- the first part has returned, so all its processes are watched
  have hwatched := (hes ho).1 a rfl
  exact ⟨fun b hb => hgoes'.watched hwatched ((hes' ho').1 b hb),
    hgoes'.watched hwatched (hes' ho').2⟩

theorem mapM {l : List α} {g : α → Shell (σ × Trace) β} (hg : ∀ a, Watches k (g a)) :
    Watches k (l.mapM g) := by
  induction l with
  | nil => exact pure []
  | cons a l ih =>
    rw [List.mapM_cons]
    exact (hg a).bind fun _ => ih.bind fun _ => pure _

end Watches

namespace Shell

/-- **Lines watch their processes.** A line that returns has left each of its processes seen to have
exited, or registered. -/
theorem execute_watches (line : CommandLine) : Watches k (execute line) := by
  intro s
  have hquiet := execute_walks line (k := k) s
  have hwatched : Ensures k (execute line) s fun o s' es =>
      es.Own → ∀ r, o = .returned r → es.Watched s'.jobs := by
    cases hcd : line.isChangeDirectory with
    | true =>
      rw [execute, if_pos hcd]
      exact (changeDirectory_ensures _).mono fun _ _ _ h _ _ _ =>
        Trace.watchedIf_of_spawns (Trace.spawns_of_aside h.1)
    | false => exact (execute_course hcd).mono fun _ _ _ h ho r hr => (h ho r hr).watched
  refine ((hquiet.and (execute_tracks line s)).and hwatched).mono ?_
  rintro o s' es ⟨⟨⟨hes, -⟩, hgoes⟩, hwatched⟩
  exact ⟨hgoes, fun ho =>
    ⟨hwatched ho, Trace.watchedIf_of_executed (Trace.executed_of_no_prompt hes)⟩⟩

theorem handleNext_watches (text : String) : Watches k (handleNext text) := by
  refine Watches.bind (.of_spawns fun s => .modifySession ⟨⟨rfl, fun _ h => .inl h⟩, rfl⟩)
    fun _ => Watches.bind ?_ fun _ => .pure ()
  unfold handleLine
  split
  · exact (Watches.ask rfl).bind fun _ => .pure _
  · exact .pure _
  · rename_i line _
    refine (Watches.ask rfl).bind fun _ => ?_
    rw [map_eq_pure_bind]
    exact (execute_watches line).bind fun _ => .pure _

/-- A job is taken out only if its process has been found to have exited. -/
theorem reapJob_ensures (announce : Bool) (job : Job) :
    Ensures k (reapJob announce job) s fun _ s' es => Goes s s' es ∧
      (∀ j ∈ s'.jobs.list, j ∈ s.jobs.list) ∧ es.Only (Request.isLook job.pid) := by
  have hpoll : ∀ {es : Trace} {o}, es.Aside →
      Trace.Only (Request.isLook job.pid) (⟨.poll job.pid, o⟩ :: es) := fun h =>
    Trace.only_cons.2 ⟨beq_self_eq_true _, h.mono fun _ => Request.isLook_of_isAside⟩
  have hstay : ∀ o, Goes s s [⟨.poll job.pid, o⟩] ∧ (∀ j ∈ s.jobs.list, j ∈ s.jobs.list) ∧
      Trace.Only (Request.isLook job.pid) [⟨.poll job.pid, o⟩] :=
    fun o => ⟨.refl s _, fun _ h => h, hpoll (Trace.only_nil _)⟩
  refine .ask_bind (fun code => ?_) (fun _ => hstay _) (hstay _)
  cases code with
  | none => exact .pure (hstay _)
  | some code =>
    have htaken : ∀ es : Trace, es.Aside → Goes s { s with jobs := s.jobs.remove job.pid }
        (⟨.poll job.pid, .returned (some code)⟩ :: es) ∧
          (∀ j ∈ (s.jobs.remove job.pid).list, j ∈ s.jobs.list) ∧
            Trace.Only (Request.isLook job.pid) (⟨.poll job.pid, .returned (some code)⟩ :: es) := by
      refine fun es hes =>
        ⟨⟨rfl, fun pid hpid => ?_⟩, fun j hj => (List.mem_filter.1 hj).1, hpoll hes⟩
      -- only the job that is taken out is given up, and its process has been seen to exit
      by_cases heq : pid = job.pid
      · exact .inr (heq ▸ List.mem_cons_self)
      · refine .inl ?_
        show (s.jobs.remove job.pid).contains pid = true
        rw [Jobs.contains_remove, hpid, Bool.and_true, bne_iff_ne]
        exact heq
    have hask : ∀ {r : Request} {es : Trace}, r.isAside = true → es.Aside → ∀ o,
        Trace.Aside (⟨r, o⟩ :: es) := fun h hes o => Trace.only_cons.2 ⟨h, hes⟩
    have hnil := Trace.only_nil Request.isAside
    refine .modifySession_bind (.ask_bind (fun _ => ?_) (fun _ => htaken _ (hask rfl hnil _))
      (htaken _ (hask rfl hnil _)))
    show Ensures k (if announce && !job.quiet then printLine _ >>= fun _ => pure _ else pure _) _ _
    split
    · exact .ask_bind (fun _ => .pure (htaken _ (hask rfl (hask rfl hnil _) _)))
        (fun _ => htaken _ (hask rfl (hask rfl hnil _) _)) (htaken _ (hask rfl (hask rfl hnil _) _))
    · exact .pure (htaken _ (hask rfl hnil _))

theorem reap_watches (announce : Bool) : Watches k (reap announce) := by
  have hjob : ∀ job, Watches k (reapJob announce job) := by
    refine fun job => .of_spawns fun s => (reapJob_ensures announce job).mono ?_
    rintro o s' es ⟨hgoes, -, hlook⟩
    refine ⟨hgoes, Trace.spawns_of_no_spawn (hlook.mono fun r hr => ?_)⟩
    cases r <;> first | rfl | cases hr
  exact .session_bind fun _ => (Watches.mapM hjob).bind fun _ => .pure _

/-- **The loop watches its processes.** -/
theorem serveLines_watches (user : String) (rounds : Nat) : Watches k (serveLines user rounds) := by
  induction rounds with
  | zero => exact fun s => .never ⟨.refl s _, fun _ => ⟨fun _ => nofun, trivial⟩⟩
  | succ rounds ih =>
    refine (reap_watches true).bind fun _ => .session_bind fun s =>
      (Watches.ask rfl).bind fun input => ?_
    cases Step.ofInput input with
    | leave words => exact .ask rfl
    | newLine => exact (Watches.ask rfl).bind fun _ => ih
    | skip => exact ih
    | handle text => exact (handleNext_watches text).bind fun _ => ih

end Shell

/-! ### Leaving -/

/-- Whether a request, if it is about a process, is about one that is a job. -/
def Request.concerns (jobs : Jobs) : Request → Bool
  | .poll pid | .waitBriefly pid | .terminate pid => jobs.contains pid
  | .wait _ | .spawn .. => false
  | _ => true

theorem Request.concerns_of_isAside {jobs : Jobs} {r : Request} (h : r.isAside = true) :
    r.concerns jobs = true := by
  cases r <;> first | rfl | cases h

/-- Whether a request sets up the line editor, or tells how that has gone. -/
def Request.isSetup : Request → Bool
  | .editorAvailable | .isTerminal | .bindKey _ | .exists _ | .readHistory _ | .limitHistory _
  | .historyLength | .warn _ | .log _ => true
  | _ => false

theorem Request.isAside_of_isSetup {r : Request} (h : r.isSetup = true) : r.isAside = true := by
  cases r <;> first | rfl | cases h

namespace Trace

variable {jobs : Jobs} {es : Trace}

theorem contains_of_ended (h : es.Only (Request.concerns jobs)) {pid : ProcessId}
    (hpid : pid ∈ es.ended) : jobs.contains pid = true := by
  obtain ⟨e, he, hended⟩ := List.mem_filterMap.1 hpid
  have hkind := h e he
  obtain ⟨r, o⟩ := e
  cases r with
  | poll =>
    rcases o with (_ | code) | _ | _ <;> cases hended
    exact hkind
  | waitBriefly =>
    rcases o with (_ | code) | _ | _ <;> cases hended
    exact hkind
  | terminate =>
    rcases o with (_ | _ | _) | _ | _ <;> cases hended
    exact hkind
  | wait => cases hkind
  | _ => cases hended

theorem spawns_of_concerns (h : es.Only (Request.concerns jobs)) : es.spawns = [] :=
  spawns_of_no_spawn (h.mono fun r hr => by cases r <;> first | rfl | cases hr)

/-- A process has been seen to exit, or a signal has been sent to it. -/
def Ends (es : Trace) (pid : ProcessId) : Prop :=
  pid ∈ es.ended ∨ ∃ o, (⟨.terminate pid, o⟩ : Event) ∈ es

theorem ends_append {es' : Trace} {pid : ProcessId} :
    Ends (es ++ es') pid ↔ es.Ends pid ∨ es'.Ends pid := by
  simp only [Ends, ended_append, List.mem_append, exists_or]
  exact or_or_or_comm

end Trace

namespace Shell

variable {jobs : Jobs}

/-- Taking out the jobs that have ended asks after jobs only, and registers none. -/
theorem reapAll_ensures (announce : Bool) (list : List Job)
    (hlist : ∀ job ∈ list, jobs.contains job.pid = true) :
    Ensures k (list.mapM (reapJob announce)) s fun _ s' es => Goes s s' es ∧
      (∀ job ∈ s'.jobs.list, job ∈ s.jobs.list) ∧ es.Only (Request.concerns jobs) := by
  induction list generalizing s with
  | nil => exact .pure ⟨.refl s _, fun _ h => h, Trace.only_nil _⟩
  | cons job list ih =>
    have hlook : ∀ r : Request, r.isLook job.pid = true → r.concerns jobs = true := by
      intro r hr
      cases r with
      | poll => rw [Request.concerns, beq_iff_eq.1 hr, hlist job (.head _)]
      | _ => first | rfl | cases hr
    rw [List.mapM_cons]
    refine (reapJob_ensures announce job).bind ?_ (fun _ _ _ h => ⟨h.1, h.2.1, h.2.2.mono hlook⟩)
      fun _ _ h => ⟨h.1, h.2.1, h.2.2.mono hlook⟩
    rintro reaped s₁ es ⟨hgoes, hsub, hes⟩
    have hboth : ∀ (s' : Session) (es' : Trace), Goes s₁ s' es' ∧
        (∀ job ∈ s'.jobs.list, job ∈ s₁.jobs.list) ∧ es'.Only (Request.concerns jobs) →
          Goes s s' (es ++ es') ∧ (∀ job ∈ s'.jobs.list, job ∈ s.jobs.list) ∧
            Trace.Only (Request.concerns jobs) (es ++ es') := fun s' es' h =>
      ⟨hgoes.trans h.1, fun job hjob => hsub job (h.2.1 job hjob),
        Trace.only_append.2 ⟨hes.mono hlook, h.2.2⟩⟩
    refine (ih fun job hjob => hlist job (.tail _ hjob)).bind (fun rest s' es' h => .pure ?_)
      (fun _ _ _ h => hboth _ _ h) fun _ _ h => hboth _ _ h
    rw [List.append_nil]
    exact hboth _ _ h

theorem terminateJobs_performs (announce : Bool) (list : List Job)
    (hlist : ∀ job ∈ list, jobs.contains job.pid = true) :
    Performs k (Request.concerns jobs) (list.mapM (terminateJob announce)) s fun _ es =>
      ∀ job ∈ list, es.Ends job.pid := by
  induction list with
  | nil => exact .pure (by simp)
  | cons job list ih =>
    have hjob := hlist job (.head _)
    rw [List.mapM_cons]
    have hasked : Performs k (Request.concerns jobs) (terminateJob announce job) s
        fun _ es => es.Ends job.pid := by
      refine .ask_bind hjob fun code => ?_
      cases code with
      | some code => exact .pure (.inl (.head _))
      | none =>
        -- it is still there, so it is sent a signal, whether or not that is delivered
        refine .ask_bind hjob fun delivery => ?_
        have hsent : ∀ es : Trace, Trace.Ends (⟨.poll job.pid, .returned none⟩ ::
            ⟨.terminate job.pid, .returned delivery⟩ :: es) job.pid :=
          fun es => .inr ⟨_, .tail _ (.head _)⟩
        cases delivery with
        | delivered =>
          cases announce with
          | true => exact .ask_bind rfl fun _ => .pure (hsent _)
          | false => exact .pure (hsent _)
        | gone => exact .pure (hsent _)
        | denied => exact .ask_bind rfl fun _ => .pure (hsent _)
    refine hasked.bind fun asked es hes => ?_
    refine (ih fun job hjob => hlist job (.tail _ hjob)).bind fun rest es' hes' => .pure ?_
    rw [List.append_nil]
    intro other hother
    rw [Trace.ends_append]
    rcases List.mem_cons.1 hother with rfl | hother
    · exact .inl hes
    · exact .inr (hes' other hother)

/-- Waiting for a job asks for no more than that, and may be worth a note. -/
theorem awaitJob_asks {p : Request → Bool} {job : Job} (hwait : p (.waitBriefly job.pid) = true)
    (hlog : ∀ record, p (.log record) = true) : Asks k p (awaitJob job) := by
  refine (Asks.ask hwait).bind fun code => ?_
  cases code with
  | none => exact .ask (hlog _)
  | some code => exact .pure ()

theorem awaitJobs_asks (list : List Job) (hlist : ∀ job ∈ list, jobs.contains job.pid = true) :
    Asks k (Request.concerns jobs) (list.forM awaitJob) := by
  induction list with
  | nil => exact .pure ()
  | cons job list ih =>
    have hjob : Asks k (Request.concerns jobs) (awaitJob job) :=
      awaitJob_asks (hlist job (.head _)) fun _ => rfl
    exact hjob.bind fun _ => ih fun job hjob => hlist job (.tail _ hjob)

/-- A run that comes to something after requests of some kind only. -/
theorem asks_bind {p : Request → Bool} {x : Shell (σ × Trace) α} {f : α → Shell (σ × Trace) β}
    {R : Session → Prop} (hx : Asks k p x) (hf : ∀ a, Ensures k (f a) s fun o s' es =>
      es.Only p ∧ ∀ b, o = .returned b → R s') :
    Ensures k (x >>= f) s fun o s' es => es.Only p ∧ ∀ b, o = .returned b → R s' := by
  refine (hx s).bind ?_ (fun _ _ _ h => ⟨h.2, fun _ => nofun⟩) fun _ _ h => ⟨h.2, fun _ => nofun⟩
  rintro a s' es ⟨rfl, hes⟩
  exact (hf a).mono fun _ _ _ h => ⟨Trace.only_append.2 ⟨hes, h.1⟩, h.2⟩

/-- What comes after the signals: whoever has not ended is killed, and the registry is given up. -/
theorem giveUp_ensures (asked : List ProcessId)
    (hjobs : ∀ job ∈ s.jobs.list, jobs.contains job.pid = true) :
    Ensures k (do
      let alive ← survivors asked
      alive.forM kill
      (← session).jobs.list.forM awaitJob
      modifyJobs fun _ => {}) s fun o s' es =>
        es.Only (Request.concerns jobs) ∧ ∀ a, o = .returned a → s'.jobs = {} := by
  refine asks_bind (.ask rfl) fun alive => asks_bind (.forM fun pid => .ask rfl) fun _ =>
    .session_bind (asks_bind (awaitJobs_asks _ hjobs) fun _ => .modifySession ⟨?_, fun _ _ => rfl⟩)
  exact Trace.only_nil _

/-- **Ending all jobs.** If nothing stands in the way, each job has been seen to exit or has been sent
a signal, and none is left. -/
theorem terminateAll_ends (announce : Bool) : Ensures k (terminateAll announce) s fun o s' es =>
    es.Only (Request.concerns s.jobs) ∧ (∀ a, o = .returned a →
      s'.jobs = {} ∧ ∀ pid, s.jobs.contains pid = true → es.Ends pid) := by
  have hall : ∀ job ∈ s.jobs.list, s.jobs.contains job.pid = true :=
    fun job hjob => Jobs.contains_iff.2 ⟨job, hjob, rfl⟩
  have hreap : Ensures k (reap false) s fun _ s' es => Goes s s' es ∧
      (∀ job ∈ s'.jobs.list, job ∈ s.jobs.list) ∧ es.Only (Request.concerns s.jobs) := by
    refine .session_bind ((reapAll_ensures false s.jobs.list hall).bind (fun _ s' es h => .pure ?_)
      (fun _ _ _ h => h) fun _ _ h => h)
    rw [List.append_nil]
    exact h
  refine hreap.bind ?_ (fun _ _ _ h => ⟨h.2.2, fun _ => nofun⟩) fun _ _ h => ⟨h.2.2, fun _ => nofun⟩
  rintro _ s₁ es ⟨hgoes, hsub, hes⟩
  have hall₁ : ∀ job ∈ s₁.jobs.list, s.jobs.contains job.pid = true :=
    fun job hjob => hall job (hsub job hjob)
  refine .session_bind (Ensures.bind (terminateJobs_performs announce _ hall₁) ?_
    (fun _ _ _ h => ⟨Trace.only_append.2 ⟨hes, h.2.1⟩, fun _ => nofun⟩)
    fun _ _ h => ⟨Trace.only_append.2 ⟨hes, h.2.1⟩, fun _ => nofun⟩)
  rintro asked s₂ es' ⟨rfl, hes', hends⟩
  refine (giveUp_ensures _ hall₁).mono fun o s' es'' h => ⟨?_, fun a ha => ⟨h.2 a ha, ?_⟩⟩
  · exact Trace.only_append.2 ⟨hes, Trace.only_append.2 ⟨hes', h.1⟩⟩
  · intro pid hpid
    rw [Trace.ends_append, Trace.ends_append]
    -- a job has been taken out because it had exited, or was still there to be sent the signal
    rcases hgoes.keeps pid hpid with hjob | hended
    · obtain ⟨job, hmem, rfl⟩ := Jobs.contains_iff.1 hjob
      exact .inr (.inl (hends job hmem))
    · exact .inl (.inl hended)

theorem saveHistory_asks (path : String) (size : Int) :
    Asks k Request.isAside (saveHistory path size) := by
  refine (Asks.ask rfl).bind fun available => ?_
  cases available with
  | false => exact .pure ()
  | true => exact ((Asks.ask rfl).bind fun _ => .ask rfl).handle fun _ => .ask rfl

/-- **Leaving ends all jobs**, if the settings say so. -/
theorem leave_ends (hterm : s.settings.terminateOnExit = true) :
    Ensures k leave s fun o s' es => es.Only (Request.concerns s.jobs) ∧
      (∀ a, o = .returned a → s'.jobs = {} ∧ ∀ pid, s.jobs.contains pid = true → es.Ends pid) := by
  refine .session_bind ?_
  show Ensures k (if s.settings.useHistory then saveHistory _ _ >>= fun _ => _ else _) s _
  have hall := terminateAll_ends (k := k) (s := s) true
  simp only [hterm, if_true]
  split
  · refine (saveHistory_asks _ _ s).bind ?_
      (fun _ _ _ h => ⟨h.2.mono fun _ => Request.concerns_of_isAside, fun _ => nofun⟩)
      fun _ _ h => ⟨h.2.mono fun _ => Request.concerns_of_isAside, fun _ => nofun⟩
    rintro _ s₁ es ⟨rfl, hes⟩
    refine hall.mono fun o s' es' h => ⟨?_, fun a ha => ⟨(h.2 a ha).1, fun pid hpid => ?_⟩⟩
    · exact Trace.only_append.2 ⟨hes.mono fun _ => Request.concerns_of_isAside, h.1⟩
    · exact Trace.ends_append.2 (.inr ((h.2 a ha).2 pid hpid))
  · exact hall

/-! ### From the first prompt to the end -/

theorem initEditor_asks : Asks k Request.isSetup initEditor := by
  refine (Asks.ask rfl).bind fun available => ?_
  cases available with
  | false => exact .pure ()
  | true =>
    refine (Asks.ask rfl).bind fun terminal => ?_
    cases terminal with
    | false => exact .pure ()
    | true => exact (Asks.forM fun _ => .ask rfl).handle fun _ => .ask rfl

theorem loadHistory_asks (path : String) (size : Int) :
    Asks k Request.isSetup (loadHistory path size) := by
  have hlimit : Asks k Request.isSetup (do
      limitHistory size
      debug .history ("loaded " ++ toString (← historyLength) ++ " history entries from " ++ path) :
        Shell (σ × Trace) Unit) :=
    (Asks.ask rfl).bind fun _ => (Asks.ask rfl).bind fun _ => .ask rfl
  refine (Asks.ask rfl).bind fun available => ?_
  cases available with
  | false => exact .pure ()
  | true =>
    refine ((Asks.ask rfl).bind fun found => ?_).handle fun _ => .ask rfl
    cases found with
    | false => exact hlimit
    | true => exact (Asks.ask rfl).bind fun _ => hlimit

/-- The prompt loop up to where it is left, by the user or by a fault. -/
def untilLeft (user : String) : Shell σ (Except Fault Unit) := do
  let settings := (← session).settings
  if settings.useHistory then
    initEditor
    loadHistory settings.historyFile settings.historySize
  let rounds ← bound
  (serveLines user rounds).attempt

instance : DecidableEq (Except Fault Unit)
  | .ok _, .ok _ => isTrue rfl
  | .error f, .error g => decidable_of_iff (f = g) (by simp)
  | .ok _, .error _ => isFalse nofun
  | .error _, .ok _ => isFalse nofun

/-- How the interpreter exits after its loop has been left. -/
def exitOf : Except Fault Unit → Outcome Int
  | .ok _ => .returned 0
  | .error f => .raised f

theorem serve_eq (user : String) : (serve user : Shell σ Int) =
    (do
      let result ← untilLeft user
      leave
      match result with
      | .ok _ => return 0
      | .error f => raise f) := by
  unfold serve untilLeft
  simp only [bind_assoc]
  congr 1
  funext s
  split
  · rw [bind_assoc]
    refine congrArg (initEditor >>= ·) (funext fun _ => ?_)
    rw [bind_assoc]
    refine congrArg (loadHistory _ _ >>= ·) (funext fun _ => ?_)
    exact (bind_assoc _ _ _).symm
  · exact (bind_assoc _ _ _).symm

/-- **Until it is left, the loop watches its processes**, those of the last line only if no fault has
escaped from it. -/
theorem untilLeft_watches (user : String) (s : Session) :
    Ensures k (untilLeft user) s fun o s' es => Goes s s' es ∧ (es.Own →
      ∀ result, o = .returned result → (result = .ok () → es.Watched s'.jobs) ∧
        es.WatchedIf (·.executed ≠ []) s'.jobs) := by
  have hloop : ∀ s, Ensures k (do
      let rounds ← bound
      (serveLines user rounds).attempt : Shell (σ × Trace) (Except Fault Unit)) s
      fun o s' es => Goes s s' es ∧ (es.Own → ∀ result, o = .returned result →
        (result = .ok () → es.Watched s'.jobs) ∧ es.WatchedIf (·.executed ≠ []) s'.jobs) := by
    refine fun s => .bound_bind (Ensures.attempt (serveLines_watches user _ s) ?_ ?_ ?_)
    · rintro _ s' es ⟨hgoes, h⟩
      refine ⟨hgoes, fun ho => ?_⟩
      rintro _ ⟨⟩
      exact ⟨fun _ => (h ho).1 _ rfl, (h ho).2⟩
    · -- a fault has escaped, from the last line if from any
      rintro f s' es ⟨hgoes, h⟩
      refine ⟨hgoes, fun ho => ?_⟩
      rintro _ ⟨⟩
      exact ⟨nofun, (h ho).2⟩
    · exact fun s' es h => ⟨h.1, fun _ _ => nofun⟩
  refine .session_bind ?_
  show Ensures k (if s.settings.useHistory then _ >>= fun _ => _ >>= fun _ => _ else _) s _
  split
  · have hsetup : Asks k Request.isSetup (do
        initEditor
        loadHistory s.settings.historyFile s.settings.historySize : Shell (σ × Trace) Unit) :=
      initEditor_asks.bind fun _ => loadHistory_asks _ _
    have hinit := hsetup.mono fun _ => Request.isAside_of_isSetup
    rw [← bind_assoc]
    refine (hinit s).bind ?_ ?_ ?_
    · rintro _ s₁ es ⟨rfl, hes⟩
      have hwatched : ∀ jobs, es.Watched jobs :=
        fun jobs => Trace.watchedIf_of_spawns (Trace.spawns_of_aside hes)
      refine (hloop s₁).mono fun o s' es' h => ⟨(Goes.refl s₁ es).trans h.1, fun ho result hr => ?_⟩
      obtain ⟨hok, hlines⟩ := h.2 (Trace.own_append.1 ho).2 result hr
      exact ⟨fun hresult => h.1.watched (hwatched _) (hok hresult), h.1.watched (hwatched _) hlines⟩
    · rintro f s₁ es ⟨rfl, -⟩
      exact ⟨.refl s₁ es, fun _ _ => nofun⟩
    · rintro s₁ es ⟨rfl, -⟩
      exact ⟨.refl s₁ es, fun _ _ => nofun⟩
  · exact hloop s

end Shell

open Shell

/-- **Orphans at exit.** Take a run of the prompt loop up to where it is left, in whatever way, and
then the leaving, which nothing interrupts and whose signals are delivered. No job is left. No process
that was started is an orphan if the user left; if a fault has escaped from a line, there is none just
where each process that this line has started has been seen to exit or is a job by then. -/
theorem serve_orphans_iff {user : String} {s s₁ s₂ : Session} {out out₁ out₂ : σ}
    {result : Except Fault Unit} {es₁ es₂ : Trace}
    (hleft : untilLeft user k.traced ⟨s, (out, [])⟩ = (.returned result, ⟨s₁, (out₁, es₁)⟩))
    (hleave : leave k.traced ⟨s₁, (out₁, es₁)⟩ = (.returned (), ⟨s₂, (out₂, es₁ ++ es₂)⟩))
    (hterm : s.settings.terminateOnExit = true) (hown : es₁.Own)
    (hsignals : ∀ pid o, (⟨.terminate pid, o⟩ : Event) ∈ es₂ → o = .returned .delivered) :
    serve user k.traced ⟨s, (out, [])⟩ = (exitOf result, ⟨s₂, (out₂, es₁ ++ es₂)⟩) ∧
      s₂.jobs = {} ∧ (result = .ok () → Trace.NoOrphans (es₁ ++ es₂)) ∧
        (Trace.NoOrphans (es₁ ++ es₂) ↔ es₁.WatchedIf (·.executed = []) s₁.jobs) := by
  obtain ⟨hgoes, hwatched⟩ := ((untilLeft_watches user s).run hleft).2
  obtain ⟨hok, hlines⟩ := hwatched hown result rfl
  obtain ⟨o, s₃, out₃, es₃, hrun, -, hconcerns, hends⟩ :=
    leave_ends (k := k) (hgoes.settings ▸ hterm) out₁ es₁
  rw [hleave] at hrun
  simp only [Prod.mk.injEq, World.mk.injEq, List.append_cancel_left_eq] at hrun
  obtain ⟨rfl, rfl, rfl, rfl⟩ := hrun
  obtain ⟨hjobs, hends⟩ := hends () rfl
  -- leaving has ended just the processes that were jobs
  have hended : ∀ pid, pid ∈ es₂.ended ↔ s₁.jobs.contains pid = true := by
    refine fun pid => ⟨Trace.contains_of_ended hconcerns, fun hpid => ?_⟩
    rcases hends pid hpid with h | ⟨o, h⟩
    · exact h
    · obtain rfl := hsignals pid o h
      exact List.mem_filterMap.2 ⟨_, h, rfl⟩
  have hiff : Trace.NoOrphans (es₁ ++ es₂) ↔ es₁.Watched s₁.jobs := by
    have hnone : Trace.NoOrphans es₂ := by
      refine .of_forall fun e he post pid hpid => ?_
      have hmem := Trace.mem_started he hpid
      rw [Trace.started, Trace.spawns_of_concerns hconcerns] at hmem
      cases hmem
    -- a process of the loop has ended in the loop, or in the leaving if it was a job
    refine Trace.followed_append.trans ((and_iff_left hnone).trans ⟨?_, ?_⟩)
    · refine fun h => h.mono fun e post hpost _ pid hpid => ?_
      have hmem := hpost pid hpid
      rwa [Trace.ended_append, List.mem_append, hended] at hmem
    · refine fun h => h.mono fun e post hpost pid hpid => ?_
      rw [Trace.ended_append, List.mem_append, hended]
      exact hpost trivial pid hpid
  refine ⟨?_, hjobs, fun h => hiff.2 (hok h), hiff.trans ⟨fun h => ?_, fun h => ?_⟩⟩
  · rw [serve_eq, bind_run, hleft]
    show (leave >>= _) k.traced _ = _
    rw [bind_run, hleave]
    cases result <;> rfl
  · exact h.mono fun e post hpost _ => hpost trivial
  · refine (h.and hlines).mono fun e post hpost _ => ?_
    by_cases hlast : post.executed = []
    · exact hpost.1 hlast
    · exact hpost.2 hlast

/-- A host whose program `a` runs on when all is done, and that takes no name with a NUL in it. -/
def lingeringHost : Host Host.Scripted where
  programs := Host.Scripted.programs
    [("a", { lingers := true }), ("b\x00", { fault := some .embeddedNul })]
  patience := 40

/-- A session without jobs, that ends its jobs on leaving. -/
def lingeringSession : Session :=
  { cwd := ⟨.root, []⟩, home := "/", settings := { historyFile := "", useHistory := false } }

/-- The prompt loop on that host up to where it is left, with a user who does these things. -/
def lingeringLeft (deeds : List Host.Deed) :
    Outcome (Except Fault Unit) × World (Host.Machine Host.Scripted × Trace) :=
  untilLeft "u" lingeringHost.kernel.traced ⟨lingeringSession, ({ terminal := { deeds } }, [])⟩

/-- The leaving after it. -/
def lingeringEnd (deeds : List Host.Deed) :
    Outcome Unit × World (Host.Machine Host.Scripted × Trace) :=
  leave lingeringHost.kernel.traced ⟨(lingeringLeft deeds).2.session,
    ((lingeringLeft deeds).2.outside.1, (lingeringLeft deeds).2.outside.2)⟩

/-- Whether all signals were delivered. -/
def Trace.allDelivered (es : Trace) : Bool :=
  es.all fun
    | ⟨.terminate _, .returned .delivered⟩ => true
    | ⟨.terminate _, _⟩ => false
    | _ => true

theorem Trace.delivered_of_all {es : Trace} (h : es.allDelivered = true) (pid : ProcessId)
    (o : Outcome Delivery) (he : (⟨.terminate pid, o⟩ : Event) ∈ es) :
    o = .returned .delivered := by
  have hone := List.all_eq_true.1 h _ he
  rcases o with (_ | _ | _) | _ | _
  · rfl
  all_goals cases hone

/-- The process of a background line is asked to end when the user leaves. -/
theorem serve_orphans_iff_background :
    (lingeringLeft [.enters "a &", .enters "exit"]).1 = .returned (.ok ()) ∧
      (lingeringEnd [.enters "a &", .enters "exit"]).2.outside.2.started = [1] ∧
        Trace.NoOrphans (lingeringEnd [.enters "a &", .enters "exit"]).2.outside.2 := by
  have hleft : (lingeringLeft [.enters "a &", .enters "exit"]).1 = .returned (.ok ()) := by
    decide +kernel
  have hown : Trace.Own (lingeringLeft [.enters "a &", .enters "exit"]).2.outside.2 := by
    decide +kernel
  have hleave : (lingeringEnd [.enters "a &", .enters "exit"]).1 = .returned () := by
    decide +kernel
  have hdelivered :
      (lingeringEnd [.enters "a &", .enters "exit"]).2.outside.2.allDelivered = true := by
    decide +kernel
  have hterm : (lingeringLeft [.enters "a &", .enters "exit"]).2.session.settings.terminateOnExit =
      true := by
    decide +kernel
  have hrunning : untilLeft "u" lingeringHost.kernel.traced ⟨lingeringSession,
      ({ terminal := { deeds := [.enters "a &", .enters "exit"] } }, [])⟩ =
        lingeringLeft [.enters "a &", .enters "exit"] := rfl
  refine ⟨hleft, by decide +kernel, ?_⟩
  rw [lingeringEnd] at hleave hdelivered ⊢
  generalize lingeringLeft [.enters "a &", .enters "exit"] = left at *
  obtain ⟨result, s₁, out₁, es₁⟩ := left
  obtain rfl : result = .returned (.ok ()) := hleft
  obtain ⟨o, s₂, out₂, es₂, hrun, -⟩ := leave_ends (k := lingeringHost.kernel) hterm out₁ es₁
  rw [hrun] at hleave hdelivered ⊢
  obtain rfl : o = .returned () := hleave
  have horphans := serve_orphans_iff hrunning hrun rfl hown fun pid o he =>
    Trace.delivered_of_all hdelivered pid o (List.mem_append_right _ he)
  exact horphans.2.2.1 rfl

/-- Two lines: one in the background, and a pipeline whose second program has a NUL in its name. The
pipeline's first process is an orphan. -/
theorem serve_leaves_orphan :
    (lingeringLeft [.enters "a &", .enters "a | b\x00"]).1 = .returned (.error .embeddedNul) ∧
      (lingeringEnd [.enters "a &", .enters "a | b\x00"]).1 = .returned () ∧
      (lingeringEnd [.enters "a &", .enters "a | b\x00"]).2.session.jobs = {} ∧
      (lingeringEnd [.enters "a &", .enters "a | b\x00"]).2.outside.2.allDelivered = true ∧
      (lingeringEnd [.enters "a &", .enters "a | b\x00"]).2.outside.2.started = [1, 2] ∧
      ¬ Trace.NoOrphans (lingeringEnd [.enters "a &", .enters "a | b\x00"]).2.outside.2 := by
  decide +kernel

end LineShell
