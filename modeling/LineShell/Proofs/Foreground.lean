import LineShell.Proofs.Delivery
import LineShell.Proofs.StageWiring

namespace LineShell

/-!
# What a foreground pipeline hands on

* `Result.Fair` — neither an interrupt nor a fault has cut a line short;
* `Leaves` — the traces of runs that return with answers of some kind;
* `Shell.Gathered` — all that the last process writes is handed on, up to its end;
* `awaitPipeline_gathers` — a pipeline that has been waited for without a fault has been gathered;
* `Shell.Piped`, `runPipeline_piped` — the parts of the trace of such a run.
-/

variable {σ α β : Type} {k : Kernel σ} {s : Session}

/-- Neither an interrupt nor a fault of input or output has cut the line short. Some of its commands
may not have been started. -/
def Result.Fair (r : Result) : Prop := r.failure = none ∨ r.failure = some .spawn

/-! ### Requests that hand nothing on -/

/-- Whether a request concerns no process, or waits for some, or lets go of an output. -/
def Request.isIdle : Request → Bool
  | .closeOutput _ | .wait _ | .joinRelay _ => true
  | r => r.isAside

/-- Whether a request is one that comes after the stages have been started, as long as there is no
fault. -/
def Request.isUpkeep (r : Request) : Bool := r.isAside || r.isTending

theorem Request.isUpkeep_of_isIdle {r : Request} (h : r.isIdle = true) : r.isUpkeep = true := by
  cases r <;> first | rfl | cases h

theorem Request.isIdle_of_isAside {r : Request} (h : r.isAside = true) : r.isIdle = true := by
  cases r <;> first | rfl | cases h

theorem Event.handed_of_isIdle {e : Event} (h : e.request.isIdle = true) (sink : Option FileId) :
    e.handed sink = [] := by
  obtain ⟨r, o⟩ := e
  cases r <;> first | rfl | cases h

/-! ### Traces of runs that return -/

/-- If the run returns with an answer of some kind, its trace is of some kind. -/
def Leaves (P : α → Prop) (G : Trace → Prop) : Post α := fun o _ es =>
  ∀ a, o = .returned a → P a → G es

/-- What holds of a trace holds of it with requests behind it that hand nothing on. -/
def Trace.Lasting (G : Trace → Prop) : Prop :=
  ∀ es es', G es → Trace.Only Request.isIdle es' → G (es ++ es')

namespace Ensures

variable {x : Shell (σ × Trace) α} {f : α → Shell (σ × Trace) β} {P : α → Prop} {P' : β → Prop}
  {G : Trace → Prop}

/-- A run goes on with requests that hand nothing on. -/
theorem leaves_bind (hG : Trace.Lasting G) (hx : Ensures k x s (Leaves P G))
    (hf : ∀ a s', Ensures k (f a) s' fun o _ es =>
      ∀ b, o = .returned b → P' b → P a ∧ es.Only Request.isIdle) :
    Ensures k (x >>= f) s (Leaves P' G) := by
  refine hx.bind (fun a s' es hleaves => (hf a s').mono ?_) (fun _ _ _ _ => nofun)
    fun _ _ _ => nofun
  intro o s'' es' hrest b hb hP'
  obtain ⟨hP, hidle⟩ := hrest b hb hP'
  exact hG es es' (hleaves a rfl hP) hidle

theorem leaves_attempt (hx : Ensures k x s (Leaves P G)) :
    Ensures k x.attempt s (Leaves (fun r => ∃ a, r = .ok a ∧ P a) G) := by
  refine hx.attempt (fun a s' es hleaves => ?_) (fun e s' es _ => ?_) fun _ _ _ => nofun
  · rintro _ ⟨⟩ ⟨_, ⟨⟩, hP⟩
    exact hleaves a rfl hP
  · rintro _ ⟨⟩ ⟨_, ⟨⟩, -⟩

theorem leaves_closing (hG : Trace.Lasting G) (ids : List FileId)
    (hx : Ensures k x s (Leaves P G)) : Ensures k (Shell.closing ids x) s (Leaves P G) := by
  refine (Ensures.closing ids hx).mono ?_
  rintro o s' _ ⟨o₁, es, es', rfl, hleaves, hclosed, hafter⟩ a ha hP
  refine hG es es' (hleaves a (hafter.returned ha) hP) (hclosed.mono fun r hr => ?_)
  exact Request.isIdle_of_isAside (Request.isAside_of_isClose hr)

end Ensures

namespace Shell

variable {last : Option ProcessId} {sink : Option FileId} {stages : List Stage}
  {relays : List RelayId} {line : CommandLine} {es es' : Trace}

/-! ### Gathering what the last stage writes -/

/-- Whatever the last process writes is handed on, up to its end, and then flushed. If there is no
such process, nothing is. -/
def Gathered (last : Option ProcessId) (sink : Option FileId) (es : Trace) : Prop :=
  match last with
  | none => es.Only Request.isUpkeep ∧ es.handed sink = []
  | some pid => ∃ pre post : Trace,
      es = pre ++ Event.endOf pid :: Event.flushed sink :: post ∧ Taps pid sink pre ∧
        post.Only Request.isUpkeep ∧ post.handed sink = []

theorem Gathered.only_isUpkeep (h : Gathered last sink es) : es.Only Request.isUpkeep := by
  cases last with
  | none => exact h.1
  | some pid =>
    obtain ⟨pre, post, rfl, hpre, hpost, -⟩ := h
    have hflushed : (Event.flushed sink).request.isUpkeep = true := by
      rw [Request.isUpkeep, Event.isAside_flushed, Bool.true_or]
    refine Trace.only_append.2
      ⟨fun e he => ?_, Trace.only_cons.2 ⟨rfl, Trace.only_cons.2 ⟨hflushed, hpost⟩⟩⟩
    rcases hpre.from_ e he with ⟨bytes, rfl⟩ | ⟨hdrain, -⟩
    · rfl
    · rw [Request.isUpkeep, Request.isTending_of_isDrain hdrain, Bool.or_true]

theorem Gathered.handed_eq {pid : ProcessId} (h : Gathered (some pid) sink es) :
    ∃ pre post : Trace, es = pre ++ Event.endOf pid :: post ∧ Taps pid sink pre ∧
      post.Only Request.isUpkeep ∧ es.handed sink = pre.readings ∧ post.Flushed sink := by
  have hupkeep := h.only_isUpkeep
  obtain ⟨pre, post, rfl, hpre, -, hnone⟩ := h
  refine ⟨pre, Event.flushed sink :: post, rfl, hpre, ?_, ?_, [], post, rfl, hnone⟩
  · exact (Trace.only_cons.1 (Trace.only_append.1 hupkeep).2).2
  · have hflushed := Event.handed_of_isAside (Event.isAside_flushed sink) sink
    rw [Trace.handed_append, hpre.handed]
    show pre.readings ++ ([] ++ ((Event.flushed sink).handed sink ++ post.handed sink)) = _
    rw [hnone, hflushed, List.append_nil, List.append_nil, List.append_nil]

/-- Where nothing is handed on there is no last process, and otherwise all has been flushed. -/
theorem Gathered.flushed (h : Gathered last sink es) :
    (last = none → es.handed sink = []) ∧ (last ≠ none → es.Flushed sink) := by
  cases last with
  | none => exact ⟨fun _ => h.2, fun hne => absurd rfl hne⟩
  | some pid =>
    obtain ⟨pre, post, rfl, -, -, -, hflushed⟩ := h.handed_eq
    rw [List.append_cons]
    exact ⟨nofun, fun _ => hflushed.prepend _⟩

/-- A console that is handed something takes bytes. -/
def TakesBytes (sink : Option FileId) (es : Trace) : Prop :=
  sink = none → ⟨.consoleTakesBytes, .returned false⟩ ∉ es

theorem Gathered.append (h : Gathered last sink es) (hidle : es'.Only Request.isIdle) :
    Gathered last sink (es ++ es') := by
  have hupkeep : es'.Only Request.isUpkeep := hidle.mono fun _ => Request.isUpkeep_of_isIdle
  have hhanded : es'.handed sink = [] :=
    Trace.handed_of_only hidle sink fun _ he => Event.handed_of_isIdle he sink
  cases last with
  | none =>
    obtain ⟨hes, hnone⟩ := h
    refine ⟨Trace.only_append.2 ⟨hes, hupkeep⟩, ?_⟩
    rw [Trace.handed_append, hnone, hhanded]
    rfl
  | some pid =>
    obtain ⟨pre, post, rfl, hpre, hpost, hnone⟩ := h
    refine ⟨pre, post ++ es', ?_, hpre, Trace.only_append.2 ⟨hpost, hupkeep⟩, ?_⟩
    · rw [List.append_assoc, List.cons_append, List.cons_append]
    · rw [Trace.handed_append, hnone, hhanded]
      rfl

theorem lasting_gathered (last : Option ProcessId) (sink : Option FileId) :
    Trace.Lasting fun es => TakesBytes sink es → Gathered last sink es := by
  intro es es' h hidle hbytes
  have hbytes' : TakesBytes sink es := fun hs hmem => hbytes hs (List.mem_append_left _ hmem)
  exact (h hbytes').append hidle

theorem drainLast_gathers (last : Option ProcessId) : Ensures k (drainLast sink last) s
    (Leaves (fun _ => True) fun es => TakesBytes sink es → Gathered last sink es) := by
  cases last with
  | none =>
    refine .pure ?_
    intro code hcode _ _
    exact ⟨Trace.only_nil _, rfl⟩
  | some pid =>
    have hdrain : Ensures k (drain pid sink) s
        (Leaves (fun _ => True) fun es => TakesBytes sink es → Gathered (some pid) sink es) := by
      have hdrained := drain_drained (k := k) (s := s) pid sink
      refine Ensures.mono hdrained ?_
      rintro o s' es ⟨-, -, hyields⟩ a rfl - hbytes
      obtain ⟨pre, rfl, hpre⟩ := hyields hbytes
      exact ⟨pre, [], rfl, hpre, Trace.only_nil _, rfl⟩
    have hrest : Asks k Request.isIdle (closeOutput pid >>= fun _ => wait pid) :=
      (Asks.ask rfl).bind fun _ => .ask rfl
    refine hdrain.leaves_bind (lasting_gathered _ _) fun _ s' => (hrest s').mono ?_
    intro o s'' es hes b _ _
    exact ⟨trivial, hes.2⟩

theorem collect_gathers : Ensures k (collect sink stages relays) s
    (Leaves (fun c => c.fault = none) fun es =>
      TakesBytes sink es → Gathered (lastPid stages) sink es) := by
  have hothers : Asks k Request.isIdle (awaitOthers stages relays) :=
    (Asks.forM fun _ => .ask rfl).bind fun _ => waitAll_asks (fun _ => rfl) _
  refine (drainLast_gathers (lastPid stages)).leaves_attempt.leaves_bind (lasting_gathered _ _) ?_
  rintro (f | code) s'
  · refine .pure ?_
    rintro _ ⟨⟩ ⟨⟩
  · refine (hothers.attempt.bind fun waited => ?_) s' |>.mono ?_
    · cases waited <;> exact .pure _
    · intro o s'' es hes c _ _
      exact ⟨⟨code, rfl, trivial⟩, hes.2⟩

/-- What has been done before an ending does not change it. -/
theorem pure_ending {x : Shell (σ × Trace) Unit} {Q : Post Unit} (hx : Ensures k x s Q)
    (ending : Ending) : Ensures k (x >>= fun _ => pure ending) s fun o _ _ =>
      ∀ b, o = .returned b → b = ending := by
  refine hx.bind (fun _ _ _ _ => .pure ?_) (fun _ _ _ _ => nofun) fun _ _ _ => nofun
  rintro _ ⟨⟩
  rfl

/-- **A pipeline that has been waited for** without an interrupt or a fault has been gathered. -/
theorem awaitPipeline_gathers (result : Result) :
    Ensures k (awaitPipeline sink stages relays result) s
      (Leaves (fun ending => ending.result.Fair) fun es =>
        TakesBytes sink es → Gathered (lastPid stages) sink es) := by
  refine collect_gathers.leaves_bind (lasting_gathered _ _) ?_
  rintro ⟨code, fault⟩ s'
  cases fault with
  | none =>
    refine .pure ?_
    intro b _ _
    exact ⟨rfl, Trace.only_nil _⟩
  | some f =>
    -- whatever follows a fault, it does not end well
    have hunfair : ∀ {o : Outcome Ending} {ending : Ending} {es : Trace}, ¬ ending.result.Fair →
        (∀ b, o = .returned b → b = ending) → ∀ b, o = .returned b → b.result.Fair →
          (⟨code, some f⟩ : Collected).fault = none ∧ es.Only Request.isIdle := by
      intro o ending es hnot hb b ho hfair
      rw [hb b ho] at hfair
      exact absurd hfair hnot
    cases f with
    | interrupt =>
      refine (pure_ending (leaveInterrupted_ensures _ stages) _).mono fun o _ es hb => ?_
      exact hunfair (by simp [Result.Fair, Ending.result]) hb
    | system | described | brokenPipe | cannotOpen =>
      simp only [Fault.isIo, if_true]
      rw [← bind_assoc]
      have hwait : ∀ text : String, Asks k Request.isIdle (report text >>=
          fun _ => (pidsOf stages).forM fun pid => do let _ ← wait pid) :=
        fun text => (Asks.ask rfl).bind fun _ => waitAll_asks (fun _ => rfl) _
      refine (pure_ending (hwait _ s') _).mono fun o _ es hb => ?_
      exact hunfair (by simp [Result.Fair, Ending.result]) hb
    | invalid | wrongKind | outOfRange | linkLoop =>
      refine .raise ?_
      intro b hb
      cases hb

/-! ### Whole lines -/

/-- The parts of the trace of a foreground pipeline: its files are opened, its stages are started,
and what the last one writes is handed on. -/
structure Piped (line : CommandLine) (s : Session) (plans : List Plan) (stages : List Stage)
    (relays : List RelayId) (opened loop rest : Trace) : Prop where
  aside : opened.Aside
  commands : plans.map (fun plan => (plan.command, plan.wiring)) = line.commands.zip line.wirings
  files : ∀ plan ∈ plans, FilesOpened s plan.wiring plan.files opened
  launch : loop.Only Request.isLaunch
  launched : Launched true s.settings.relayChunk s .none plans stages relays loop
  gathered : TakesBytes (plans.getLast?.bind (·.files.output)) rest →
    Gathered (lastPid stages) (plans.getLast?.bind (·.files.output)) rest

theorem Launched.commands {foreground : Bool} {chunk : Int} {before : Predecessor}
    {plans : List Plan} (h : Launched foreground chunk s before plans stages relays es) :
    stages.map Stage.command = plans.map Plan.command := by
  induction h with
  | nil => rfl
  | cons _ _ _ ih => rw [List.map_cons, List.map_cons, ih]

namespace Piped

variable {plans : List Plan} {opened loop rest : Trace}
  (h : Piped line s plans stages relays opened loop rest)

include h

/-- Only the loop starts processes. -/
theorem spawns (hgathered : Gathered last sink rest) :
    (opened ++ loop ++ rest).spawns = stages.map Stage.pid := by
  have hrest : rest.spawns = [] := Trace.spawns_of_no_spawn <|
    hgathered.only_isUpkeep.mono fun r hr => by cases r <;> first | rfl | cases hr
  rw [Trace.spawns_append, Trace.spawns_append, Trace.spawns_of_aside h.aside,
    h.launched.spawns, hrest, List.nil_append, List.append_nil]

/-- Only what comes after the loop hands anything on. -/
theorem handed (sink : Option FileId) :
    (opened ++ loop ++ rest).handed sink = rest.handed sink := by
  have hloop : loop.handed sink = [] := Trace.handed_of_only h.launch sink fun e he => by
    obtain ⟨r, o⟩ := e
    cases r <;> first | rfl | cases he
  rw [Trace.handed_append, Trace.handed_append, Trace.handed_of_aside h.aside, hloop]
  rfl

end Piped

/-- The trace falls into the parts that that of a foreground pipeline has, of which the first part
is given. -/
def PipedFrom (line : CommandLine) (s : Session) (plans : List Plan) (opened es : Trace) : Prop :=
  ∃ stages relays loop rest, es = loop ++ rest ∧ Piped line s plans stages relays opened loop rest

theorem lasting_pipedFrom (plans : List Plan) (opened : Trace) :
    Trace.Lasting (PipedFrom line s plans opened) := by
  rintro _ es' ⟨stages, relays, loop, rest, rfl, h⟩ hidle
  refine ⟨stages, relays, loop, rest ++ es', List.append_assoc .., h.aside, h.commands, h.files,
    h.launch, h.launched, ?_⟩
  exact lasting_gathered _ _ rest es' h.gathered hidle

theorem runStages_piped {plans : List Plan} {opened : Trace} (hfg : line.background = false)
    (haside : opened.Aside)
    (hplans : plans.map (fun plan => (plan.command, plan.wiring)) =
      line.commands.zip line.wirings)
    (hfiles : ∀ plan ∈ plans, FilesOpened s plan.wiring plan.files opened) :
    Ensures k (runStages line plans) s
      (Leaves (fun ending => ending.result.Fair) (PipedFrom line s plans opened)) := by
  rw [runStages_eq]
  refine .session_bind (Ensures.bind launch_performs ?_ (fun _ _ _ _ => nofun) fun _ _ _ => nofun)
  rintro ⟨stages, relays⟩ s' loop ⟨rfl, hlaunch, hlaunched⟩
  have hblocks : line.blocks = true := by simp [CommandLine.blocks, hfg]
  have hlaunched : Launched true s'.settings.relayChunk s' .none plans stages relays loop := by
    rw [← hblocks]
    exact hlaunched
  simp only [settle, hblocks, if_true]
  refine (awaitPipeline_gathers _).mono fun o s'' rest hleaves ending ho hfair => ?_
  exact ⟨stages, relays, loop, rest, rfl, haside, hplans, hfiles, hlaunch, hlaunched,
    hleaves ending ho hfair⟩

theorem reportRelays_fair (r : Result) (relays : List RelayId) :
    Performs k Request.isAside (reportRelays r relays) s fun r' _ => r'.Fair → r.Fair := by
  induction relays generalizing r with
  | nil => exact .pure id
  | cons relay relays ih =>
    refine .ask_bind rfl fun fault => ?_
    cases fault with
    | none => exact ih r
    | some f =>
      refine .ask_bind rfl fun _ => (ih _).weaken fun r' _ h hfair => ?_
      have hfair := h hfair
      cases hfailure : r.failure with
      | none => exact .inl hfailure
      | some failure =>
        simp only [Result.Fair, hfailure] at hfair ⊢
        exact hfair

theorem conclude_fair (ending : Ending) : Ensures k (conclude ending) s fun o _ es =>
    ∀ r, o = .returned r → r.Fair → ending.result.Fair ∧ es.Only Request.isIdle := by
  cases ending with
  | done result =>
    refine .pure ?_
    rintro _ ⟨⟩ hfair
    exact ⟨hfair, Trace.only_nil _⟩
  | exited result relays lastStarted =>
    refine Ensures.bind (reportRelays_fair result relays) ?_ (fun _ _ _ _ => nofun)
      fun _ _ _ => nofun
    rintro r s' es ⟨rfl, hes, hr⟩
    refine (reportExit_asks r lastStarted s').bind ?_ (fun _ _ _ _ => nofun) fun _ _ _ => nofun
    rintro _ s'' es' ⟨rfl, hes'⟩
    refine .pure ?_
    rintro _ ⟨⟩ hfair
    rw [List.append_nil]
    exact ⟨hr hfair, (Trace.only_append.2 ⟨hes, hes'⟩).mono fun _ => Request.isIdle_of_isAside⟩

/-- **The trace of a foreground pipeline** that neither an interrupt nor a fault has cut short. -/
theorem runPipeline_piped (hfg : line.background = false) : Ensures k (runPipeline line) s
    (Leaves Result.Fair fun es => ∃ plans stages relays opened loop rest,
      es = opened ++ loop ++ rest ∧ Piped line s plans stages relays opened loop rest) := by
  rw [runPipeline_eq]
  refine (openStages_ensures _).bind ?_ (fun _ _ _ _ => nofun) fun _ _ _ => nofun
  rintro ⟨plans, fault⟩ s' opened ⟨rfl, haside, hopened⟩
  obtain ⟨hplans, hfiles⟩ := hopened _ rfl
  have hstages : Ensures k (runOpened line plans fault) s'
      (Leaves (fun ending => ending.result.Fair) (PipedFrom line s' plans opened)) := by
    cases fault with
    | none => exact runStages_piped hfg haside (hplans rfl) hfiles
    | some f =>
      -- a line whose files cannot be opened does not end well
      refine (refuse_ensures f).mono ?_
      rintro o s'' es ⟨-, -, hrefused⟩ ending ho hfair
      have hfailure : ending.result.failure = some .io := by
        have := hrefused ending ho
        cases ending <;> exact this
      simp [Result.Fair, hfailure] at hfair
  refine ((hstages.leaves_closing (lasting_pipedFrom _ _) (idsOf plans)).leaves_bind
    (lasting_pipedFrom _ _) fun ending s'' => conclude_fair ending).mono ?_
  intro o s'' es hleaves r ho hfair
  obtain ⟨stages, relays, loop, rest, rfl, hpiped⟩ := hleaves r ho hfair
  exact ⟨plans, stages, relays, opened, loop, rest, (List.append_assoc ..).symm, hpiped⟩

end Shell

end LineShell
