import LineShell.Proofs.Diagnostics
import LineShell.Proofs.LineOutput

namespace LineShell

open Shell

/-!
# What becomes of attempts to start processes

* `Trace.refusals`, `Trace.complaints` — what the attempts of a run have met, and what was said about it;
* `launch_complains` — of each command that could not be started it is said what it has met;
* `pipeline_stages` — what a pipeline asks for once its files are open, in the foreground or not;
* `launched_numbered` — those who could be started are numbered in order.
-/

variable {σ : Type} {k : Kernel σ} {s : Session}

/-! ### What attempts meet -/

/-- What an attempt to start a process has met: a fault or nothing. -/
def Event.refusal? : Event → Option (Option Fault)
  | ⟨.spawn .., .returned _⟩ => some none
  | ⟨.spawn .., .raised f⟩ => some (some f)
  | _ => none

namespace Trace

/-- What the attempts to start processes have met, in order. -/
def refusals (es : Trace) : List (Option Fault) := es.filterMap Event.refusal?

/-- What is said right after each attempt that has met a fault. -/
def complaints : Trace → List String
  | [] => []
  | e :: es =>
    (if e.refusal?.join.isSome then (es.head?.bind Event.report?).toList else []) ++ complaints es

variable {es es' : Trace}

theorem refusals_append (es es' : Trace) : refusals (es ++ es') = es.refusals ++ es'.refusals :=
  List.filterMap_append

theorem refusals_of_only {p : Request → Bool} (h : es.Only p)
    (hp : ∀ argv cwd streams, p (.spawn argv cwd streams) = false) : es.refusals = [] := by
  refine List.filterMap_eq_nil_iff.2 fun e he => ?_
  have hkind := h e he
  obtain ⟨r, o⟩ := e
  cases r with
  | spawn argv cwd streams =>
    rw [hp] at hkind
    cases hkind
  | _ => rfl

/-- What starts nothing adds no complaints to those that follow. -/
theorem complaints_append_of_only {p : Request → Bool} (h : es.Only p)
    (hp : ∀ argv cwd streams, p (.spawn argv cwd streams) = false) (es' : Trace) :
    complaints (es ++ es') = es'.complaints := by
  induction es with
  | nil => rfl
  | cons e es ih =>
    have hnone : e.refusal? = none := by
      have hrefusals := refusals_of_only h hp
      exact (List.filterMap_eq_nil_iff.1 hrefusals) e (.head _)
    rw [List.cons_append, complaints, hnone, ih (Trace.only_cons.1 h).2]
    rfl

end Trace

/-! ### Complaints -/

namespace Shell

/-- What is reported of some commands, given what the attempts to start them have met. -/
def complaintsOf (commands : List Command) (refusals : List (Option Fault)) : List String :=
  (commands.zip refusals).filterMap fun attempt => attempt.2.map (complaint attempt.1)

/-- Each of some commands has been tried, and those that could not be started have been complained about. -/
structure Complains (commands : List Command) (es : Trace) : Prop where
  length_eq : es.refusals.length = commands.length
  complaints : ∀ rest : Trace, Trace.complaints (es ++ rest) =
    complaintsOf commands es.refusals ++ rest.complaints

namespace Complains

variable {commands commands' : List Command} {es es' : Trace}

theorem of_only {p : Request → Bool} (h : es.Only p)
    (hp : ∀ argv cwd streams, p (.spawn argv cwd streams) = false) : Complains [] es := by
  have hrefusals := Trace.refusals_of_only h hp
  exact ⟨by rw [hrefusals]; rfl, Trace.complaints_append_of_only h hp⟩

theorem append (h : Complains commands es) (h' : Complains commands' es') :
    Complains (commands ++ commands') (es ++ es') := by
  refine ⟨?_, fun rest => ?_⟩
  · rw [Trace.refusals_append, List.length_append, List.length_append, h.length_eq, h'.length_eq]
  · rw [List.append_assoc, h.complaints, h'.complaints, Trace.refusals_append, complaintsOf, complaintsOf,
      complaintsOf, List.zip_append h.length_eq.symm, List.filterMap_append, List.append_assoc]

end Complains

variable {foreground : Bool} {chunk : Int} {before : Predecessor} {plans : List Plan}

theorem start_complains (command : Command) (streams : Streams) :
    Ensures k (start command streams) s fun o _ es => ∀ pid, o = .returned pid → Complains [command] es := by
  refine .session_bind (.ask_bind (fun _ => ?_) (fun _ _ => nofun) fun _ => nofun)
  refine Ensures.attempt_bind (.ask (Q := fun o _ es =>
    es = [⟨.spawn (Platform.direct.arguments command.argv) s.cwd streams, o⟩]) fun o => rfl) ?_ ?_
      fun _ _ _ _ => nofun
  · rintro pid s' _ rfl
    refine .ask_bind (fun _ => .pure ?_) (fun _ _ => nofun) fun _ => nofun
    rintro _ ⟨⟩
    exact ⟨rfl, fun rest => rfl⟩
  · rintro f s' _ rfl
    show Ensures k (if f.isIo then _ else Shell.raise f) _ _
    split
    · refine .ask_bind (fun _ => .pure ?_) (fun _ _ => nofun) fun _ => nofun
      rintro _ ⟨⟩
      exact ⟨rfl, fun rest => rfl⟩
    · exact .raise fun _ => nofun

theorem link_asks (pid : Option ProcessId) : Asks k Request.isTame (link chunk before pid) := by
  cases before with
  | running up => exact (Asks.ask rfl).bind fun _ => .pure _
  | none | missing => exact .pure _

/-- **Starting stages.** Those that cannot be started are complained about, in order. -/
theorem launch_complains : Ensures k (launch foreground chunk before plans) s fun o _ es =>
    ∀ r, o = .returned r → Complains (plans.map Plan.command) es := by
  induction plans generalizing before s with
  | nil => exact .pure fun _ _ => .of_only (p := fun _ => false) (Trace.only_nil _) fun _ _ _ => rfl
  | cons plan plans ih =>
    rw [launch_cons]
    refine (start_complains _ _).bind ?_ (fun _ _ _ _ _ => nofun) fun _ _ _ _ => nofun
    intro pid s' es hstart
    refine (link_asks pid s').bind ?_ (fun _ _ _ _ _ => nofun) fun _ _ _ _ => nofun
    rintro relay s'' es' ⟨-, hlink⟩
    refine Ensures.bind ih ?_ (fun _ _ _ _ _ => nofun) fun _ _ _ _ => nofun
    intro r s''' es'' hrest
    refine .pure fun _ _ => ?_
    rw [List.append_nil]
    have hsilent : Complains [] es' := .of_only hlink fun _ _ _ => rfl
    exact (hstart pid rfl).append (hsilent.append (hrest r rfl))

end Shell

/-! ### Whole pipelines -/

/-- Whether a request says something or closes a file, as leaving a line to the registry does. -/
def Request.isParting : Request → Bool
  | .log _ | .print _ | .closeFile _ => true
  | _ => false

theorem Request.isAside_of_isParting {r : Request} (h : r.isParting = true) : r.isAside = true := by
  cases r <;> first | rfl | cases h

namespace Shell

variable {line : CommandLine} {stages : List Stage} {relays : List RelayId}

theorem register_parts (job : Job) (announce : Bool) :
    Ensures k (register job announce) s fun _ _ es => es.Only Request.isParting := by
  have hlog : ∀ record o, Trace.Only Request.isParting [⟨.log record, o⟩] := fun record o =>
    Trace.only_cons.2 ⟨rfl, Trace.only_nil _⟩
  refine .modifySession_bind (.ask_bind (fun _ => ?_) (fun f => hlog _ _) (hlog _ _))
  show Ensures k (if announce then _ else _) _ _
  cases announce with
  | true => exact .ask fun _ => Trace.only_cons.2 ⟨rfl, Trace.only_cons.2 ⟨rfl, Trace.only_nil _⟩⟩
  | false => exact .pure (hlog _ _)

theorem leaveInBackground_parts (stages : List Stage) :
    Ensures k (leaveInBackground line stages) s fun _ _ es => es.Only Request.isParting := by
  have hothers : ∀ (pids : List ProcessId) (s : Session), Ensures k
      (pids.forM fun pid => register ⟨pid, line.text, true⟩ false) s
        fun _ _ es => es.Only Request.isParting := by
    intro pids
    induction pids with
    | nil => exact fun s => .pure (Trace.only_nil _)
    | cons pid pids ih =>
      refine fun s => (register_parts _ _).bind (fun _ s' es hes => (ih s').mono fun _ _ _ h => ?_)
        (fun _ _ _ h => h) fun _ _ h => h
      exact Trace.only_append.2 ⟨hes, h⟩
  refine (hothers _ s).bind (fun _ s' es hes => ?_) (fun _ _ _ h => h) fun _ _ h => h
  cases stages.getLast?.bind Stage.pid with
  | none => exact .pure (by rw [List.append_nil]; exact hes)
  | some pid => exact (register_parts _ _).mono fun _ _ _ h => Trace.only_append.2 ⟨hes, h⟩

/-- Whether nothing is left to be said. -/
def Ending.isDone : Ending → Bool
  | .done _ => true
  | .exited .. => false

/-- Nothing is left to be said of a background line. -/
theorem settle_parts (sink : Option FileId) : Ensures k (settle line sink stages relays) s fun o _ es =>
    line.background = true → es.Only Request.isParting ∧
      ∀ ending, o = .returned ending → ending.isDone = true := by
  cases hbg : line.background with
  | false => exact settle_follows.mono fun _ _ _ _ h => absurd h Bool.false_ne_true
  | true =>
    simp only [settle, CommandLine.blocks, hbg, Bool.not_true, Bool.false_eq_true, if_false]
    refine (leaveInBackground_parts stages).bind (fun _ _ es hes => .pure fun _ => ⟨?_, ?_⟩)
      (fun _ _ _ h _ => ⟨h, ?_⟩) fun _ _ h _ => ⟨h, ?_⟩
    · rw [List.append_nil]
      exact hes
    · rintro _ ⟨⟩
      rfl
    · rintro _ ⟨⟩
    · rintro _ ⟨⟩

theorem conclude_silent (ending : Ending) :
    Ensures k (conclude ending) s fun _ _ es => ending.isDone = true → es = [] := by
  cases ending with
  | done r => exact .pure fun _ => rfl
  | exited => exact (conclude_ensures _).mono fun _ _ _ _ => nofun

/-- The requests of a pipeline, in the foreground or not, once its files are open: its stages are started,
and what comes after starts nothing. In the background no more is done than to say something and to close
the files. -/
structure Staged (line : CommandLine) (s : Session) (plans : List Plan) (stages : List Stage)
    (relays : List RelayId) (pids : List ProcessId) (loop rest : Trace) : Prop where
  starting : loop.Only Request.isStarting
  launched : Launched line.blocks s.settings.relayChunk s .none plans stages relays loop
  complains : Complains (plans.map Plan.command) loop
  pids_eq : pids = pidsOf stages
  after : rest.Only (Request.isAfter (if line.background then none else lastPid stages))
  parting : line.background = true → rest.Only Request.isParting

/-- **A pipeline**, from the opening of its files on. -/
theorem pipeline_stages (plans : List Plan) :
    Ensures k (closing (idsOf plans) (runStages line plans) >>= conclude) s fun o _ es =>
      ∀ r, o = .returned r → ∃ stages relays loop rest, es = loop ++ rest ∧
        Staged line s plans stages relays r.pids loop rest := by
  have hbody : Ensures k (runStages line plans) s fun o _ es => ∀ ending, o = .returned ending →
      (∃ stages relays loop rest, es = loop ++ rest ∧
        Staged line s plans stages relays ending.result.pids loop rest) ∧
          (line.background = true → ending.isDone = true) := by
    rw [runStages_eq]
    refine .session_bind (Ensures.bind (((launch_asks_of (p := Request.isStarting) (fun _ h => h)
      _ _ _ plans s).and launch_performs).and launch_complains) ?_ (fun _ _ _ _ _ => nofun)
        fun _ _ _ _ => nofun)
    rintro ⟨stages, relays⟩ s' loop ⟨⟨⟨rfl, hstarting⟩, -, -, hlaunched⟩, hcomplains⟩
    refine (settle_follows.and (settle_parts _)).mono ?_
    rintro o s'' rest ⟨⟨hafter, hpids⟩, hparts⟩ ending ho
    exact ⟨⟨stages, relays, loop, rest, rfl, hstarting, hlaunched, hcomplains _ rfl, hpids ending ho, hafter,
      fun hbg => (hparts hbg).1⟩, fun hbg => (hparts hbg).2 ending ho⟩
  -- closing the files, and what is said at the end, come behind
  refine (Ensures.closing (idsOf plans) hbody).bind ?_ (fun _ _ _ _ _ => nofun) fun _ _ _ _ => nofun
  rintro ending s' _ ⟨o, es, closed, rfl, hes, hclosed, hafter⟩
  obtain ⟨⟨stages, relays, loop, rest, rfl, h⟩, hdone⟩ := hes ending (hafter.returned rfl)
  refine ((conclude_ensures ending).and (conclude_silent ending)).mono ?_
  rintro o' s'' said ⟨⟨hsaid, hpids⟩, hsilent⟩ r hr
  refine ⟨stages, relays, loop, rest ++ (closed ++ said), by simp only [List.append_assoc], h.starting,
    h.launched, h.complains, (hpids r hr).trans h.pids_eq, ?_, fun hbg => ?_⟩
  · have hclosed' : closed.Aside := hclosed.mono fun _ => Request.isAside_of_isClose
    exact Trace.only_append.2 ⟨h.after, (Trace.only_append.2 ⟨hclosed', hsaid⟩).mono
      fun _ => Request.isAfter_of_isAside⟩
  · rw [hsilent (hdone hbg), List.append_nil]
    refine Trace.only_append.2 ⟨h.parting hbg, hclosed.mono fun r hr => ?_⟩
    cases r <;> first | rfl | cases hr

/-! ### Numbers -/

/-- The numbers of processes that are started in order, given what the attempts have met. -/
def numbered : ProcessId → List (Option Fault) → List (Option ProcessId)
  | _, [] => []
  | pid, none :: refusals => some pid :: numbered (pid + 1) refusals
  | pid, some _ :: refusals => none :: numbered pid refusals

end Shell

namespace Host

variable {S : Type} {ps : Programs S} {m m' : Machine S} {before : Predecessor} {foreground : Bool}
  {chunk : Int} {plans : List Plan} {stages : List Shell.Stage} {relays : List RelayId} {es : Trace}
  (hquiet : ∀ s pid number next, ps.next s ≠ .signal pid number next)

include hquiet

/-- What concerns no process leaves the next number as it is. -/
theorem nextPid_of_aside (hes : es.Aside) (hplays : Plays ps m es m') : m'.nextPid = m.nextPid := by
  have hlater : Later m m' := .of_plays hquiet hplays <| hes.mono fun r hr => by
    cases r <;> first | rfl | cases hr
  exact congrArg Layout.nextPid hlater.layout

/-- An attempt to start a process brings the next number, or meets a fault. -/
theorem started_numbered {command : Command} {streams : Streams} {pid : Option ProcessId}
    (hstarted : Started command streams s pid es) (hplays : Plays ps m es m')
    (refusals : List (Option Fault)) :
    pid :: numbered m'.nextPid refusals = numbered m.nextPid (es.refusals ++ refusals) := by
  obtain ⟨before, after, out, rfl, hbefore, hafter, hbrings⟩ := hstarted
  obtain ⟨m₁, hplays₁, m₂, m₃, host, hmoves, rfl, hanswer, hplays₃⟩ := plays_append.1 hplays
  have hnext₁ := nextPid_of_aside hquiet hbefore hplays₁
  have hnext₂ : m₂.nextPid = m₁.nextPid := congrArg Layout.nextPid (layout_of_moves hquiet hmoves)
  have hnext₃ := nextPid_of_aside hquiet hafter hplays₃
  have hnone : ∀ {es : Trace}, es.Aside → es.refusals = [] := fun hes =>
    Trace.refusals_of_only hes fun _ _ _ => rfl
  have hrest : Trace.refusals after = [] := hnone hafter
  rw [Trace.refusals_append, hnone hbefore, List.nil_append]
  rcases host.answer_spawn hanswer with ⟨f, rfl, hnet⟩ | ⟨launch, -, heq⟩
  · -- nobody has come, and the number is still there
    cases pid with
    | some pid => cases hbrings
    | none =>
      have hnext : m'.nextPid = m.nextPid := by
        rw [hnext₃, show m₃.nextPid = m₂.nextPid from congrArg Net.nextPid hnet, hnext₂, hnext₁]
      show none :: _ = numbered m.nextPid ((some f :: Trace.refusals after) ++ refusals)
      rw [hrest, hnext]
      rfl
  · cases heq
    cases pid with
    | none =>
      obtain ⟨f, hraised, -⟩ := hbrings
      cases hraised
    | some pid =>
      obtain ⟨hfirst, -⟩ := m₂.processes_addProcess (Platform.direct.arguments command.argv) s.cwd streams
        launch
      have hpid : pid = m.nextPid := by
        rw [← hnext₁, ← hnext₂, ← hfirst]
        exact (Outcome.returned.inj hbrings).symm
      have hnext : m'.nextPid = pid + 1 := by
        rw [hnext₃, hpid, ← hnext₁, ← hnext₂, ← hfirst]
        rfl
      show some pid :: _ = numbered m.nextPid ((none :: Trace.refusals after) ++ refusals)
      rw [hrest, hnext, hpid]
      rfl

/-- Relays are not numbered. -/
theorem linked_unnumbered {pid : Option ProcessId} (hlinked : Linked chunk before pid relays es)
    (hplays : Plays ps m es m') : es.refusals = [] ∧ m'.nextPid = m.nextPid := by
  cases before with
  | running up =>
    obtain ⟨relay, -, rfl⟩ := hlinked
    obtain ⟨m₁, m₂, host, hmoves, -, hanswer, hmoves'⟩ := hplays
    obtain ⟨source, -, rfl⟩ := host.answer_startRelay hanswer
    have hnext₁ : m₁.nextPid = m.nextPid := congrArg Layout.nextPid (layout_of_moves hquiet hmoves)
    exact ⟨rfl, (congrArg Layout.nextPid (layout_of_moves hquiet hmoves')).trans hnext₁⟩
  | none | missing =>
    rw [hlinked.2] at hplays ⊢
    exact ⟨rfl, congrArg Layout.nextPid (layout_of_moves hquiet hplays)⟩

/-- **Processes are numbered in order**, whatever moves while they are started. -/
theorem launched_numbered (hlaunched : Launched foreground chunk s before plans stages relays es)
    (hplays : Plays ps m es m') : stages.map Shell.Stage.pid = numbered m.nextPid es.refusals := by
  induction hlaunched generalizing m with
  | nil => rfl
  | @cons before plan plans pid stages _ _ es₁ es₂ es₃ hstarted hlinked _ ih =>
    obtain ⟨m₂, hplays', hplays₃⟩ := plays_append.1 hplays
    obtain ⟨m₁, hplays₁, hplays₂⟩ := plays_append.1 hplays'
    obtain ⟨hnone, hnext⟩ := linked_unnumbered hquiet hlinked hplays₂
    rw [List.map_cons, ih hplays₃, hnext, started_numbered hquiet hstarted hplays₁, Trace.refusals_append,
      Trace.refusals_append, hnone, List.append_nil]

end Host

end LineShell
