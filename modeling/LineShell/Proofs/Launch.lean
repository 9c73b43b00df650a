import LineShell.Proofs.StageFiles
import LineShell.Shell.Pipeline

namespace LineShell

/-!
# Starting the stages of a line

* `openStages_ensures` — that opening the files of a line concerns no process;
* `Started` — the events of starting one process, or of failing to;
* `Launched` — the events of starting the stages of a line, with the relays between them;
* `start_performs`, `launch_performs` — that runs of `Shell.start` and `Shell.launch` have just these
  events;
* `Launched.spawns`, `Launched.length_eq` — each stage is tried once.
-/

variable {σ : Type} {k : Kernel σ} {s : Session}

/-- Whether a request starts a process or a relay, or concerns neither. -/
def Request.isLaunch : Request → Bool
  | .spawn .. | .startRelay .. => true
  | r => r.isAside

namespace Event

theorem exited?_of_isLaunch {e : Event} (h : e.request.isLaunch = true) : e.exited? = none := by
  obtain ⟨r, o⟩ := e
  cases r <;> first | rfl | cases h

end Event

theorem Trace.exits_of_only_isLaunch {es : Trace} (h : es.Only Request.isLaunch) : es.exits = [] :=
  List.filterMap_eq_nil_iff.2 fun e he => Event.exited?_of_isLaunch (h e he)

namespace Shell

/-! ### The files of the stages -/

/-- Opening the files of stages concerns no process. Where all can be opened, there is a plan for
each stage. -/
theorem openStages_ensures (stages : List (Command × Wiring)) :
    Ensures k (openStages stages) s fun o s' es => s' = s ∧ es.Aside ∧ ∀ r, o = .returned r →
      (r.2 = none → r.1.map (fun plan => (plan.command, plan.wiring)) = stages) ∧
        ∀ plan ∈ r.1, FilesOpened s plan.wiring plan.files es := by
  induction stages with
  | nil =>
    refine .pure ⟨rfl, Trace.only_nil _, ?_⟩
    rintro _ ⟨⟩
    refine ⟨fun _ => rfl, fun plan hplan => ?_⟩
    cases hplan
  | cons stage stages ih =>
    refine Ensures.attempt_bind (openStage_ensures _) ?_ ?_
      fun _ _ h => ⟨h.1, h.2.1, fun _ => nofun⟩
    · rintro files s' es ⟨rfl, hes, hfiles⟩
      refine ih.bind ?_ (fun _ _ _ h => ⟨h.1, Trace.only_append.2 ⟨hes, h.2.1⟩, fun _ => nofun⟩)
        fun _ _ h => ⟨h.1, Trace.only_append.2 ⟨hes, h.2.1⟩, fun _ => nofun⟩
      rintro ⟨plans, fault⟩ s' es' ⟨rfl, hes', hplans⟩
      refine .pure ⟨rfl, ?_, ?_⟩
      · rw [List.append_nil]
        exact Trace.only_append.2 ⟨hes, hes'⟩
      rintro _ ⟨⟩
      obtain ⟨hall, hopened⟩ := hplans _ rfl
      rw [List.append_nil]
      refine ⟨fun hfault => ?_, fun plan hplan => ?_⟩
      · rw [List.map_cons, hall hfault]
      rcases List.mem_cons.1 hplan with rfl | hplan
      · exact (hfiles files rfl).mono (List.subset_append_left _ _)
      · exact (hopened plan hplan).mono (List.subset_append_right _ _)
    · rintro f s' es ⟨rfl, hes, -⟩
      refine .pure ⟨rfl, ?_, ?_⟩
      · rw [List.append_nil]
        exact hes
      rintro _ ⟨⟩
      refine ⟨fun hfault => ?_, fun plan hplan => ?_⟩
      · cases hfault
      · cases hplan

/-! ### One process -/

/-- What came of an attempt to start a process. -/
def Brings (pid : Option ProcessId) (o : Outcome ProcessId) : Prop :=
  match pid with
  | some pid => o = .returned pid
  | none => ∃ f, o = .raised f ∧ f.isIo = true

/-- The events of starting a process, or of failing to. -/
def Started (command : Command) (streams : Streams) (s : Session) (pid : Option ProcessId)
    (es : Trace) : Prop :=
  ∃ (before after : Trace) (o : Outcome ProcessId),
    es = before ++ ⟨.spawn (Platform.direct.arguments command.argv) s.cwd streams, o⟩ :: after ∧
      before.Aside ∧ after.Aside ∧ Brings pid o

theorem Started.spawns {command : Command} {streams : Streams} {pid : Option ProcessId}
    {es : Trace} (h : Started command streams s pid es) : es.spawns = [pid] := by
  obtain ⟨before, after, o, rfl, hb, ha, ho⟩ := h
  have hspawned : Event.spawned? ⟨.spawn (Platform.direct.arguments command.argv) s.cwd streams, o⟩
      = some pid := by
    cases pid with
    | some pid => cases ho; rfl
    | none => obtain ⟨f, rfl, -⟩ := ho; rfl
  have hafter := Trace.spawns_of_aside ha
  rw [Trace.spawns_append, Trace.spawns_of_aside hb, List.nil_append]
  simp only [Trace.spawns, List.filterMap_cons, hspawned] at hafter ⊢
  rw [hafter]

theorem start_performs (command : Command) (streams : Streams) :
    Performs k Request.isLaunch (start command streams) s (Started command streams s) := by
  refine Ensures.session_bind (Performs.ask_bind rfl fun _ => ?_)
  refine Performs.attempt_ask_bind rfl (fun pid => ?_) fun f => ?_
  · refine .ask_bind rfl fun _ => .pure ?_
    exact ⟨[⟨.log _, .returned ()⟩], [⟨.log _, .returned ()⟩], _, rfl,
      by simp [Request.isAside], by simp [Request.isAside], rfl⟩
  · show Ensures k (if f.isIo then _ else Shell.raise f) _ _
    cases hio : f.isIo with
    | true =>
      rw [if_pos rfl]
      -- the report is the last request, so a fault of it ends the run
      refine Ensures.ask_bind (fun _ => .pure ⟨rfl, by simp [Request.isLaunch, Request.isAside], ?_⟩)
        (fun g => ⟨rfl, by simp [Request.isLaunch, Request.isAside], ?_⟩)
        ⟨rfl, by simp [Request.isLaunch, Request.isAside], trivial⟩
      · exact ⟨[⟨.log _, .returned ()⟩], [⟨.report _, .returned ()⟩], _, rfl,
          by simp [Request.isAside], by simp [Request.isAside], f, rfl, hio⟩
      · exact ⟨_, .tail _ (.head _), rfl⟩
    | false =>
      rw [if_neg (by simp)]
      exact .raise ⟨rfl, Trace.only_nil _, _, .head _, rfl⟩

/-! ### All stages of a line -/

/-- The stage before one that comes after an attempt to start a process. -/
def Predecessor.of : Option ProcessId → Predecessor
  | .some pid => .running pid
  | .none => .missing

/-- Starts a relay from the stage before, if that one has a process. -/
def link (chunk : Int) (before : Predecessor) (pid : Option ProcessId) : Shell σ (List RelayId) :=
  match before with
  | .running up => do
    let relay ← startRelay up pid chunk
    return [relay]
  | _ => return []

/-- A stage is started, then linked to the one before it, and then come the stages behind it. -/
theorem launch_cons (foreground : Bool) (chunk : Int) (before : Predecessor) (plan : Plan)
    (plans : List Plan) : (launch foreground chunk before (plan :: plans) : Shell σ _) = do
      let pid ← start plan.command (stageStreams foreground before plan plans.isEmpty)
      let relay ← link chunk before pid
      let r ← launch foreground chunk (.of pid) plans
      return (⟨plan.command, pid⟩ :: r.1, relay ++ r.2) := by
  rw [launch]
  congr 1
  funext pid
  cases before <;> cases pid <;> simp only [link, bind_assoc, pure_bind, Predecessor.of]

/-- The events of linking a stage to the one before it: a relay, if that one has a process. -/
def Linked (chunk : Int) (before : Predecessor) (pid : Option ProcessId) (relays : List RelayId)
    (es : Trace) : Prop :=
  match before with
  | .running up => ∃ relay, relays = [relay] ∧ es = [⟨.startRelay up pid chunk, .returned relay⟩]
  | _ => relays = [] ∧ es = []

/-- The events of starting stages, with the relays between them. -/
inductive Launched (foreground : Bool) (chunk : Int) (s : Session) :
    Predecessor → List Plan → List Stage → List RelayId → Trace → Prop
  | nil (before : Predecessor) : Launched foreground chunk s before [] [] [] []
  | cons {before : Predecessor} {plan : Plan} {plans : List Plan} {pid : Option ProcessId}
      {stages : List Stage} {relay relays : List RelayId} {es es' es'' : Trace} :
    Started plan.command (stageStreams foreground before plan plans.isEmpty) s pid es →
    Linked chunk before pid relay es' →
    Launched foreground chunk s (.of pid) plans stages relays es'' →
    Launched foreground chunk s before (plan :: plans) (⟨plan.command, pid⟩ :: stages)
      (relay ++ relays) (es ++ es' ++ es'')

variable {foreground : Bool} {chunk : Int} {before : Predecessor} {plans : List Plan}
  {stages : List Stage} {relays : List RelayId} {es : Trace}

theorem link_performs (pid : Option ProcessId) :
    Performs k Request.isLaunch (link chunk before pid) s (Linked chunk before pid) := by
  cases before with
  | running up => exact .ask_bind rfl fun relay => .pure ⟨relay, rfl, rfl⟩
  | none => exact .pure ⟨rfl, rfl⟩
  | missing => exact .pure ⟨rfl, rfl⟩

theorem launch_performs : Performs k Request.isLaunch (launch foreground chunk before plans) s
    fun r es => Launched foreground chunk s before plans r.1 r.2 es := by
  induction plans generalizing before with
  | nil => exact .pure (.nil before)
  | cons plan plans ih =>
    rw [launch_cons]
    refine (start_performs _ _).bind fun pid es hstarted => ?_
    refine (link_performs pid).bind fun relay es' hlinked => ?_
    refine (@ih (.of pid)).bind fun r es'' hlaunched => .pure ?_
    rw [List.append_nil, ← List.append_assoc]
    exact .cons hstarted hlinked hlaunched

theorem Launched.spawns (h : Launched foreground chunk s before plans stages relays es) :
    es.spawns = stages.map Stage.pid := by
  induction h with
  | nil => rfl
  | @cons before _ _ pid _ _ _ _ es' _ hstarted hlinked _ ih =>
    have hlink : es'.spawns = [] := by
      cases before with
      | running up => obtain ⟨relay, -, rfl⟩ := hlinked; rfl
      | none => rw [hlinked.2]; rfl
      | missing => rw [hlinked.2]; rfl
    rw [Trace.spawns_append, Trace.spawns_append, hstarted.spawns, hlink, ih]
    rfl

theorem Launched.length_eq (h : Launched foreground chunk s before plans stages relays es) :
    stages.length = plans.length := by
  induction h with
  | nil => rfl
  | cons _ _ _ ih => rw [List.length_cons, List.length_cons, ih]

end Shell

end LineShell
