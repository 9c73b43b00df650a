import LineShell.Proofs.Launch

namespace LineShell

/-!
# Draining and waiting

* `drain_ensures` — a drain that returns has come to the end of the output, and one that raises a
  fault has met it with a request of its own;
* `waitAll_ensures` — waiting for processes that returns has seen all of them exit;
* `collect_ensures` — what has been drained and waited for when a pipeline has been collected;
* `runPipeline_eq` — the parts of a run of a pipeline.
-/

variable {σ : Type} {k : Kernel σ} {s : Session}

/-- Whether a request is one that a drain makes. -/
def Request.isDrain : Request → Bool
  | .readOutput _ | .writeFile .. | .flushFile _ | .consoleTakesBytes | .flushConsole
  | .writeConsole _ | .print _ => true
  | _ => false

/-- Whether a request is one that tending to a pipeline takes, once it has been started. -/
def Request.isTending : Request → Bool
  | .closeOutput _ | .wait _ | .joinRelay _ => true
  | r => r.isDrain

theorem Request.isTending_of_isDrain {r : Request} (h : r.isDrain = true) :
    r.isTending = true := by
  cases r <;> first | rfl | cases h

/-- Whether a request starts a process. -/
def Request.isSpawn : Request → Bool
  | .spawn .. => true
  | _ => false

/-- Whether a request starts a process or a relay. -/
def Request.isStart : Request → Bool
  | .spawn .. | .startRelay .. => true
  | _ => false

theorem Trace.spawns_of_no_spawn {es : Trace} (h : es.Only fun r => !r.isSpawn) :
    es.spawns = [] := by
  refine List.filterMap_eq_nil_iff.2 fun e he => ?_
  have hr := h e he
  obtain ⟨r, o⟩ := e
  cases r <;> first | rfl | cases hr

theorem Trace.spawns_of_only_isTending {es : Trace} (h : es.Only Request.isTending) :
    es.spawns = [] :=
  Trace.spawns_of_no_spawn (h.mono fun r hr => by cases r <;> first | rfl | cases hr)

/-- The reading of the end of a process's output. -/
def Event.endOf (pid : ProcessId) : Event := ⟨.readOutput pid, .returned []⟩

namespace Shell

/-! ### Draining -/

theorem drainTo_performs (pid : ProcessId) {put : Text.Bytes → Shell (σ × Trace) Unit}
    (hput : ∀ line, Performs k Request.isDrain (put line) s fun _ _ => True) (rounds : Nat) :
    Performs k Request.isDrain (drainTo pid put rounds) s fun _ es => Event.endOf pid ∈ es := by
  induction rounds with
  | zero => exact .never
  | succ rounds ih =>
    refine .ask_bind rfl fun bytes => ?_
    cases bytes with
    | nil => exact .pure (.head _)
    | cons b bytes =>
      refine (hput _).bind fun _ es _ => ih.weaken fun _ es' h => ?_
      exact .tail _ (List.mem_append_right es h)

/-- **Draining to the end.** A drain that returns has read the end of the output, and a fault that
it raises comes from a request of its own. -/
theorem drain_performs (pid : ProcessId) (sink : Option FileId) :
    Performs k Request.isDrain (drain pid sink) s fun _ es => Event.endOf pid ∈ es := by
  refine Ensures.bound_bind (f := fun rounds => _) ?_
  cases sink with
  | some file =>
    refine (drainTo_performs pid (fun _ => .ask rfl fun _ => trivial) _).bind fun _ es h => ?_
    exact .ask rfl fun _ => List.mem_append_left _ h
  | none =>
    refine Performs.ask_bind rfl fun takesBytes => ?_
    cases takesBytes with
    | true =>
      refine Performs.ask_bind rfl fun _ => ?_
      refine (drainTo_performs pid (fun _ => .ask rfl fun _ => trivial) _).bind fun _ es h => ?_
      exact .ask rfl fun _ => .tail _ (.tail _ (List.mem_append_left _ h))
    | false =>
      refine (drainTo_performs pid (fun _ => .ask rfl fun _ => trivial) _).bind fun _ es h => ?_
      exact .ask rfl fun _ => .tail _ (List.mem_append_left _ h)

/-! ### Waiting -/

/-- The process of the last stage, if it was started. -/
def lastPid (stages : List Stage) : Option ProcessId := stages.getLast?.bind Stage.pid

theorem pidsOf_eq (stages : List Stage) :
    pidsOf stages = pidsOf stages.dropLast ++ (lastPid stages).toList := by
  rcases List.eq_nil_or_concat stages with rfl | ⟨others, last, rfl⟩
  · rfl
  · obtain ⟨command, pid⟩ := last
    cases pid <;> simp [pidsOf, lastPid]

variable {sink : Option FileId} {stages : List Stage} {relays : List RelayId}

theorem drainLast_performs (last : Option ProcessId) :
    Performs k Request.isTending (drainLast sink last) s fun _ es =>
      ∀ pid, last = some pid → pid ∈ es.exits := by
  cases last with
  | none => exact .pure (by simp)
  | some pid =>
    refine ((drain_performs pid sink).mono (fun _ => Request.isTending_of_isDrain)
      fun _ _ _ h => h).bind fun _ es _ => ?_
    refine .ask_bind rfl fun _ => .ask rfl fun code => ?_
    rintro _ ⟨⟩
    rw [Trace.exits_append]
    exact List.mem_append_right _ (List.mem_singleton_self pid)

theorem wait_performs (pid : ProcessId) :
    Performs k Request.isTending (wait pid) s fun _ es => pid ∈ es.exits :=
  .ask rfl fun _ => List.mem_singleton_self pid

/-- Waiting for processes that returns has seen all of them exit. -/
theorem waitAll_performs (pids : List ProcessId) :
    Performs k Request.isTending (pids.forM fun pid => do let _ ← wait pid) s fun _ es =>
      ∀ pid ∈ pids, pid ∈ es.exits := by
  refine .forM (Q := fun pids es => ∀ pid ∈ pids, pid ∈ es.exits) (by simp) fun pid pids => ?_
  refine .ask_bind rfl fun code => .pure fun es h p hp => ?_
  rcases List.mem_cons.1 hp with rfl | hp
  · exact .head _
  · exact .tail _ (h p hp)

theorem awaitOthers_performs : Performs k Request.isTending (awaitOthers stages relays) s
    fun _ es => ∀ pid ∈ pidsOf stages.dropLast, pid ∈ es.exits := by
  refine Performs.bind (R := fun _ _ => True) (.forM (Q := fun _ _ => True) trivial
    fun _ _ => .ask rfl fun _ _ _ => trivial) fun _ es _ => ?_
  refine (waitAll_performs _).weaken fun _ es' h pid hpid => ?_
  rw [Trace.exits_append]
  exact List.mem_append_right _ (h pid hpid)

/-- **Collecting a pipeline.** Without a fault all its processes have been seen to exit; a fault
that stood in the way is one that a request has met. -/
theorem collect_performs : Performs k Request.isTending (collect sink stages relays) s fun c es =>
    (c.fault = none → ∀ pid ∈ pidsOf stages, pid ∈ es.exits) ∧
      ∀ f, c.fault = some f → ∃ e ∈ es, e.fault? = some f := by
  -- the last process is drained and waited for, and then the others are
  refine Performs.attempt_bind (drainLast_performs _) ?_ ?_
  · rintro code es hlast
    refine Performs.attempt_bind awaitOthers_performs ?_ ?_
    · rintro _ es' hothers
      refine .pure ⟨fun _ pid hpid => ?_, by simp⟩
      rw [pidsOf_eq, List.mem_append, Option.mem_toList] at hpid
      rw [List.append_nil, Trace.exits_append, List.mem_append]
      exact hpid.elim (fun h => .inr (hothers pid h)) fun h => .inl (hlast pid h)
    · rintro f es' - ⟨e, he, hf⟩
      refine .pure ⟨rfl, Trace.only_nil _, by simp, ?_⟩
      rintro _ ⟨⟩
      exact ⟨e, by simp [he], hf⟩
  · rintro f es - ⟨e, he, hf⟩
    refine .pure ⟨rfl, Trace.only_nil _, by simp, ?_⟩
    rintro _ ⟨⟩
    exact ⟨e, by simp [he], hf⟩

/-! ### What is left to be said -/

/-- How a line has failed when its files are closed. -/
def Ending.failure : Ending → Option Failure
  | .done r => r.failure
  | .exited r _ _ => r.failure

/-- The faults of relays do not make a line an interrupted one, nor undo that it is. -/
theorem reportRelays_performs (r : Result) (relays : List RelayId) :
    Performs k Request.isAside (reportRelays r relays) s fun r' _ =>
      r'.failure = some .interrupted ↔ r.failure = some .interrupted := by
  induction relays generalizing r with
  | nil => exact .pure Iff.rfl
  | cons relay relays ih =>
    refine .ask_bind rfl fun fault => ?_
    cases fault with
    | none => exact ih r
    | some f =>
      refine .ask_bind rfl fun _ => (ih _).weaken fun r' _ h => h.trans ?_
      cases r.failure <;> simp

theorem reportExit_asks_of {p : Request → Bool} (hp : ∀ text, p (.report text) = true)
    (r : Result) (lastStarted : Bool) : Asks k p (reportExit r lastStarted) := by
  cases hcode : r.exitCode with
  | none => simpa only [reportExit, hcode] using Asks.pure ()
  | some code =>
    simp only [reportExit, hcode]
    split
    · exact .ask (hp _)
    · exact .pure ()

theorem reportExit_asks (r : Result) (lastStarted : Bool) :
    Asks k Request.isAside (reportExit r lastStarted) :=
  reportExit_asks_of (fun _ => rfl) r lastStarted

theorem refuse_ensures (f : Fault) : Ensures k (refuse f) s fun o s' es =>
    s' = s ∧ es.Aside ∧ ∀ ending, o = .returned ending → ending.failure = some .io := by
  rw [refuse]
  split
  · refine .ask_bind (fun _ => .pure ⟨rfl, by simp [Request.isAside], ?_⟩)
      (fun _ => ⟨rfl, by simp [Request.isAside], fun _ => nofun⟩)
      ⟨rfl, by simp [Request.isAside], fun _ => nofun⟩
    rintro _ ⟨⟩
    rfl
  · exact .raise ⟨rfl, Trace.only_nil _, fun _ => nofun⟩

/-! ### The parts of a run -/

/-- What is done of a line between the opening of its files and their closing. -/
def runOpened (line : CommandLine) (plans : List Plan) : Option Fault → Shell σ Ending
  | none => runStages line plans
  | some f => refuse f

/-- What is said of a line after its files have been closed. -/
def conclude : Ending → Shell σ Result
  | .done result => return result
  | .exited result relays lastStarted => do
    let result ← reportRelays result relays
    reportExit result lastStarted
    return result

/-- Opening the files comes first, and closing them last. -/
theorem runPipeline_eq (line : CommandLine) : (runPipeline line : Shell σ Result) =
    (do
      let r ← openStages (line.commands.zip line.wirings)
      let ending ← closing (idsOf r.1) (runOpened line r.1 r.2)
      conclude ending) := by
  unfold runPipeline runOpened conclude
  rfl

end Shell

end LineShell
