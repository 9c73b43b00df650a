import LineShell.Proofs.FileLifetimes
import LineShell.Proofs.Foreground
import LineShell.Proofs.HeldRuns
import LineShell.Proofs.PipelineResult
import LineShell.Proofs.Redirections

namespace LineShell

/-!
# What a line asks for once its files are open

The requests of lines that are run to their end, from the opening of their files on.

* `closing_closes` — after a run just its files have been closed, each of them;
* `Shell.Carried`, `pipeline_carries` — a pipeline: its stages are started, and then it is tended to;
* `awaitSingle_awaits` — a single command: its process is waited for.
-/

variable {σ α : Type} {k : Kernel σ} {s : Session}

/-- Whether a request neither starts a process nor writes the history. -/
def Request.isTame : Request → Bool
  | .spawn .. | .writeHistory _ => false
  | _ => true

namespace Request

theorem isTame_of_isSettling {r : Request} (h : r.isSettling = true) : r.isTame = true := by
  cases r <;> first | rfl | cases h

theorem isTame_of_isSaying {r : Request} (h : r.isSaying = true) : r.isTame = true := by
  cases r <;> first | rfl | cases h

theorem isTame_of_isClose {r : Request} (h : r.isClose = true) : r.isTame = true := by
  cases r <;> first | rfl | cases h

theorem closes_of_isStarting {r : Request} (h : r.isStarting = true) (id : FileId) :
    r.closes id = false := by
  cases r <;> first | rfl | cases h

end Request

namespace Shell

/-! ### Closing files -/

theorem any_closes_of_mem {es : Trace} {id : FileId} (h : id ∈ es.closedFiles) :
    es.any (·.request.closes id) = true := by
  obtain ⟨e, he, hclosed⟩ := List.mem_filterMap.1 h
  refine List.any_eq_true.2 ⟨e, he, ?_⟩
  obtain ⟨r, o⟩ := e
  cases r <;> cases hclosed
  exact beq_self_eq_true id

/-- Of files that are closed each one is. -/
theorem closeAll_closes (ids : List FileId) : Ensures k (closeAll ids) s fun o _ es =>
    ∀ a, o = .returned a → ∀ id ∈ ids, es.any (·.request.closes id) = true := by
  refine (closeAll_closedFiles ids).mono fun o s' es hids a ho id hid => any_closes_of_mem ?_
  rw [hids (by simp [ho])]
  exact hid

/-- When a run has returned after which files are closed, each of them has been. -/
theorem closing_closes {x : Shell (σ × Trace) α} {Q : Post α} (hx : Ensures k x s Q)
    (ids : List FileId) : Ensures k (closing ids x) s fun o _ es =>
      ∀ a, o = .returned a → ∀ id ∈ ids, es.any (·.request.closes id) = true := by
  refine (closing_leaves hx ids).mono fun o s' es hleaves a ho id hid => ?_
  obtain ⟨-, es₁, es₂, rfl, -, -, hids, -⟩ := hleaves (by simp [ho])
  have hmem : id ∈ es₂.closedFiles := by
    rw [hids]
    exact hid
  rw [List.any_append, any_closes_of_mem hmem, Bool.or_true]

/-! ### Pipelines -/

variable {line : CommandLine} {plans : List Plan}

/-- The requests of a foreground pipeline once its files are open. Its stages are started, and what the
last one writes is handed on. All its files are closed. -/
structure Carried (s : Session) (plans : List Plan) (stages : List Stage) (relays : List RelayId)
    (loop rest : Trace) : Prop where
  starting : loop.Only Request.isStarting
  launched : Launched true s.settings.relayChunk s .none plans stages relays loop
  tame : rest.Only Request.isTame
  gathered : TakesBytes (plans.getLast?.bind (·.files.output)) rest →
    Gathered (lastPid stages) (plans.getLast?.bind (·.files.output)) rest
  closed : ∀ id ∈ idsOf plans, rest.any (·.request.closes id) = true

/-- A trace falls into the parts that that of a foreground pipeline has. -/
def CarriedOut (s : Session) (plans : List Plan) (es : Trace) : Prop :=
  ∃ stages relays loop rest, es = loop ++ rest ∧ Carried s plans stages relays loop rest

/-- Where tending to a pipeline meets no fault, it ends well. -/
theorem awaitPipeline_fair {sink : Option FileId} {stages : List Stage} {relays : List RelayId}
    {result : Result} (hfair : result.Fair) :
    Ensures k (awaitPipeline sink stages relays result) s fun o _ es => ∀ ending, o = .returned ending →
      es.Only Request.isSettling ∧ (es.Calm → ending.result.Fair) := by
  refine (awaitPipeline_resolves result).mono fun o s' es hresolves ending ho => ?_
  have h := hresolves ending ho
  refine ⟨h.settling, fun hcalm => ?_⟩
  rw [h.result, Trace.trouble_of_calm hcalm]
  exact hfair

/-- **A foreground pipeline**, from the opening of its files on. -/
theorem pipeline_carries (hfg : line.background = false) :
    Ensures k (closing (idsOf plans) (runStages line plans) >>= conclude) s fun o _ es =>
      ∀ r, o = .returned r → es.Calm → CarriedOut s plans es := by
  have hbody : Ensures k (runStages line plans) s fun o _ es => ∀ ending, o = .returned ending →
      ∃ stages relays loop rest, es = loop ++ rest ∧ loop.Only Request.isStarting ∧
        Launched true s.settings.relayChunk s .none plans stages relays loop ∧
        rest.Only Request.isSettling ∧ (es.Calm → TakesBytes (plans.getLast?.bind (·.files.output)) rest →
          Gathered (lastPid stages) (plans.getLast?.bind (·.files.output)) rest) := by
    rw [runStages_eq]
    refine .session_bind (Ensures.bind ((launch_asks_of (p := Request.isStarting) (fun _ h => h)
      _ _ _ plans s).and launch_performs) ?_ (fun _ _ _ _ _ h => by cases h) fun _ _ _ _ h => by cases h)
    rintro ⟨stages, relays⟩ s' loop ⟨⟨rfl, hstarting⟩, -, -, hlaunched⟩
    have hblocks : line.blocks = true := by simp [CommandLine.blocks, hfg]
    rw [hblocks] at hlaunched
    simp only [settle, hblocks, if_true]
    have hfair : ({ pids := pidsOf stages, background := line.background
                    failure := if stages.any (·.pid.isNone) then some .spawn else none } : Result).Fair := by
      unfold Result.Fair
      split <;> simp
    refine ((awaitPipeline_fair hfair).and (awaitPipeline_gathers _)).mono ?_
    rintro o s'' rest ⟨hsettles, hgathers⟩ ending ho
    obtain ⟨hsettling, hfair⟩ := hsettles ending ho
    refine ⟨stages, relays, loop, rest, rfl, hstarting, hlaunched, hsettling, fun hcalm => ?_⟩
    exact hgathers ending ho (hfair (Trace.calm_append.1 hcalm).2)
  -- closing the files, and what is said at the end, come behind
  refine ((Ensures.closing (idsOf plans) hbody).and (closing_closes hbody (idsOf plans))).bind ?_
    (fun _ _ _ _ _ h => by cases h) fun _ _ _ _ h => by cases h
  rintro ending s' _ ⟨⟨o, es, closed, rfl, hes, hclosed, hafter⟩, hcloses⟩
  obtain ⟨stages, relays, loop, rest, rfl, hstarting, hlaunched, hsettling, hgathered⟩ :=
    hes ending (hafter.returned rfl)
  refine (conclude_asks ending s').mono ?_
  rintro o' s'' said ⟨-, hsaid⟩ r - hcalm
  refine ⟨stages, relays, loop, rest ++ (closed ++ said), by simp only [List.append_assoc], hstarting,
    hlaunched, ?_, fun hbytes => ?_, fun id hid => ?_⟩
  · refine Trace.only_append.2 ⟨hsettling.mono fun _ => Request.isTame_of_isSettling,
      Trace.only_append.2 ⟨hclosed.mono fun _ => Request.isTame_of_isClose,
        hsaid.mono fun _ => Request.isTame_of_isSaying⟩⟩
  · have hidle : Trace.Only Request.isIdle (closed ++ said) := Trace.only_append.2
      ⟨hclosed.mono fun r hr => Request.isIdle_of_isAside (Request.isAside_of_isClose hr),
        hsaid.mono fun r hr => by cases r <;> first | rfl | cases hr⟩
    refine (hgathered (Trace.calm_append.1 (Trace.calm_append.1 hcalm).1).1 fun hnone hmem => ?_).append
      hidle
    exact hbytes hnone (List.mem_append_left _ hmem)
  · -- starting the stages closes nothing
    have hclosing := hcloses ending rfl id hid
    have hloop : loop.any (·.request.closes id) = false := by
      refine List.any_eq_false.2 fun e he => ?_
      rw [Request.closes_of_isStarting (hstarting e he)]
      exact Bool.false_ne_true
    simp only [List.any_append, hloop, Bool.false_or] at hclosing ⊢
    rw [← Bool.or_assoc, hclosing, Bool.true_or]

/-! ### Single commands -/

/-- **A single command** whose process is waited for without a fault. -/
theorem awaitSingle_awaits (command : Command) (pid : ProcessId) :
    Ensures k (awaitSingle command pid) s fun o _ es => ∀ r, o = .returned r → es.Calm →
      ∃ code, ∃ said : Trace, es = ⟨.wait pid, .returned code⟩ :: said ∧ said.Only Request.isSaying := by
  refine Ensures.attempt_bind (.ask (Q := fun o s' es => es = [⟨.wait pid, o⟩]) fun o => rfl)
    ?_ ?_ fun _ _ _ _ => nofun
  · rintro code s' _ rfl
    have hrest : Asks k Request.isSaying
        (if code != 0 then report ("process exited with code " ++ toString code) >>= fun _ =>
          pure ({ exitCode := some code, pids := [pid] } : Result)
        else pure { exitCode := some code, pids := [pid] }) := by
      split
      · exact (Asks.ask rfl).bind fun _ => .pure _
      · exact .pure _
    exact (hrest s').mono fun o s'' said h r _ _ => ⟨code, said, rfl, h.2⟩
  · rintro f s' _ rfl
    have hcalm : ∀ {es : Trace}, ¬ Trace.Calm ([⟨.wait pid, .raised f⟩] ++ es) := by
      intro es hcalm
      have hnone := hcalm ⟨.wait pid, .raised f⟩ (.head _) rfl
      cases hnone
    have hany : ∀ {x : Shell (σ × Trace) Result} {Q : Post Result}, Ensures k x s' Q →
        Ensures k x s' fun o _ es => ∀ r, o = .returned r →
          Trace.Calm ([⟨.wait pid, .raised f⟩] ++ es) → ∃ code, ∃ said : Trace,
            [⟨.wait pid, .raised f⟩] ++ es = ⟨.wait pid, .returned code⟩ :: said ∧
              said.Only Request.isSaying :=
      fun hx => hx.mono fun _ _ _ _ _ _ h => absurd h hcalm
    cases f with
    | interrupt =>
      refine hany ((leaveInterrupted_after _ _).bind (R := fun _ _ _ => True) (fun _ _ _ _ => .pure trivial)
        (fun _ _ _ _ => trivial) fun _ _ _ => trivial)
    | _ => exact hany (.raise (Q := fun _ _ _ => True) trivial)

end Shell

end LineShell
