import LineShell.Host.Answer
import LineShell.Host.Scripted
import LineShell.Proofs.Detach
import LineShell.Proofs.Orderly
import LineShell.Shell.Execute
import Mathlib.Logic.Basic

namespace LineShell

/-!
# No process is lost

Each process that a line starts has been seen to exit when the line returns, or else is a job.

* `Settled` — what has become of the processes of a line by the time it returns;
* `Course` — a trace that starts processes first, and then settles all of them;
* `execute_course` — that running a line has such a trace;
* `Custody`, `execute_keeps_custody` — what follows for processes and jobs.
-/

variable {σ : Type} {k : Kernel σ} {s : Session}

namespace Shell

/-- The jobs of a background line, by what the attempts to start its stages have brought. Only the
end of the last one is announced. -/
def backgroundJobs (line : CommandLine) (spawns : List (Option ProcessId)) : List Job :=
  (spawns.dropLast.filterMap id).map (⟨·, line.text, true⟩) ++
    (spawns.getLast?.bind id).toList.map (⟨·, line.text, false⟩)

/-- What has become of the processes of a line: all have been seen to exit, or after an interrupt
those that still ran were left to the registry, or all belong to a background line. -/
inductive Settled (line : CommandLine) (spawns : List (Option ProcessId)) (jobs : Jobs) :
    Jobs → Option Failure → Trace → Prop
  | seen {failure : Option Failure} {es : Trace} : line.background = false →
    failure ≠ some .interrupted → (∀ pid ∈ spawns.filterMap id, pid ∈ es.exits) →
    Settled line spawns jobs jobs failure es
  | left {stages : List Stage} {jobs' : Jobs} {es es' es'' : Trace} : line.background = false →
    stages.map Stage.pid = spawns → (∃ e ∈ es, e.fault? = some .interrupt) →
    Detached stages jobs jobs' es' → es''.Aside →
    Settled line spawns jobs jobs' (some .interrupted) (es ++ es' ++ es'')
  | background {failure : Option Failure} {es : Trace} : line.background = true →
    failure ≠ some .interrupted → es.exits = [] →
    Settled line spawns jobs ((backgroundJobs line spawns).foldl .register jobs) failure es

variable {line : CommandLine} {spawns : List (Option ProcessId)} {jobs jobs' : Jobs}
  {failure : Option Failure} {es : Trace}

theorem Settled.append {es' : Trace} (h : Settled line spawns jobs jobs' failure es)
    (haside : es'.Aside) : Settled line spawns jobs jobs' failure (es ++ es') := by
  cases h with
  | seen hfg hf hexits =>
    refine .seen hfg hf fun pid hpid => ?_
    rw [Trace.exits_append]
    exact List.mem_append_left _ (hexits pid hpid)
  | left hfg hstages hint hd haside' =>
    rw [List.append_assoc]
    exact .left hfg hstages hint hd (Trace.only_append.2 ⟨haside', haside⟩)
  | background hbg hf hexits =>
    refine .background hbg hf ?_
    rw [Trace.exits_append, hexits, Trace.exits_of_aside haside, List.append_nil]

theorem Settled.congr {failure' : Option Failure} (h : Settled line spawns jobs jobs' failure es)
    (hf : failure' = some .interrupted ↔ failure = some .interrupted) :
    Settled line spawns jobs jobs' failure' es := by
  cases h with
  | seen hfg hf' hexits => exact .seen hfg (fun h => hf' (hf.1 h)) hexits
  | left hfg hstages hint hd haside =>
    rw [hf.2 rfl]
    exact .left hfg hstages hint hd haside
  | background hbg hf' hexits => exact .background hbg (fun h => hf' (hf.1 h)) hexits

/-- A trace that starts the processes of a line first, and then settles all of them. -/
def Course (line : CommandLine) (jobs jobs' : Jobs) (failure : Option Failure) (es : Trace) :
    Prop :=
  ∃ start rest : Trace, es = start ++ rest ∧ start.exits = [] ∧ rest.spawns = [] ∧
    (start.spawns = [] ∨ start.spawns.length = line.commands.length) ∧
      Settled line start.spawns jobs jobs' failure rest

theorem Course.append {es' : Trace} (h : Course line jobs jobs' failure es) (haside : es'.Aside) :
    Course line jobs jobs' failure (es ++ es') := by
  obtain ⟨start, rest, rfl, hx, hs, hlen, h⟩ := h
  refine ⟨start, rest ++ es', by rw [List.append_assoc], hx, ?_, hlen, h.append haside⟩
  rw [Trace.spawns_append, hs, Trace.spawns_of_aside haside, List.append_nil]

theorem Course.prepend {es' : Trace} (h : Course line jobs jobs' failure es) (haside : es'.Aside) :
    Course line jobs jobs' failure (es' ++ es) := by
  obtain ⟨start, rest, rfl, hx, hs, hlen, h⟩ := h
  have hspawns : Trace.spawns (es' ++ start) = start.spawns := by
    rw [Trace.spawns_append, Trace.spawns_of_aside haside, List.nil_append]
  refine ⟨es' ++ start, rest, by rw [List.append_assoc], ?_, hs, ?_, ?_⟩
  · rw [Trace.exits_append, Trace.exits_of_aside haside, hx, List.nil_append]
  · rw [hspawns]
    exact hlen
  · rw [hspawns]
    exact h

/-- A line that starts nothing has nothing to settle. -/
theorem Course.of_aside (hf : failure ≠ some .interrupted) (haside : es.Aside) :
    Course line jobs jobs failure es := by
  refine ⟨es, [], by rw [List.append_nil], Trace.exits_of_aside haside, rfl,
    .inl (Trace.spawns_of_aside haside), ?_⟩
  rw [Trace.spawns_of_aside haside]
  cases hbg : line.background with
  | false => exact .seen hbg hf (by simp)
  | true => exact .background hbg hf rfl

/-! ### Background lines -/

theorem registerAll_ensures (pids : List ProcessId) (text : String) (quiet announce : Bool) :
    Ensures k (pids.forM fun pid => register ⟨pid, text, quiet⟩ announce) s fun o s' es =>
      es.Aside ∧ (o = .returned () →
        s'.jobs = (pids.map (⟨·, text, quiet⟩)).foldl Jobs.register s.jobs) := by
  induction pids generalizing s with
  | nil => exact .pure ⟨Trace.only_nil _, fun _ => rfl⟩
  | cons pid pids ih =>
    refine (register_ensures _ _).bind ?_ ?_ ?_
    · rintro _ s' es ⟨rfl, hes⟩
      exact ih.mono fun o s'' es' h => ⟨Trace.only_append.2 ⟨hes, h.1⟩, h.2⟩
    · rintro f s' es ⟨-, hes⟩
      exact ⟨hes, nofun⟩
    · rintro s' es ⟨-, hes⟩
      exact ⟨hes, nofun⟩

theorem leaveInBackground_ensures (stages : List Stage) :
    Ensures k (leaveInBackground line stages) s fun o s' es => es.Aside ∧ (o = .returned () →
      s'.jobs = (backgroundJobs line (stages.map Stage.pid)).foldl Jobs.register s.jobs) := by
  have hothers : (stages.map Stage.pid).dropLast.filterMap id = pidsOf stages.dropLast := by
    rw [← List.map_dropLast, List.filterMap_map]
    rfl
  have hlast : (stages.map Stage.pid).getLast?.bind id = stages.getLast?.bind Stage.pid := by
    rw [List.getLast?_map]
    cases stages.getLast? <;> rfl
  rw [backgroundJobs, hothers, hlast, List.foldl_append]
  refine (registerAll_ensures _ _ _ _).bind ?_ ?_ ?_
  · rintro _ s' es ⟨hes, hjobs⟩
    rw [← hjobs rfl]
    cases stages.getLast?.bind Stage.pid with
    | none => exact .pure ⟨by rw [List.append_nil]; exact hes, fun _ => rfl⟩
    | some pid =>
      refine (register_ensures _ _).mono ?_
      rintro o s'' es' ⟨rfl, hes'⟩
      exact ⟨Trace.only_append.2 ⟨hes, hes'⟩, fun _ => rfl⟩
  · rintro f s' es ⟨hes, -⟩
    exact ⟨hes, nofun⟩
  · rintro s' es ⟨hes, -⟩
    exact ⟨hes, nofun⟩

/-! ### Foreground lines -/

theorem leaveInterrupted_ensures (text : String) (stages : List Stage) :
    Ensures k (leaveInterrupted text stages) s fun o s' es => ∀ a, o = .returned a →
      ∃ es₁ es₂ : Trace, es = es₁ ++ es₂ ∧ es₁.Aside ∧ Detached stages s.jobs s'.jobs es₂ := by
  refine .modifySession_bind (.ask_bind (fun _ => ?_) (fun _ _ => nofun) fun _ => nofun)
  refine (detach_ensures stages).mono fun o s' es h a ha => ?_
  exact ⟨[⟨.report text, .returned ()⟩], es, rfl, by simp [Request.isAside], h a ha⟩

/-- After an interrupt the processes that still run are left to the registry. -/
theorem settled_of_interrupt {α : Type} (hfg : line.background = false) {stages : List Stage}
    {text : String} (hspawns : es.spawns = []) (hint : ∃ e ∈ es, e.fault? = some .interrupt)
    (a : α) : Ensures k (leaveInterrupted text stages >>= fun _ => pure a) s fun o s' es' =>
      ∀ b, o = .returned b → b = a ∧ (es ++ es').spawns = [] ∧
        Settled line (stages.map Stage.pid) s.jobs s'.jobs (some .interrupted) (es ++ es') := by
  refine (leaveInterrupted_ensures _ _).bind ?_ (fun _ _ _ _ _ => nofun) fun _ _ _ _ => nofun
  rintro _ s' es' h
  obtain ⟨es₁, es₂, rfl, haside, hd⟩ := h () rfl
  obtain ⟨e, he, hf⟩ := hint
  refine .pure ?_
  rintro _ ⟨⟩
  rw [List.append_nil, ← List.append_assoc, Trace.spawns_append, Trace.spawns_append, hspawns,
    Trace.spawns_of_aside haside, hd.spawns]
  have hleft := Settled.left hfg rfl ⟨e, List.mem_append_left es₁ he, hf⟩ hd (Trace.only_nil _)
  rw [List.append_nil] at hleft
  exact ⟨rfl, rfl, hleft⟩

theorem awaitSingle_ensures (hfg : line.background = false) (command : Command)
    (pid : ProcessId) : Ensures k (awaitSingle command pid) s fun o s' es =>
      ∀ r, o = .returned r → es.spawns = [] ∧
        Settled line [some pid] s.jobs s'.jobs r.failure es := by
  refine Ensures.attempt_bind (wait_performs pid) ?_ ?_ fun _ _ _ _ => nofun
  · rintro code s' es ⟨rfl, htend, hexited⟩
    have hseen : ∀ q ∈ [some pid].filterMap id, q ∈ es.exits := by
      intro q hq
      obtain rfl : q = pid := List.mem_singleton.1 hq
      exact hexited
    have hspawns := Trace.spawns_of_only_isTending htend
    show Ensures k (if code != 0 then (report _ >>= fun _ => pure _) else pure _) _ _
    split
    · refine Ensures.bind (Asks.ask (p := Request.isAside) rfl s') ?_ (fun _ _ _ _ _ => nofun)
        fun _ _ _ _ => nofun
      rintro _ s'' es' ⟨rfl, haside⟩
      refine .pure ?_
      rintro _ ⟨⟩
      rw [List.append_nil, Trace.spawns_append, hspawns, Trace.spawns_of_aside haside]
      exact ⟨rfl, (Settled.seen hfg (by simp) hseen).append haside⟩
    · refine .pure ?_
      rintro _ ⟨⟩
      rw [List.append_nil]
      exact ⟨hspawns, .seen hfg (by simp) hseen⟩
  · rintro f s' es ⟨rfl, htend, hmet⟩
    have hspawns := Trace.spawns_of_only_isTending htend
    cases f with
    | interrupt =>
      refine (settled_of_interrupt hfg hspawns hmet _).mono fun o s'' es' h r hr => ?_
      obtain ⟨rfl, h⟩ := h r hr
      exact h
    | _ => exact .raise fun _ => nofun

/-- Whatever has met a fault of input or output, all processes are waited for after it. -/
theorem recover_ensures (hfg : line.background = false) {stages : List Stage} {text : String}
    (hspawns : es.spawns = []) {r : Result} (hr : r.failure ≠ some .interrupted) :
    Ensures k (report text >>= fun _ =>
      ((pidsOf stages).forM fun pid => do let _ ← wait pid) >>= fun _ =>
        pure (Ending.done r)) s fun o s' es' => ∀ ending, o = .returned ending →
      (es ++ es').spawns = [] ∧
        Settled line (stages.map Stage.pid) s.jobs s'.jobs ending.failure (es ++ es') := by
  refine Ensures.bind (Asks.ask (p := Request.isAside) rfl s) ?_ (fun _ _ _ _ _ => nofun)
    fun _ _ _ _ => nofun
  rintro _ s' es₁ ⟨rfl, haside⟩
  refine Ensures.bind (waitAll_performs _) ?_ (fun _ _ _ _ _ => nofun) fun _ _ _ _ => nofun
  rintro _ s' es₂ ⟨rfl, htend, hseen⟩
  refine .pure ?_
  rintro _ ⟨⟩
  rw [List.append_nil, Trace.spawns_append, Trace.spawns_append, hspawns,
    Trace.spawns_of_aside haside, Trace.spawns_of_only_isTending htend]
  refine ⟨rfl, .seen hfg hr fun pid hpid => ?_⟩
  rw [List.filterMap_map] at hpid
  rw [Trace.exits_append, Trace.exits_append]
  exact List.mem_append_right _ (List.mem_append_right _ (hseen pid hpid))

theorem awaitPipeline_ensures (hfg : line.background = false) {sink : Option FileId}
    {stages : List Stage} {relays : List RelayId} {result : Result}
    (hfailure : result.failure ≠ some .interrupted) :
    Ensures k (awaitPipeline sink stages relays result) s fun o s' es =>
      ∀ ending, o = .returned ending → es.spawns = [] ∧
        Settled line (stages.map Stage.pid) s.jobs s'.jobs ending.failure es := by
  refine Ensures.bind collect_performs ?_ (fun _ _ _ _ _ => nofun) fun _ _ _ _ => nofun
  rintro ⟨code, fault⟩ s' es ⟨rfl, htend, hseen, hmet⟩
  have hspawns := Trace.spawns_of_only_isTending htend
  cases fault with
  | none =>
    refine .pure ?_
    rintro _ ⟨⟩
    rw [List.append_nil]
    refine ⟨hspawns, .seen hfg hfailure fun pid hpid => hseen rfl pid ?_⟩
    rwa [List.filterMap_map] at hpid
  | some f =>
    cases f with
    | interrupt =>
      refine (settled_of_interrupt hfg hspawns (hmet _ rfl) _).mono fun o s'' es' h ending ho => ?_
      obtain ⟨rfl, h⟩ := h ending ho
      exact h
    | system | described | brokenPipe | cannotOpen =>
      exact recover_ensures hfg hspawns (by simp)
    | invalid | wrongKind | outOfRange | linkLoop => exact .raise fun _ => nofun

/-! ### Whole lines -/

theorem runStages_ensures {plans : List Plan} (hlen : plans.length = line.commands.length) :
    Ensures k (runStages line plans) s fun o s' es =>
      ∀ ending, o = .returned ending → Course line s.jobs s'.jobs ending.failure es := by
  refine .session_bind (Ensures.bind launch_performs ?_ (fun _ _ _ _ _ => nofun)
    fun _ _ _ _ => nofun)
  rintro ⟨stages, relays⟩ s' start ⟨rfl, hlaunch, hlaunched⟩
  have hspawns : start.spawns = stages.map Stage.pid := hlaunched.spawns
  have hlength : start.spawns.length = line.commands.length := by
    rw [hspawns, List.length_map]
    exact hlaunched.length_eq.trans hlen
  have hcourse : ∀ {jobs failure rest}, Trace.spawns rest = [] →
      Settled line (stages.map Stage.pid) s'.jobs jobs failure rest →
        Course line s'.jobs jobs failure (start ++ rest) := by
    intro jobs failure rest hrest h
    rw [← hspawns] at h
    exact ⟨start, rest, rfl, Trace.exits_of_only_isLaunch hlaunch, hrest, .inr hlength, h⟩
  have hfailure : (if stages.any (·.pid.isNone) then some Failure.spawn else none) ≠
      some .interrupted := by split <;> simp
  cases hbg : line.background with
  | false =>
    simp only [CommandLine.blocks, hbg, Bool.not_false, if_true]
    refine (awaitPipeline_ensures hbg hfailure).mono fun o s'' es h ending ho => ?_
    obtain ⟨hs, hsettled⟩ := h ending ho
    exact hcourse hs hsettled
  | true =>
    simp only [CommandLine.blocks, hbg, Bool.not_true, Bool.false_eq_true, if_false]
    refine (leaveInBackground_ensures stages).bind ?_ (fun _ _ _ _ _ => nofun)
      fun _ _ _ _ => nofun
    rintro _ s'' es ⟨haside, hjobs⟩
    refine .pure ?_
    rintro _ ⟨⟩
    rw [List.append_nil]
    refine hcourse (Trace.spawns_of_aside haside) ?_
    rw [hjobs rfl]
    exact .background hbg hfailure (Trace.exits_of_aside haside)

theorem runPipeline_course (line : CommandLine) :
    Ensures k (runPipeline line) s fun o s' es =>
      ∀ r, o = .returned r → Course line s.jobs s'.jobs r.failure es := by
  rw [runPipeline_eq]
  refine Ensures.bind (openStages_ensures _) ?_ (fun _ _ _ _ _ => by simp) fun _ _ _ _ => by simp
  rintro ⟨plans, fault⟩ s' es ⟨rfl, hopened, hplans⟩
  have hbody : Ensures k (runOpened line plans fault) s' fun o s'' es =>
      ∀ ending, o = .returned ending → Course line s'.jobs s''.jobs ending.failure es := by
    cases fault with
    | none =>
      refine runStages_ensures ?_
      have hlen := congrArg List.length ((hplans _ rfl).1 rfl)
      rw [List.length_map, List.length_zip, CommandLine.length_wirings, Nat.min_self] at hlen
      exact hlen
    | some f =>
      refine (refuse_ensures f).mono ?_
      rintro o s'' es ⟨rfl, haside, hio⟩ ending ho
      exact .of_aside (by simp [hio ending ho]) haside
  refine Ensures.bind (Ensures.closing _ hbody) ?_ (fun _ _ _ _ _ => by simp) fun _ _ _ _ => by simp
  rintro ending s'' _ ⟨o, es₁, es₂, rfl, hcourse, hclosed, hafter⟩
  have hc := ((hcourse ending (hafter.returned rfl)).prepend hopened).append
    (hclosed.mono fun _ => Request.isAside_of_isClose)
  rw [List.append_assoc] at hc
  cases ending with
  | done r =>
    refine .pure ?_
    rintro _ ⟨⟩
    rw [List.append_nil]
    exact hc
  | exited r relays lastStarted =>
    refine Ensures.bind (reportRelays_performs r relays) ?_ (fun _ _ _ _ _ => by simp)
      fun _ _ _ _ => by simp
    rintro r' s₁ es₃ ⟨rfl, haside, hr⟩
    refine Ensures.bind (reportExit_asks r' lastStarted _) ?_ (fun _ _ _ _ _ => by simp)
      fun _ _ _ _ => by simp
    rintro _ s₂ es₄ ⟨rfl, haside'⟩
    refine .pure ?_
    rintro _ ⟨⟩
    rw [List.append_nil, ← List.append_assoc]
    obtain ⟨start, rest, h₀, h₁, h₂, h₃, h₄⟩ := (hc.append haside).append haside'
    exact ⟨start, rest, by rw [← h₀]; simp, h₁, h₂, h₃, h₄.congr hr⟩

/-- Starting the only process of a line: a fault that is not of opening its files is one that a
request has met. -/
theorem startSingle_ensures (line : CommandLine) :
    Ensures k (startSingle line) s fun o s' es => s' = s ∧ es.exits = [] ∧
      (∀ pid, o = .returned pid → es.spawns = [pid]) ∧
      ∀ f, o = .raised f → es.Aside ∨ ∃ e ∈ es, e.fault? = some f := by
  refine Ensures.bind (openStage_ensures (line.wiring 0)) ?_ ?_ ?_
  · rintro files s' es ⟨rfl, haside, -⟩
    refine (Ensures.closing _ (start_performs line.first
      (files.streams (line.wiring 0) false false))).mono ?_
    rintro o s'' _ ⟨o₁, es₁, es₂, rfl, ⟨rfl, hlaunch, hy⟩, hclosed, hafter⟩
    have haside' := hclosed.mono fun _ => Request.isAside_of_isClose
    refine ⟨rfl, ?_, ?_, ?_⟩
    · rw [Trace.exits_append, Trace.exits_append, Trace.exits_of_aside haside,
        Trace.exits_of_only_isLaunch hlaunch, Trace.exits_of_aside haside']
      rfl
    · rintro pid rfl
      obtain rfl := hafter.returned rfl
      rw [Trace.spawns_append, Trace.spawns_append, Trace.spawns_of_aside haside,
        hy.spawns, Trace.spawns_of_aside haside']
      rfl
    · rintro f rfl
      right
      rcases hafter with ⟨rfl, -⟩ | ⟨g, hg, e, he, hf⟩ | ⟨hn, -⟩
      · obtain ⟨e, he, hf⟩ := hy
        exact ⟨e, by simp [he], hf⟩
      · cases hg
        exact ⟨e, by simp [he], hf⟩
      · cases hn
  · rintro f s' es ⟨rfl, haside, -⟩
    exact ⟨rfl, Trace.exits_of_aside haside, fun _ => nofun, fun _ _ => .inl haside⟩
  · rintro s' es ⟨rfl, haside, -⟩
    exact ⟨rfl, Trace.exits_of_aside haside, fun _ => nofun, fun _ => nofun⟩

theorem runSingle_course {line : CommandLine} (hone : line.others = []) :
    Ensures k (runSingle line) s fun o s' es => (∀ e ∈ es, ∀ f, e.fault? = some f →
      f.isCannotOpen = false) → ∀ r, o = .returned r →
        Course line s.jobs s'.jobs r.failure es := by
  have hcourse : ∀ {start rest : Trace} {pid : Option ProcessId} {jobs failure},
      start.exits = [] → start.spawns = [pid] → rest.spawns = [] →
        Settled line [pid] s.jobs jobs failure rest →
          Course line s.jobs jobs failure (start ++ rest) := by
    intro start rest pid jobs failure hx hs hrest h
    rw [← hs] at h
    refine ⟨start, rest, rfl, hx, hrest, .inr ?_, h⟩
    simp [hs, CommandLine.commands, hone]
  refine Ensures.attempt_bind (startSingle_ensures line) ?_ ?_ fun _ _ _ _ _ => by simp
  · rintro pid s' start ⟨rfl, hx, hs, -⟩
    cases pid with
    | none =>
      refine .pure ?_
      rintro - _ ⟨⟩
      refine hcourse hx (hs _ rfl) rfl ?_
      cases hbg : line.background with
      | false => exact .seen hbg (by simp) (by simp)
      | true => exact .background hbg (by simp) rfl
    | some pid =>
      show Ensures k (if line.blocks then awaitSingle line.first pid else
        (register ⟨pid, line.text, false⟩ true >>= fun _ => pure _)) _ _
      cases hbg : line.background with
      | false =>
        rw [if_pos (by rw [CommandLine.blocks, hbg]; rfl)]
        refine (awaitSingle_ensures hbg line.first pid).mono fun o s'' es h _ r hr => ?_
        obtain ⟨hrest, hsettled⟩ := h r hr
        exact hcourse hx (hs _ rfl) hrest hsettled
      | true =>
        rw [if_neg (by rw [CommandLine.blocks, hbg]; simp)]
        refine (register_ensures _ _).bind ?_ (fun _ _ _ _ _ _ => by simp) fun _ _ _ _ _ => by simp
        rintro _ s'' es ⟨rfl, haside⟩
        refine .pure ?_
        rintro - _ ⟨⟩
        rw [List.append_nil]
        exact hcourse hx (hs _ rfl) (Trace.spawns_of_aside haside)
          (.background hbg (by simp) (Trace.exits_of_aside haside))
  · rintro f s' es ⟨rfl, hx, -, hf⟩
    show Ensures k (if f.isCannotOpen then (report f.message >>= fun _ => pure _) else raise f) _ _
    split
    · rename_i hcannot
      refine Ensures.bind (Asks.ask (p := Request.isAside) rfl s') ?_
        (fun _ _ _ _ _ _ => by simp) fun _ _ _ _ _ => by simp
      rintro _ s'' es' ⟨rfl, haside⟩
      refine .pure ?_
      rintro hown _ ⟨⟩
      rw [List.append_nil] at hown ⊢
      -- only the interpreter complains of a file, and then nothing was started
      rcases hf f rfl with hes | ⟨e, he, hef⟩
      · exact .of_aside (by simp) (Trace.only_append.2 ⟨hes, haside⟩)
      · have := hown e (List.mem_append_left _ he) f hef
        rw [hcannot] at this
        cases this
    · exact .raise fun _ _ => by simp

theorem execute_course {line : CommandLine} (hcd : line.isChangeDirectory = false) :
    Ensures k (execute line) s fun o s' es => (∀ e ∈ es, ∀ f, e.fault? = some f →
      f.isCannotOpen = false) → ∀ r, o = .returned r →
        Course line s.jobs s'.jobs r.failure es := by
  rw [execute, if_neg (by rw [hcd]; simp)]
  split
  · exact (runPipeline_course line).mono fun _ _ _ h _ => h
  · rename_i hone
    refine runSingle_course ?_
    simpa [CommandLine.isPipeline] using hone

end Shell

/-! ### Processes and jobs -/

/-- How a line leaves the processes that it has started, and the jobs. -/
structure Custody (line : CommandLine) (jobs jobs' : Jobs) (failure : Option Failure)
    (es : Trace) : Prop where
  /-- A process has been seen to exit, or it is a job, and not both. -/
  either : ∀ pid ∈ es.started, Xor (pid ∈ es.exits) (jobs'.contains pid = true)
  /-- The jobs from before are where they were. -/
  kept : jobs.list <+: jobs'.list
  /-- A line that was waited for without an interrupt leaves nothing behind. -/
  foreground : line.background = false → failure ≠ some .interrupted →
    (∀ pid ∈ es.started, pid ∈ es.exits) ∧ jobs' = jobs
  /-- All processes of a background line are jobs, and the end of the last one is announced. -/
  background : line.background = true →
    jobs'.list = jobs.list ++ Shell.backgroundJobs line es.spawns ∧
      (es.spawns = [] ∨ es.spawns.length = line.commands.length)
  /-- Only an interrupt interrupts a line. -/
  interrupted : failure = some .interrupted → ∃ e ∈ es, e.fault? = some .interrupt

namespace Shell

theorem list_foldl_register {jobs : Jobs} {new : List Job} (hnodup : (new.map Job.pid).Nodup)
    (hnew : ∀ j ∈ new, jobs.contains j.pid = false) :
    (new.foldl Jobs.register jobs).list = jobs.list ++ new := by
  induction new generalizing jobs with
  | nil => simp
  | cons job new ih =>
    obtain ⟨hjob, hnodup⟩ := List.nodup_cons.1 hnodup
    rw [List.foldl_cons, ih hnodup, Jobs.list_register_of_not_contains
      (hnew job List.mem_cons_self), List.append_assoc, List.singleton_append]
    refine fun j hj => contains_register_of_ne (fun h => hjob ?_)
      (hnew j (List.mem_cons_of_mem _ hj))
    exact h ▸ List.mem_map_of_mem hj

theorem map_pid_backgroundJobs (line : CommandLine) (spawns : List (Option ProcessId)) :
    (backgroundJobs line spawns).map Job.pid = spawns.filterMap id := by
  rcases List.eq_nil_or_concat spawns with rfl | ⟨others, last, rfl⟩
  · rfl
  · cases last <;> simp [backgroundJobs, Function.comp_def]

theorem not_contains_iff {jobs : Jobs} {pid : ProcessId} :
    jobs.contains pid = false ↔ pid ∉ jobs.pids := by
  simp [Jobs.contains]

end Shell

open Shell

/-- Traces that settle what they start lose no process, in an orderly system. -/
theorem custody_of_course {line : CommandLine} {jobs jobs' : Jobs} {failure : Option Failure}
    {es : Trace} (hcourse : Course line jobs jobs' failure es) (horderly : Orderly jobs es) :
    Custody line jobs jobs' failure es := by
  obtain ⟨start, rest, rfl, hx, hs, hlen, hsettled⟩ := hcourse
  obtain ⟨hnodup, hdisjoint⟩ := Trace.nodup_started_of_fresh horderly.fresh hx
  have hspawns : Trace.spawns (start ++ rest) = start.spawns := by
    rw [Trace.spawns_append, hs, List.append_nil]
  have hstarted : Trace.started (start ++ rest) = start.started := by
    rw [Trace.started, hspawns, Trace.started]
  have hexits : Trace.exits (start ++ rest) = rest.exits := by
    rw [Trace.exits_append, hx, List.nil_append]
  have hnew : ∀ pid ∈ start.started, jobs.contains pid = false :=
    fun pid hpid => not_contains_iff.2 (hdisjoint pid hpid)
  cases hsettled with
  | seen hfg hf hseen =>
    refine ⟨?_, List.prefix_rfl, ?_, ?_, fun h => absurd h hf⟩
    · rw [hstarted, hexits]
      intro pid hpid
      exact .inl ⟨hseen pid hpid, by rw [hnew pid hpid]; simp⟩
    · rw [hstarted, hexits]
      exact fun _ _ => ⟨hseen, rfl⟩
    · simp [hfg]
  | @left stages _ es es' es'' hfg hstages hint hd haside =>
    have hpids : pidsOf stages = start.started := by
      rw [Trace.started, ← hstages, List.filterMap_map]
      rfl
    rw [← hpids] at hnodup hnew
    obtain ⟨new, hlist, -⟩ := hd.list_eq hnodup hnew
    refine ⟨?_, ⟨new, hlist.symm⟩, fun _ h => absurd rfl h, by simp [hfg], ?_⟩
    · rw [hstarted, hexits, ← hpids, Trace.exits_append, Trace.exits_append,
        Trace.exits_of_aside haside, List.append_nil]
      intro pid hpid
      rcases hd.either hnodup hnew pid hpid with ⟨hexit, hjob⟩ | ⟨hexit, hjob, pre, e, post, rfl, hr⟩
      · exact .inl ⟨List.mem_append_right _ hexit, by rw [hjob]; simp⟩
      · -- a process that was found running had not been seen to exit before either
        obtain ⟨gone, hsteady⟩ := Trace.steady_right horderly.steady
        have hsteady' : ((es ++ pre) ++ e :: (post ++ es'')).steady gone = true := by
          rw [← hsteady]
          simp
        have hnone : Trace.spawns (es ++ pre) = [] := by
          simp only [Trace.spawns_append, List.append_eq_nil_iff] at hs ⊢
          exact ⟨hs.1.1, hs.1.2.1⟩
        have hbefore := (Trace.not_mem_exits_of_steady hsteady' hnone hr).2
        rw [Trace.exits_append, List.mem_append, not_or] at hbefore
        exact .inr ⟨hjob, by rw [List.mem_append, not_or]; exact ⟨hbefore.1, hexit⟩⟩
    · obtain ⟨e, he, hf⟩ := hint
      exact fun _ => ⟨e, by simp [he], hf⟩
  | background hbg hf hnone =>
    have hlist : ((backgroundJobs line start.spawns).foldl Jobs.register jobs).list =
        jobs.list ++ backgroundJobs line start.spawns := by
      refine list_foldl_register ?_ fun j hj => hnew _ ?_
      · rw [map_pid_backgroundJobs]
        exact hnodup
      · rw [Trace.started, ← map_pid_backgroundJobs line]
        exact List.mem_map_of_mem hj
    refine ⟨?_, ⟨_, hlist.symm⟩, by simp [hbg], ?_, fun h => absurd h hf⟩
    · rw [hstarted, hexits, hnone]
      intro pid hpid
      refine .inr ⟨?_, by simp⟩
      rw [Trace.started, ← map_pid_backgroundJobs line] at hpid
      obtain ⟨j, hj, rfl⟩ := List.mem_map.1 hpid
      rw [Jobs.contains_iff, hlist]
      exact ⟨j, List.mem_append_right _ hj, rfl⟩
    · rw [hspawns]
      exact fun _ => ⟨hlist, hlen⟩

/-- **No process is lost.** Whatever the surroundings answer, a line that returns in an orderly
system leaves each of its processes either seen to have exited or registered. Waited for without
an interrupt it leaves the jobs as they were; in the background it leaves all its processes as
jobs. -/
theorem execute_keeps_custody {line : CommandLine} {s s' : Session} {out out' : σ} {r : Result}
    {es : Trace} (hline : line.isChangeDirectory = false)
    (hrun : execute line k.traced ⟨s, (out, [])⟩ = (.returned r, ⟨s', (out', es)⟩))
    (horderly : Orderly s.jobs es) : Custody line s.jobs s'.jobs r.failure es :=
  custody_of_course (((execute_course hline).run hrun).2 horderly.own r rfl) horderly

/-- A host whose program `a` runs on when all is done, and where the user interrupts the wait for
`b`. -/
def interruptedHost : Host Host.Scripted where
  programs := Host.Scripted.programs [("a", { lingers := true }), ("b", { interruptsWait := true })]
  patience := 40

/-- The line `a | b`, run on that host by a session that has no jobs. -/
def interruptedRun : Outcome Result × World (Host.Machine Host.Scripted × Trace) :=
  execute { first := ⟨"a", []⟩, others := [⟨"b", []⟩] } interruptedHost.kernel.traced
    ⟨{ cwd := ⟨.root, []⟩, home := "/", settings := { historyFile := "" } }, ({}, [])⟩

/-- Of two processes one is left to the registry after an interrupt, the other one is not. -/
theorem execute_keeps_custody_of_interrupted :
    interruptedRun.1 = .returned { pids := [1, 2], failure := some .interrupted } ∧
      interruptedRun.2.outside.2.exits = [2] ∧ interruptedRun.2.session.jobs.pids = [1] ∧
        Custody { first := ⟨"a", []⟩, others := [⟨"b", []⟩] } {} interruptedRun.2.session.jobs
          (some .interrupted) interruptedRun.2.outside.2 := by
  have hreturned : interruptedRun.1 =
      .returned { pids := [1, 2], failure := some .interrupted } := by decide +kernel
  refine ⟨hreturned, by decide +kernel, by decide +kernel, ?_⟩
  exact execute_keeps_custody (by decide) (Prod.ext hreturned rfl) (by decide +kernel)

end LineShell
