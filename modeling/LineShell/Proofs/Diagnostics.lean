import LineShell.Proofs.Grammar
import LineShell.Proofs.StageWiring
import Mathlib.Data.List.Forall2

namespace LineShell

/-!
# What is reported of a line

* `Trace.reports` — the texts that were reported, in order;
* `Tells` — what a run that returns has reported, whatever it was asked to run on, with one rule
  for each way in which runs are put together;
* `launch_tells` — one complaint for each stage that could not be started;
* `Result.Told` — that something was reported just where not all went well;
* `execute_tells` — that running a line reports so;
* `Reported`, `handleLine_reports` — the same for texts, whether they are lines or not.
-/

variable {σ α β : Type} {k : Kernel σ}

/-! ### Reports -/

/-- Whether a request reports that a line went wrong. -/
def Request.isReport : Request → Bool
  | .report _ => true
  | _ => false

/-- The text that a request has reported. -/
def Event.report? : Event → Option String
  | ⟨.report text, .returned _⟩ => some text
  | _ => none

theorem Event.report?_of_not_isReport {e : Event} (h : e.request.isReport = false) :
    e.report? = none := by
  obtain ⟨r, o⟩ := e
  cases r <;> first | rfl | cases h

namespace Trace

/-- The texts that were reported, in order. -/
def reports (es : Trace) : List String := es.filterMap Event.report?

@[simp] theorem reports_append (es es' : Trace) : reports (es ++ es') = es.reports ++ es'.reports :=
  List.filterMap_append

theorem reports_of_only {p : Request → Bool} (hp : ∀ r, p r = true → r.isReport = false)
    {es : Trace} (h : es.Only p) : es.reports = [] :=
  List.filterMap_eq_nil_iff.2 fun e he => Event.report?_of_not_isReport (hp _ (h e he))

end Trace

/-- Whatever the session is, what a run has reported by the time it returns goes with its answer. -/
def Tells (k : Kernel σ) (x : Shell (σ × Trace) α) (R : α → List String → Prop) : Prop :=
  ∀ s, Ensures k x s fun o _ es => ∀ a, o = .returned a → R a es.reports

namespace Tells

variable {x : Shell (σ × Trace) α} {f : α → Shell (σ × Trace) β} {Q Q' : α → List String → Prop}
  {R : β → List String → Prop}

theorem mono (h : Tells k x Q) (hq : ∀ a ts, Q a ts → Q' a ts) : Tells k x Q' :=
  fun s => (h s).mono fun _ _ _ h a ha => hq a _ (h a ha)

theorem pure {a : α} (h : Q a []) : Tells k (Pure.pure a) Q := by
  refine fun s => .pure ?_
  rintro _ ⟨⟩
  exact h

theorem raise {e : Fault} : Tells k (Shell.raise e) Q := fun _ => .raise fun _ => nofun

theorem bind (hx : Tells k x Q) (hf : ∀ a ts, Q a ts → Tells k (f a) fun b ts' => R b (ts ++ ts')) :
    Tells k (x >>= f) R := by
  refine fun s => (hx s).bind (fun a s' es hq => ?_) (fun _ _ _ _ _ => nofun) fun _ _ _ _ => nofun
  refine (hf a _ (hq a rfl) s').mono fun o s'' es' h b hb => ?_
  rw [Trace.reports_append]
  exact h b hb

theorem session_bind {f : Session → Shell (σ × Trace) β} (h : ∀ s, Tells k (f s) R) :
    Tells k (Shell.session >>= f) R :=
  fun s => .session_bind (h s s)

theorem modifySession_bind {g : Session → Session} {f : Unit → Shell (σ × Trace) β}
    (h : Tells k (f ()) R) : Tells k (Shell.modifySession g >>= f) R :=
  fun s => .modifySession_bind (h (g s))

/-- A run that reports nothing comes first. -/
theorem silent_bind (hx : Tells k x fun _ ts => ts = []) (hf : ∀ a, Tells k (f a) R) :
    Tells k (x >>= f) R := by
  refine hx.bind ?_
  rintro a _ rfl
  exact hf a

theorem report {text : String} {Q : Unit → List String → Prop} (h : Q () [text]) :
    Tells k (Shell.report text) Q := by
  refine fun s => .ask fun o a ha => ?_
  cases ha
  exact h

theorem report_bind {text : String} {f : Unit → Shell (σ × Trace) β}
    (h : Tells k (f ()) fun b ts => R b (text :: ts)) : Tells k (Shell.report text >>= f) R := by
  refine (report (Q := fun _ ts => ts = [text]) rfl).bind ?_
  rintro _ _ rfl
  exact h

theorem of_asks {p : Request → Bool} (hp : ∀ r, p r = true → r.isReport = false)
    (hx : Asks k p x) : Tells k x fun _ ts => ts = [] :=
  fun s => (hx s).mono fun _ _ _ h _ _ => Trace.reports_of_only hp h.2

theorem ask {r : Request} (hr : r.isReport = false) : Tells k (Shell.ask r) fun _ ts => ts = [] :=
  of_asks (p := fun r => !r.isReport) (fun _ h => by simpa using h) (.ask (by rw [hr]; rfl))

/-- What was reported before a fault became an answer may be anything. -/
theorem attempt_bind {f : Except Fault α → Shell (σ × Trace) β} (hx : Tells k x Q)
    (hr : ∀ a ts, Q a ts → Tells k (f (.ok a)) fun b ts' => R b (ts ++ ts'))
    (he : ∀ e ts, Tells k (f (.error e)) fun b ts' => R b (ts ++ ts')) :
    Tells k (x.attempt >>= f) R := by
  refine fun s => (hx s).attempt_bind (fun a s' es hq => ?_) (fun e s' es _ => ?_)
    fun _ _ _ _ => nofun
  · refine (hr a _ (hq a rfl) s').mono fun o s'' es' h b hb => ?_
    rw [Trace.reports_append]
    exact h b hb
  · refine (he e es.reports s').mono fun o s'' es' h b hb => ?_
    rw [Trace.reports_append]
    exact h b hb

/-- A request that is attempted reports nothing, whatever comes of it. -/
theorem attempt_ask_bind {r : Request} {f : Except Fault r.Reply → Shell (σ × Trace) β}
    (hr : r.isReport = false) (h : ∀ a, Tells k (f a) R) :
    Tells k ((Shell.ask r).attempt >>= f) R := by
  refine silent_bind (of_asks (p := fun r => !r.isReport) (fun _ h => by simpa using h) ?_) h
  exact .attempt (.ask (by rw [hr]; rfl))

/-- Closing files reports nothing. -/
theorem closing (ids : List FileId) (hx : Tells k x Q) : Tells k (Shell.closing ids x) Q := by
  refine fun s => ((hx s).closing ids).mono ?_
  rintro o s' _ ⟨o₁, es₁, es₂, rfl, hq, hclosed, hafter⟩ a ha
  have hsilent := Trace.reports_of_only (fun r hr => by cases r <;> first | rfl | cases hr) hclosed
  rw [Trace.reports_append, hsilent, List.append_nil]
  exact hq a (hafter.returned ha)

theorem forM {l : List α} {g : α → Shell (σ × Trace) Unit}
    (hg : ∀ a, Tells k (g a) fun _ ts => ts = []) : Tells k (l.forM g) fun _ ts => ts = [] := by
  induction l with
  | nil => exact pure rfl
  | cons a l ih => exact (hg a).silent_bind fun _ => ih

end Tells

namespace Shell

/-! ### Opening files -/

section Files

variable {p : Request → Bool} (hopen : ∀ path mode, p (.openFile path mode) = true)
  (hclose : ∀ id, p (.closeFile id) = true)

include hclose in
theorem closeAll_asks (ids : List FileId) : Asks k p (closeAll ids) := by
  induction ids with
  | nil => exact .pure none
  | cons id ids ih => exact (Asks.ask (hclose id)).attempt.bind fun _ => ih.bind fun _ => .pure _

include hclose in
theorem closing_asks (ids : List FileId) {x : Shell (σ × Trace) α} (hx : Asks k p x) :
    Asks k p (closing ids x) := by
  refine hx.attempt.bind fun result => (closeAll_asks hclose ids).bind fun fault => ?_
  cases fault with
  | some f => exact .raise f
  | none =>
    cases result with
    | ok a => exact .pure a
    | error f => exact .raise f

include hopen in
theorem openTarget_asks (operand : String) (mode : OpenMode) :
    Asks k p (openTarget operand mode) :=
  fun s => .session_bind (Asks.handle (Asks.ask (hopen _ mode)) (fun _ => .raise _) s)

include hopen hclose in
theorem openOptional_asks (operand : Option String) (mode : OpenMode) (others : List FileId) :
    Asks k p (openOptional operand mode others) := by
  cases operand with
  | none => exact .pure none
  | some operand =>
    rw [openOptional, map_eq_pure_bind]
    refine Asks.bind (.handle (openTarget_asks hopen operand mode) fun f => ?_) fun _ => .pure _
    exact closing_asks hclose others (.raise f)

include hopen hclose in
theorem openStage_asks (w : Wiring) : Asks k p (openStage w) := by
  have hoptional := openOptional_asks (k := k) hopen hclose
  exact (hoptional _ _ _).bind fun _ => (hoptional _ _ _).bind fun _ =>
    (hoptional _ _ _).bind fun _ => .pure _

include hopen hclose in
/-- Opening the files of stages takes no more than opening and closing. -/
theorem openStages_asks (stages : List (Command × Wiring)) : Asks k p (openStages stages) := by
  induction stages with
  | nil => exact .pure _
  | cons stage stages ih =>
    refine (openStage_asks hopen hclose stage.2).attempt.bind fun files => ?_
    cases files with
    | error f => exact .pure _
    | ok files => exact ih.bind fun _ => .pure _

end Files

/-! ### Starting processes -/

/-- What is reported of a command that cannot be started. -/
def complaint (command : Command) (f : Fault) : String :=
  "failed to execute: " ++ command.name ++ " - " ++ f.reason

theorem start_tells (command : Command) (streams : Streams) :
    Tells k (start command streams) fun pid ts =>
      match pid with
      | some _ => ts = []
      | none => ∃ f, ts = [complaint command f] := by
  refine .session_bind fun s => .silent_bind (.ask rfl) fun _ => .attempt_ask_bind rfl fun pid => ?_
  cases pid with
  | ok pid => exact .silent_bind (.ask rfl) fun _ => .pure rfl
  | error f =>
    show Tells k (if f.isIo then _ else Shell.raise f) _
    split
    · exact .report_bind (.pure ⟨f, rfl⟩)
    · exact .raise

/-- The stages that have no process. -/
def missing (stages : List Stage) : List Stage := stages.filter (·.pid.isNone)

/-- **Starting stages.** There is one complaint for each stage that could not be started. -/
theorem launch_tells (foreground : Bool) (chunk : Int) (before : Predecessor) (plans : List Plan) :
    Tells k (launch foreground chunk before plans) fun r ts =>
      List.Forall₂ (fun stage t => ∃ f, t = complaint stage.command f) (missing r.1) ts := by
  induction plans generalizing before with
  | nil => exact .pure .nil
  | cons plan plans ih =>
    rw [launch_cons]
    refine (start_tells _ _).bind fun pid ts hstart => ?_
    refine .silent_bind ?_ fun relay => (ih _).bind fun r ts' hrest => .pure ?_
    · cases before with
      | running up => exact .silent_bind (.ask rfl) fun _ => .pure rfl
      | none => exact .pure rfl
      | missing => exact .pure rfl
    · rw [List.append_nil]
      cases pid with
      | some pid =>
        subst hstart
        exact hrest
      | none =>
        obtain ⟨f, rfl⟩ := hstart
        exact .cons ⟨f, rfl⟩ hrest

/-- Nothing is reported just where each stage has a process. -/
theorem eq_nil_iff_of_complaints {stages : List Stage} {ts : List String}
    (h : List.Forall₂ (fun stage t => ∃ f, t = complaint stage.command f) (missing stages) ts) :
    ts = [] ↔ stages.any (·.pid.isNone) = false := by
  rw [← List.length_eq_zero_iff, ← h.length_eq, List.length_eq_zero_iff, missing,
    List.filter_eq_nil_iff, List.any_eq_false]

theorem exists_of_mem_complaints {stages : List Stage} {ts : List String} {t : String}
    (h : List.Forall₂ (fun stage t => ∃ f, t = complaint stage.command f) stages ts) (ht : t ∈ ts) :
    ∃ command f, t = complaint command f := by
  induction h with
  | nil => cases ht
  | cons hstage _ ih =>
    rcases List.mem_cons.1 ht with rfl | ht
    · obtain ⟨f, rfl⟩ := hstage
      exact ⟨_, f, rfl⟩
    · exact ih ht

/-! ### Waiting and registering -/

theorem register_tells (job : Job) (announce : Bool) :
    Tells k (register job announce) fun _ ts => ts = [] := by
  refine .modifySession_bind (.silent_bind (.ask rfl) fun _ => ?_)
  split
  · exact .ask rfl
  · exact .pure rfl

theorem detach_tells (stages : List Stage) : Tells k (detach stages) fun _ ts => ts = [] := by
  refine .forM fun stage => ?_
  obtain ⟨command, pid⟩ := stage
  cases pid with
  | none => exact .pure rfl
  | some pid =>
    refine .silent_bind (.ask rfl) fun code => ?_
    split
    · exact register_tells _ _
    · exact .pure rfl

theorem leaveInterrupted_tells (text : String) (stages : List Stage) :
    Tells k (leaveInterrupted text stages) fun _ ts => ts = [text] := by
  refine .modifySession_bind (.report_bind ((detach_tells stages).mono ?_))
  rintro _ _ rfl
  rfl

theorem leaveInBackground_tells (line : CommandLine) (stages : List Stage) :
    Tells k (leaveInBackground line stages) fun _ ts => ts = [] := by
  refine .silent_bind (.forM fun _ => register_tells _ _) fun _ => ?_
  cases stages.getLast?.bind Stage.pid with
  | none => exact .pure rfl
  | some pid => exact register_tells _ _

variable {sink : Option FileId} {stages : List Stage} {relays : List RelayId}

theorem not_isReport_of_isTending (r : Request) (h : r.isTending = true) : r.isReport = false := by
  cases r <;> first | rfl | cases h

/-- Collecting reports nothing, and without a fault the exit code is known. -/
theorem collect_tells : Tells k (collect sink stages relays) fun c ts =>
    ts = [] ∧ (c.fault = none → c.exitCode.isSome = true) := by
  have hlast : Tells k (drainLast sink (stages.getLast?.bind Stage.pid)) fun _ ts => ts = [] :=
    .of_asks not_isReport_of_isTending (Performs.asks fun _ => ⟨_, drainLast_performs _⟩)
  have hothers : Tells k (awaitOthers stages relays) fun _ ts => ts = [] :=
    .of_asks not_isReport_of_isTending (Performs.asks fun _ => ⟨_, awaitOthers_performs⟩)
  have hcode : Tells k (collect sink stages relays) fun c _ =>
      c.fault = none → c.exitCode.isSome = true := by
    refine hlast.attempt_bind (fun code _ _ => ?_) fun f _ => .pure nofun
    exact hothers.attempt_bind (fun _ _ _ => .pure fun _ => rfl) fun f _ => .pure nofun
  refine fun s => (Ensures.and collect_performs (hcode s)).mono ?_
  rintro o s' es ⟨⟨-, htend, -⟩, hcode⟩ c hc
  exact ⟨Trace.reports_of_only not_isReport_of_isTending htend, hcode c hc⟩

/-- What has been reported by the time a line's files are closed: a line that is done has failed
and said so, or else nothing was said and relays and exit code are still to be looked at. -/
def AfterWaiting (result : Result) (lastStarted : Bool) (ending : Ending) (ts : List String) :
    Prop :=
  match ending with
  | .done r => r.failure.isSome = true ∧ ts ≠ []
  | .exited r _ started => ts = [] ∧ started = lastStarted ∧ r.exitCode.isSome = true ∧
      r.failure = result.failure ∧ r.background = result.background

theorem awaitPipeline_tells (result : Result) : Tells k (awaitPipeline sink stages relays result)
    (AfterWaiting result (lastPid stages).isSome) := by
  refine collect_tells.bind ?_
  rintro ⟨code, fault⟩ _ ⟨rfl, hcode⟩
  cases fault with
  | none => exact .pure ⟨rfl, rfl, hcode rfl, rfl, rfl⟩
  | some f =>
    have hreported : Tells k (report ("error running pipeline: " ++ f.message) >>= fun _ =>
        ((pidsOf stages).forM fun pid => do let _ ← wait pid) >>= fun _ =>
          pure (Ending.done { result with exitCode := code, failure := some .io }))
        (AfterWaiting result (lastPid stages).isSome) := by
      refine .report_bind (.silent_bind (.forM fun pid => ?_) fun _ => .pure ⟨rfl, by simp⟩)
      exact .silent_bind (.ask rfl) fun _ => .pure rfl
    cases f with
    | interrupt =>
      refine (leaveInterrupted_tells _ stages).bind ?_
      rintro _ _ rfl
      exact .pure ⟨rfl, by simp⟩
    | system | described | brokenPipe | cannotOpen => exact hreported
    | invalid | wrongKind | outOfRange | linkLoop => exact .raise

end Shell

/-! ### Whole lines -/

/-- Something was reported just where not all went well. -/
def Result.Told (r : Result) (ts : List String) : Prop := ts ≠ [] ↔ r.success = false

namespace Shell

theorem told_of_failure {r : Result} {ts : List String} (hr : r.failure.isSome = true)
    (hts : ts ≠ []) : r.Told ts := by
  rw [Option.isSome_iff_exists] at hr
  obtain ⟨f, hf⟩ := hr
  simp [Result.Told, Result.success, hf, hts]

/-- The faults of relays are reported, and each makes the line a failed one. -/
theorem reportRelays_tells (r : Result) (relays : List RelayId) :
    Tells k (reportRelays r relays) fun r' ts =>
      (ts = [] → r' = r) ∧ (ts ≠ [] ∨ r.failure.isSome = true → r'.failure.isSome = true) := by
  induction relays generalizing r with
  | nil => exact .pure ⟨fun _ => rfl, fun h => h.resolve_left (by simp)⟩
  | cons relay relays ih =>
    refine .silent_bind (.ask rfl) fun fault => ?_
    cases fault with
    | none => exact ih r
    | some f =>
      refine .report_bind ((ih _).mono fun r' ts h => ⟨nofun, fun _ => h.2 (.inr ?_)⟩)
      cases r.failure <;> rfl

theorem reportExit_tells (r : Result) (lastStarted : Bool) :
    Tells k (reportExit r lastStarted) fun _ ts =>
      ts ≠ [] ↔ lastStarted = true ∧ ∃ code, r.exitCode = some code ∧ code ≠ 0 := by
  cases hcode : r.exitCode with
  | none => simpa only [reportExit, hcode] using Tells.pure (by simp)
  | some code =>
    simp only [reportExit, hcode]
    split
    · next h => exact .report (by simpa [and_comm] using h)
    · next h => exact .pure (by simpa [and_comm] using h)

/-- What has been reported by the time the files of a line are closed. -/
def AtClosing (ending : Ending) (ts : List String) : Prop :=
  match ending with
  | .done r => r.Told ts
  | .exited r _ lastStarted => (ts = [] ↔ r.failure = none) ∧ r.exitCode.isSome = true ∧
      r.background = false ∧ (lastStarted = false → r.failure.isSome = true)

/-- With what relays and exit code bring, a line is told of. -/
theorem conclude_tells {ending : Ending} {ts : List String} (h : AtClosing ending ts) :
    Tells k (conclude ending) fun r ts' => r.Told (ts ++ ts') := by
  cases ending with
  | done r =>
    refine .pure ?_
    rw [List.append_nil]
    exact h
  | exited r relays lastStarted =>
    obtain ⟨hts, hcode, hforeground, hlast⟩ := h
    refine (reportRelays_tells r relays).bind fun r' ts₁ ⟨hsame, hfailed⟩ => ?_
    refine (reportExit_tells r' lastStarted).bind fun _ ts₂ hexit => .pure ?_
    rw [List.append_nil, ← List.append_assoc]
    cases hfailure : r'.failure with
    | some f =>
      -- the failure has been reported when the stages were started, or with a relay
      refine told_of_failure (by rw [hfailure]; rfl) ?_
      by_cases hnone : ts₁ = []
      · have hne : ts ≠ [] := by
          intro hnone'
          rw [hsame hnone, hts.1 hnone'] at hfailure
          cases hfailure
        simp [hne]
      · simp [hnone]
    | none =>
      -- nothing has been reported so far, and the last stage has a process
      have hnone : ts₁ = [] := by
        by_contra hne
        have := hfailed (.inl hne)
        rw [hfailure] at this
        cases this
      obtain rfl := hsame hnone
      have hstarted : lastStarted = true := by
        rw [← Bool.not_eq_false]
        intro hnot
        have := hlast hnot
        rw [hfailure] at this
        cases this
      obtain ⟨code, hcode⟩ := Option.isSome_iff_exists.1 hcode
      rw [hts.2 hfailure, hnone, List.append_nil, List.nil_append, Result.Told, hexit]
      simp [Result.success, hfailure, hforeground, hcode, hstarted]

theorem settle_tells {line : CommandLine} {ts : List String} (hne : stages ≠ [])
    (hts : ts = [] ↔ stages.any (·.pid.isNone) = false) :
    Tells k (settle line sink stages relays) fun ending ts' => AtClosing ending (ts ++ ts') := by
  let result : Result := {
    pids := pidsOf stages, background := line.background
    failure := if stages.any (·.pid.isNone) then some .spawn else none }
  have hfailure : result.failure = none ↔ ts = [] := by
    rw [hts]
    show (if _ then _ else _) = none ↔ _
    simp
  show Tells k (if line.blocks then awaitPipeline sink stages relays result else
    (leaveInBackground line stages >>= fun _ => pure (.done result))) _
  split
  · next hblocks =>
    have hforeground : line.background = false := by simpa [CommandLine.blocks] using hblocks
    refine (awaitPipeline_tells result).mono fun ending ts' h => ?_
    cases ending with
    | done r => exact told_of_failure h.1 (by simp [h.2])
    | exited r relays lastStarted =>
      obtain ⟨rfl, hlast, hcode, hsame, hbg⟩ := h
      rw [List.append_nil]
      refine ⟨by rw [hsame, hfailure], hcode, hbg.trans hforeground, fun hnot => ?_⟩
      -- a last stage without a process is one of the stages without one
      rw [hsame, Option.isSome_iff_ne_none, ne_eq, hfailure, hts, Bool.not_eq_false,
          List.any_eq_true]
      obtain ⟨others, last, rfl⟩ := List.eq_nil_or_concat stages |>.resolve_left hne
      refine ⟨last, by simp, ?_⟩
      rw [hlast] at hnot
      simpa [lastPid] using hnot
  · next hblocks =>
    have hbg : line.background = true := by simpa [CommandLine.blocks] using hblocks
    refine .silent_bind (leaveInBackground_tells line stages) fun _ => .pure ?_
    rw [List.append_nil]
    show result.Told ts
    cases hf : result.failure with
    | none =>
      have hbackground : result.background = true := hbg
      simp [Result.Told, Result.success, hf, hbackground, hfailure.1 hf]
    | some f =>
      refine told_of_failure (by rw [hf]; rfl) fun hnone => ?_
      rw [hfailure.2 hnone] at hf
      cases hf

theorem refuse_tells (f : Fault) : Tells k (refuse f) AtClosing := by
  rw [refuse]
  split
  · exact .report_bind (.pure (told_of_failure rfl (by simp)))
  · exact .raise

theorem runPipeline_tells (line : CommandLine) : Tells k (runPipeline line) Result.Told := by
  have hsilent : Asks k (fun r => !r.isReport) (openStages (line.commands.zip line.wirings)) :=
    openStages_asks (fun _ _ => rfl) (fun _ => rfl) _
  rw [runPipeline_eq]
  intro s
  refine Ensures.bind ((hsilent s).and (openStages_ensures _)) ?_ (fun _ _ _ _ _ => by simp)
    fun _ _ _ _ => by simp
  rintro ⟨plans, fault⟩ s' es ⟨⟨rfl, hes⟩, -, -, hplans⟩
  have hbody : Tells k (runOpened line plans fault) AtClosing := by
    cases fault with
    | some f => exact refuse_tells f
    | none =>
      have hlength : plans.length = line.commands.length := by
        have := congrArg List.length ((hplans _ rfl).1 rfl)
        rwa [List.length_map, List.length_zip, CommandLine.length_wirings, Nat.min_self] at this
      rw [runOpened, runStages_eq]
      refine .session_bind fun s => fun s' => ?_
      refine Ensures.bind ((launch_tells _ _ _ plans s').and launch_performs) ?_
        (fun _ _ _ _ _ => by simp) fun _ _ _ _ => by simp
      rintro ⟨stages, relays⟩ s'' es ⟨hcomplaints, rfl, -, hlaunched⟩
      have hne : stages ≠ [] := by
        rw [← List.length_pos_iff, hlaunched.length_eq, hlength]
        simp [CommandLine.commands]
      refine (settle_tells hne (eq_nil_iff_of_complaints (hcomplaints _ rfl)) s'').mono ?_
      intro o s' es' h ending ho
      rw [Trace.reports_append]
      exact h ending ho
  have hreports : Trace.reports es = [] :=
    Trace.reports_of_only (fun r hr => by simpa using hr) hes
  refine (Tells.bind (.closing _ hbody) (fun ending ts h => conclude_tells h) s').mono ?_
  intro o s'' es' h r hr
  rw [Trace.reports_append, hreports, List.nil_append]
  exact h r hr

theorem awaitSingle_tells (command : Command) (pid : ProcessId) :
    Tells k (awaitSingle command pid) Result.Told := by
  have hwait : Tells k (wait pid) fun (_ : Int) ts => ts = [] := .ask rfl
  refine hwait.attempt_bind ?_ fun f ts => ?_
  · rintro code _ rfl
    show Tells k (if code != 0 then (report _ >>= fun _ => pure _) else pure _) _
    split
    · next h =>
      have hcode : code ≠ 0 := by simpa using h
      exact .report_bind (.pure (by simp [Result.Told, Result.success, hcode]))
    · next h =>
      have hcode : code = 0 := by simpa using h
      exact .pure (by simp [Result.Told, Result.success, hcode])
  · cases f with
    | interrupt =>
      refine (leaveInterrupted_tells _ _).bind ?_
      rintro _ _ rfl
      exact .pure (told_of_failure rfl (by simp))
    | _ => exact .raise

theorem startSingle_tells (line : CommandLine) :
    Tells k (startSingle line) fun pid ts => ts = [] ↔ pid.isSome = true := by
  have hsilent : Asks k (fun r => !r.isReport) (openStage (line.wiring 0)) :=
    openStage_asks (fun _ _ => rfl) (fun _ => rfl) _
  refine .silent_bind (.of_asks (fun r hr => by simpa using hr) hsilent) fun files => ?_
  refine .closing _ ((start_tells _ _).mono fun pid ts h => ?_)
  cases pid with
  | some pid => simpa using h
  | none =>
    obtain ⟨f, rfl⟩ := h
    simp

theorem runSingle_tells (line : CommandLine) : Tells k (runSingle line) Result.Told := by
  refine (startSingle_tells line).attempt_bind (fun pid ts hstart => ?_) fun f ts => ?_
  · cases pid with
    | none =>
      have hne : ts ≠ [] := fun h => by simpa using hstart.1 h
      exact .pure (told_of_failure rfl (by simp [hne]))
    | some pid =>
      obtain rfl := hstart.2 rfl
      show Tells k (if line.blocks then awaitSingle line.first pid else
        (register ⟨pid, line.text, false⟩ true >>= fun _ => pure _)) _
      split
      · exact awaitSingle_tells _ _
      · exact .silent_bind (register_tells _ _) fun _ =>
          .pure (by simp [Result.Told, Result.success])
  · show Tells k (if f.isCannotOpen then (report f.message >>= fun _ => pure _) else raise f) _
    split
    · exact .report_bind (.pure (told_of_failure rfl (by simp)))
    · exact .raise

theorem changeDirectory_tells (command : Command) :
    Tells k (changeDirectory command) Result.Told := by
  refine .session_bind fun s => .attempt_ask_bind rfl fun path => ?_
  cases path with
  | ok path =>
    refine .silent_bind (.ask rfl) fun isDirectory => ?_
    cases isDirectory with
    | true =>
      refine .session_bind fun s => .silent_bind (.ask rfl) fun _ => .modifySession_bind ?_
      exact .pure (by simp [Result.Told, Result.success])
    | false => exact .report_bind (.pure (told_of_failure rfl (by simp)))
  | error f =>
    show Tells k (if isUnreachable f then (report _ >>= fun _ => pure _) else raise f) _
    split
    · exact .report_bind (.pure (told_of_failure rfl (by simp)))
    · exact .raise

/-- **Telling of a line.** Something is reported just where not all went well. -/
theorem execute_tells (line : CommandLine) : Tells k (execute line) Result.Told := by
  rw [execute]
  split
  · exact changeDirectory_tells _
  · split
    · exact runPipeline_tells line
    · exact runSingle_tells line

theorem handleLine_tells (text : String) : Tells k (handleLine text) fun answer ts =>
    match CommandLine.parse text with
    | .error e => answer = none ∧ ts = [refusal e]
    | .ok none => answer = none ∧ ts = []
    | .ok (some _) => ∃ r, answer = some r ∧ r.Told ts := by
  rw [handleLine]
  cases CommandLine.parse text with
  | error e => exact .report_bind (.pure ⟨rfl, rfl⟩)
  | ok line =>
    cases line with
    | none => exact .pure ⟨rfl, rfl⟩
    | some line =>
      refine .silent_bind (.ask rfl) fun _ => ?_
      rw [map_eq_pure_bind]
      refine (execute_tells line).bind fun r ts h => .pure ⟨r, rfl, ?_⟩
      rwa [List.append_nil]

end Shell

/-! ### Texts -/

/-- What is reported of a text, whether it is a line or not. -/
structure Reported (text : String) (answer : Option Result) (reports : List String) : Prop where
  /-- Of a line that was run something is reported just where not all went well. -/
  told : ∀ r, answer = some r → (reports ≠ [] ↔ r.success = false)
  /-- A text that is no line runs nothing, and is refused once. -/
  refused : ∀ e, CommandLine.parse text = .error e → answer = none ∧ reports = [Shell.refusal e]
  /-- A blank text runs nothing, and nothing is said of it. -/
  blank : Text.trim text.toList = [] → answer = none ∧ reports = []
  /-- Where nothing was run, there is one report just where the text is no line. -/
  once : answer = none → (reports.length = 1 ↔ ∃ e, CommandLine.parse text = .error e)

/-- **Diagnostics.** Whatever the surroundings answer, if reading and running a text returns, then
something has been reported just where not all went well. -/
theorem handleLine_reports {text : String} {s : Session} {out : σ} {answer : Option Result}
    {w : World (σ × Trace)}
    (hrun : Shell.handleLine text k.traced ⟨s, (out, [])⟩ = (.returned answer, w)) :
    Reported text answer w.outside.2.reports := by
  have h := ((Shell.handleLine_tells text s).run hrun).2 answer rfl
  have hblank := CommandLine.parse_eq_none_iff text
  cases hparse : CommandLine.parse text with
  | error e =>
    rw [hparse] at h hblank
    obtain ⟨rfl, hreports⟩ := h
    refine ⟨nofun, ?_, fun htrim => ?_, fun _ => ?_⟩
    · rintro _ h
      rw [hparse] at h
      cases h
      exact ⟨rfl, hreports⟩
    · cases hblank.2 htrim
    · simp [hreports, hparse]
  | ok line =>
    rw [hparse] at h hblank
    cases line with
    | none =>
      obtain ⟨rfl, hreports⟩ := h
      exact ⟨nofun, by simp [hparse], fun _ => ⟨rfl, hreports⟩, by simp [hreports, hparse]⟩
    | some line =>
      obtain ⟨r, rfl, htold⟩ := h
      refine ⟨?_, by simp [hparse], fun htrim => ?_, nofun⟩
      · rintro _ ⟨⟩
        exact htold
      · cases hblank.2 htrim

/-- A host without a program `a`, whose program `b` exits with the code 3. -/
def failingHost : Host Host.Scripted where
  programs := Host.Scripted.programs [("b", { status := 3 })]
  patience := 40

/-- A session at the root. -/
def rootSession : Session := { cwd := ⟨.root, []⟩, home := "/", settings := { historyFile := "" } }

/-- The text `a | b`, read and run on that host. -/
def failingRun : Outcome (Option Result) × World (Host.Machine Host.Scripted × Trace) :=
  Shell.handleLine "a | b" failingHost.kernel.traced ⟨rootSession, ({}, [])⟩

/-- What comes of it. -/
def failingResult : Result := { exitCode := some 3, pids := [1], failure := some .spawn }

/-- Two reports are made of a line whose first stage cannot be started and whose last one fails. -/
theorem handleLine_reports_of_failing :
    failingRun.1 = .returned (some failingResult) ∧
    failingRun.2.outside.2.reports =
      ["failed to execute: a - No such file or directory", "process exited with code 3"] ∧
    Reported "a | b" (some failingResult) failingRun.2.outside.2.reports := by
  have hreturned : failingRun.1 = .returned (some failingResult) := by decide +kernel
  have hrun : failingRun = (.returned (some failingResult), failingRun.2) := by rw [← hreturned]
  have hrun : Shell.handleLine "a | b" failingHost.kernel.traced ⟨rootSession, ({}, [])⟩ = _ := hrun
  exact ⟨hreturned, by decide +kernel, handleLine_reports hrun⟩

end LineShell
