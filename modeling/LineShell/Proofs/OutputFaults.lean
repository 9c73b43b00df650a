import Mathlib
import LineShell.Proofs.Composition
import LineShell.Proofs.Containment
import LineShell.Proofs.Recovery
import LineShell.Proofs.Serving

namespace LineShell

/-!
# Faults of an output file

What a foreground pipeline makes of faults of the file that its output goes to.

* `Trace.OutputFails` — nothing fails but files that are written to, flushed or closed, and
  processes that cannot be started;
* `Footing.run_lost_iff` — of these faults only those of closing leave a run lost;
* `Shell.Reckoned`, `awaitPipeline_reckons` — a fault of draining is reported, and is the failure of
  the line;
* `Delivered` — all that the last process writes has been handed on to a file and flushed;
* `Accounts`, `runPipeline_accounts` — a line that returns has delivered its output or says why not,
  and it returns unless closing a file has failed.

A file that could not be flushed is flushed once more when it is closed. The line is over by then,
so nothing catches a fault that comes again.
-/

variable {σ α β : Type} {k : Kernel σ} {s : Session}

/-! ### Files that fail -/

/-- Whether a request writes to a file, flushes it or closes it. -/
def Request.isOutput : Request → Bool
  | .writeFile .. | .flushFile _ | .closeFile _ => true
  | _ => false

/-- Whether a request has returned, or has met a fault of the system with a file that is written to,
flushed or closed, or with a process that is started. -/
def Event.isOutputFailure (e : Event) : Bool :=
  match e.outcome with
  | .returned _ => true
  | .raised f => f.isIo && !f.isCannotOpen && (e.request.isOutput || e.request.isSpawn)
  | .never => false

/-- Nothing fails but files that are written to, flushed or closed, and processes that cannot be
started. -/
def Trace.OutputFails (es : Trace) : Prop := ∀ e ∈ es, e.isOutputFailure = true

instance (es : Trace) : Decidable es.OutputFails :=
  inferInstanceAs (Decidable (∀ e ∈ es, e.isOutputFailure = true))

namespace Trace

variable {es es' : Trace}

theorem outputFails_append : OutputFails (es ++ es') ↔ es.OutputFails ∧ es'.OutputFails :=
  List.forall_mem_append

theorem OutputFails.ordinary (h : es.OutputFails) : es.Ordinary := by
  intro e he
  have hfails := h e he
  obtain ⟨r, o⟩ := e
  cases o with
  | returned a => rfl
  | never => cases hfails
  | raised f =>
    simp only [Event.isOutputFailure, Bool.and_eq_true, Bool.or_eq_true] at hfails
    obtain ⟨⟨-, hopen⟩, hrequest⟩ := hfails
    cases r <;> first | simpa [Event.isOrdinary, Request.isSure] using hopen |
      simp [Request.isOutput, Request.isSpawn] at hrequest

/-- A request that tends to processes fails with a fault of input or output only. -/
theorem OutputFails.isIo (h : es.OutputFails) {e : Event} {f : Fault} (he : e ∈ es)
    (hf : e.fault? = some f) : f.isIo = true := by
  have hfails := h e he
  obtain ⟨r, o⟩ := e
  cases o with
  | raised g =>
    obtain rfl : g = f := Option.some.inj hf
    simp only [Event.isOutputFailure, Bool.and_eq_true] at hfails
    exact hfails.1.1
  | returned a => cases hf
  | never => cases hf

end Trace

namespace Footing

/-- Of faults of output and of starting processes only one of closing loses a run. -/
theorem after_ne_lost {w : Footing} {e : Event} (hw : w ≠ .lost) (h : e.isOutputFailure = true)
    (hclose : e.request.isClose = true → e.fault? = none) : w.after e ≠ .lost := by
  obtain ⟨r, o⟩ := e
  cases o with
  | never => cases h
  | returned a =>
    cases hinput : r.isInput with
    | false => rwa [after_returned w hinput]
    | true =>
      cases w with
      | lost => exact absurd rfl hw
      | firm => simp [after, Event.fault?, hinput]
      | recovering => simp [after, Event.fault?, hinput]
  | raised f =>
    simp only [Event.isOutputFailure, Bool.and_eq_true, Bool.or_eq_true] at h
    obtain ⟨⟨hio, -⟩, hrequest⟩ := h
    rw [after_raised hw]
    cases r with
    | spawn => simpa [meets, hio] using hw
    | writeFile => simp [meets, hio]
    | flushFile => simp [meets, hio]
    | closeFile => cases hclose rfl
    | _ => simp [Request.isOutput, Request.isSpawn] at hrequest

/-- **Faults that lose a run.** Of faults of output and of starting processes only those of closing
do. -/
theorem run_lost_iff {es : Trace} (h : es.OutputFails) {w : Footing} (hw : w ≠ .lost) :
    w.run es = .lost ↔ ∃ e ∈ es, e.request.isClose = true ∧ e.fault? ≠ none := by
  induction es generalizing w with
  | nil => simp [hw]
  | cons e es ih =>
    have hes : Trace.OutputFails es := fun v hv => h v (List.mem_cons_of_mem e hv)
    by_cases hclosed : e.request.isClose = true ∧ e.fault? ≠ none
    · have hlost : w.after e = .lost := by
        obtain ⟨r, _ | f | _⟩ := e
        · exact absurd rfl hclosed.2
        · rw [after_raised hw]
          cases r <;> first | rfl | cases hclosed.1
        · exact absurd rfl hclosed.2
      rw [run_cons, hlost, run_lost]
      exact iff_of_true rfl ⟨e, List.mem_cons_self, hclosed⟩
    · have hkept : w.after e ≠ .lost := by
        refine after_ne_lost hw (h e List.mem_cons_self) fun hclose => ?_
        by_contra hfault
        exact hclosed ⟨hclose, hfault⟩
      rw [run_cons, ih hes hkept]
      simp only [List.mem_cons, exists_eq_or_imp, hclosed, false_or]

end Footing

/-! ### Opening files -/

/-- If nothing but output fails, the run returns. -/
def Succeeds (k : Kernel σ) (x : Shell (σ × Trace) α) : Prop :=
  ∀ s, Ensures k x s fun o _ es => es.OutputFails → ∃ a, o = .returned a

namespace Succeeds

variable {x : Shell (σ × Trace) α} {f : α → Shell (σ × Trace) β}

theorem pure (a : α) : Succeeds k (Pure.pure a) := fun _ => .pure fun _ => ⟨a, rfl⟩

theorem bind (hx : Succeeds k x) (hf : ∀ a, Succeeds k (f a)) : Succeeds k (x >>= f) := by
  refine fun s => (hx s).bind (fun a s' es _ => (hf a s').mono fun o s'' es' h hfails => ?_)
    (fun e s' es h hfails => ?_) fun s' es h hfails => ?_
  · exact h (Trace.outputFails_append.1 hfails).2
  · obtain ⟨a, ha⟩ := h hfails
    cases ha
  · obtain ⟨a, ha⟩ := h hfails
    cases ha

/-- What succeeds needs no handler. -/
theorem handle {p : Fault → Bool} {g : Fault → Shell (σ × Trace) α} (hx : Succeeds k x)
    (hg : ∀ e s, Ensures k (g e) s fun _ _ _ => True) : Succeeds k (x.handle p g) := by
  refine fun s => (hx s).handle (fun a _ _ _ _ => ⟨a, rfl⟩) (fun e s' es _ h => ?_)
    (fun e s' es _ h hfails => ?_) fun s' es h hfails => ?_
  · refine (hg e s').mono fun o s'' es' _ hfails => ?_
    obtain ⟨a, ha⟩ := h (Trace.outputFails_append.1 hfails).1
    cases ha
  · obtain ⟨a, ha⟩ := h hfails
    cases ha
  · obtain ⟨a, ha⟩ := h hfails
    cases ha

end Succeeds

namespace Shell

variable {line : CommandLine} {sink : Option FileId} {stages : List Stage} {relays : List RelayId}
  {plans : List Plan} {es es' : Trace}

theorem openTarget_succeeds (operand : String) (mode : OpenMode) :
    Succeeds k (openTarget operand mode) := by
  refine fun s => .session_bind (Succeeds.handle (fun s => .ask fun o hfails => ?_)
    (fun e s => .raise trivial) s)
  have he := hfails _ (List.mem_singleton_self _)
  cases o with
  | returned a => exact ⟨a, rfl⟩
  | raised f => simp [Event.isOutputFailure, Request.isOutput, Request.isSpawn] at he
  | never => cases he

theorem openOptional_succeeds (operand : Option String) (mode : OpenMode) (others : List FileId) :
    Succeeds k (openOptional operand mode others) := by
  cases operand with
  | none => exact .pure none
  | some operand =>
    rw [openOptional, map_eq_pure_bind]
    refine .bind (.handle (openTarget_succeeds operand mode) fun f s => ?_) fun _ => .pure _
    have hraise : Ensures k (Shell.raise f : Shell (σ × Trace) FileId) s fun _ _ _ => True :=
      .raise trivial
    exact (hraise.closing others).mono fun _ _ _ _ => trivial

theorem openStage_succeeds (w : Wiring) : Succeeds k (openStage w) :=
  (openOptional_succeeds _ _ _).bind fun _ => (openOptional_succeeds _ _ _).bind fun _ =>
    (openOptional_succeeds _ _ _).bind fun _ => .pure _

/-- If nothing but output fails, all files of a line can be opened. -/
theorem openStages_succeeds (stages : List (Command × Wiring)) :
    Ensures k (openStages stages) s fun o _ es =>
      es.OutputFails → ∃ plans, o = .returned (plans, none) := by
  induction stages with
  | nil => exact .pure fun _ => ⟨[], rfl⟩
  | cons stage stages ih =>
    have hstage := (openStage_succeeds (k := k) stage.2 s).and (openStage_ensures stage.2)
    refine Ensures.attempt_bind hstage ?_ ?_ ?_
    · rintro files s' es ⟨-, rfl, -⟩
      refine ih.bind ?_ ?_ ?_
      · rintro ⟨plans, fault⟩ s' es' h
        refine .pure fun hfails => ?_
        rw [List.append_nil] at hfails
        obtain ⟨plans', hplans⟩ := h (Trace.outputFails_append.1 hfails).2
        cases hplans
        exact ⟨_, rfl⟩
      · rintro f s' es' h hfails
        obtain ⟨plans, hplans⟩ := h (Trace.outputFails_append.1 hfails).2
        cases hplans
      · rintro s' es' h hfails
        obtain ⟨plans, hplans⟩ := h (Trace.outputFails_append.1 hfails).2
        cases hplans
    · rintro f s' es ⟨h, -⟩
      refine .pure fun hfails => ?_
      rw [List.append_nil] at hfails
      obtain ⟨files, hfiles⟩ := h hfails
      cases hfiles
    · rintro s' es ⟨h, -⟩ hfails
      obtain ⟨files, hfiles⟩ := h hfails
      cases hfiles

/-! ### Faults of draining -/

/-- What is reported of a fault that a pipeline has met. -/
def pipelineFault (f : Fault) : String := "error running pipeline: " ++ f.message

/-- What has become of the faults of tending to processes by the time the files of a line are
closed. -/
structure Reckoned (ending : Ending) (es : Trace) : Prop where
  /-- A fault of input or output is the failure of the line, and is reported. -/
  told : ∀ e ∈ es, ∀ f, e.request.isTending = true → e.fault? = some f → f.isIo = true →
    ending.result.failure = some .io ∧ pipelineFault f ∈ es.reports
  /-- Where something is left to be said, there was no fault. -/
  calm : ∀ r relays lastStarted, ending = .exited r relays lastStarted → es.Calm
  /-- Without a fault nothing has cut the line short. -/
  fair : es.Calm → ending.result.Fair

/-- Events that tend to no process, before and after, change nothing. -/
theorem Reckoned.within {ending : Ending} (h : Reckoned ending es) {pre post : Trace}
    (hpre : pre.Calm) (hpost : post.Calm) : Reckoned ending (pre ++ es ++ post) := by
  have hcalm : ∀ {e : Event} {f : Fault} {t : Trace}, t.Calm → e ∈ t →
      e.request.isTending = true → e.fault? ≠ some f := by
    intro e f t ht he htending hf
    rw [ht e he htending] at hf
    cases hf
  refine ⟨fun e he f htending hf hio => ?_, fun r relays b hending => ?_, fun hall => ?_⟩
  · rw [List.append_assoc, List.mem_append, List.mem_append] at he
    have hmem : e ∈ es := by
      rcases he with he | he | he
      · exact absurd hf (hcalm hpre he htending)
      · exact he
      · exact absurd hf (hcalm hpost he htending)
    obtain ⟨hfailure, hreport⟩ := h.told e hmem f htending hf hio
    refine ⟨hfailure, ?_⟩
    simp only [Trace.reports_append, List.mem_append]
    exact .inl (.inr hreport)
  · exact Trace.calm_append.2 ⟨Trace.calm_append.2 ⟨hpre, h.calm r relays b hending⟩, hpost⟩
  · exact h.fair (Trace.calm_append.1 (Trace.calm_append.1 hall).1).2

theorem reckoned_of_calm {ending : Ending} (h : es.Calm) (hfair : ending.result.Fair) :
    Reckoned ending es := by
  refine ⟨fun e he f htending hf => ?_, fun _ _ _ _ => h, fun _ => hfair⟩
  rw [h e he htending] at hf
  cases hf

/-- One fault of tending to processes has been met, and has been dealt with. -/
theorem reckoned_of_fault {ending : Ending} {init rest : Trace} {e : Event} {f : Fault}
    {r : Result} (hinit : init.Calm) (hrest : rest.Calm) (htending : e.request.isTending = true)
    (hf : e.fault? = some f) (hending : ending = .done r)
    (htold : f.isIo = true → r.failure = some .io ∧ pipelineFault f ∈ rest.reports) :
    Reckoned ending (init ++ [e] ++ rest) := by
  subst hending
  have hmem : e ∈ init ++ [e] ++ rest := by simp
  refine ⟨fun v hv g hvtending hg hio => ?_, fun _ _ _ => nofun, fun hcalm => ?_⟩
  · simp only [List.mem_append, List.mem_singleton] at hv
    rcases hv with (hv | rfl) | hv
    · rw [hinit v hv hvtending] at hg
      cases hg
    · obtain rfl : f = g := Option.some.inj (hf.symm.trans hg)
      obtain ⟨hfailure, hreport⟩ := htold hio
      refine ⟨hfailure, ?_⟩
      rw [Trace.reports_append]
      exact List.mem_append_right _ hreport
    · rw [hrest v hv hvtending] at hg
      cases hg
  · rw [hcalm e hmem htending] at hf
    cases hf

/-- **Faults of draining.** The first fault of tending to a pipeline is the only one, if the line is
done with at all, and a fault of input or output is reported. -/
theorem awaitPipeline_reckons {result : Result} (hfair : result.Fair) :
    Ensures k (awaitPipeline sink stages relays result) s fun o _ es =>
      ∀ ending, o = .returned ending → Reckoned ending es := by
  refine Ensures.bind (collect_stops.and collect_performs) ?_ (fun _ _ _ _ _ => nofun)
    fun _ _ _ _ => nofun
  rintro ⟨code, fault⟩ s' es ⟨hstops, -, htend, -⟩
  cases fault with
  | none =>
    have hsmooth : es.Smooth := hstops
    refine .pure ?_
    rintro _ ⟨⟩
    rw [List.append_nil]
    exact reckoned_of_calm hsmooth.calm hfair
  | some f =>
    obtain ⟨init, e, rfl, hinit, hf⟩ : es.StopsAt f := hstops
    have htending : e.request.isTending = true := htend e (by simp)
    -- whatever is done about a fault returns only if all its requests do
    have hdone : ∀ {x : Shell (σ × Trace) Unit} {r : Result}, Faithful k x →
        (f.isIo = true → r.failure = some .io ∧ Tells k x fun _ ts => pipelineFault f ∈ ts) →
          Ensures k (x >>= fun _ => pure (Ending.done r)) s' fun o _ es' =>
            ∀ ending, o = .returned ending → Reckoned ending (init ++ [e] ++ es') := by
      intro x r hfaithful htells
      have htold : Ensures k x s' fun o _ ts => f.isIo = true → o = .returned () →
          pipelineFault f ∈ ts.reports := by
        cases hio : f.isIo with
        | true => exact ((htells hio).2 s').mono fun o _ ts h _ ho => h () ho
        | false => exact (hfaithful s').mono fun _ _ _ _ => nofun
      refine ((hfaithful s').and htold).bind ?_ (fun _ _ _ _ _ => nofun) fun _ _ _ _ => nofun
      rintro _ s'' es' ⟨hiff, htold⟩
      refine .pure ?_
      rintro _ ⟨⟩
      rw [List.append_nil]
      refine reckoned_of_fault hinit.calm (hiff.1 ⟨_, rfl⟩).calm htending hf rfl fun hio => ?_
      exact ⟨(htells hio).1, htold hio rfl⟩
    have hwait : Faithful k (report (pipelineFault f) >>= fun _ =>
        (pidsOf stages).forM fun pid => do let _ ← wait pid) :=
      .bind (.ask _) fun _ => .forM fun _ => .bind (.ask _) fun _ => .pure ()
    have htells : Tells k (report (pipelineFault f) >>= fun _ =>
        (pidsOf stages).forM fun pid => do let _ ← wait pid)
          fun _ ts => pipelineFault f ∈ ts := by
      refine .report_bind ((Tells.forM fun pid => ?_).mono fun _ _ _ => List.mem_cons_self)
      exact .silent_bind (.ask rfl) fun _ => .pure rfl
    cases f with
    | interrupt =>
      refine hdone (.modifySession_bind (.bind (.ask _) fun _ => detach_faithful stages)) nofun
    | system | described | brokenPipe | cannotOpen =>
      have hrest := hdone (r := { result with exitCode := code, failure := some .io }) hwait
        fun _ => ⟨rfl, htells⟩
      rw [bind_assoc] at hrest
      exact hrest
    | invalid | wrongKind | outOfRange | linkLoop => exact .raise fun _ => nofun

theorem runStages_reckons (hfg : line.background = false) (plans : List Plan) :
    Ensures k (runStages line plans) s fun o _ es =>
      ∀ ending, o = .returned ending → Reckoned ending es := by
  rw [runStages_eq]
  refine .session_bind (Ensures.bind (launch_asks _ _ _ plans s) ?_ (fun _ _ _ _ _ => nofun)
    fun _ _ _ _ => nofun)
  rintro ⟨stages, relays⟩ s' launch ⟨-, huntending⟩
  have hfair : ∀ missing : Bool,
      Result.Fair { pids := pidsOf stages, failure := if missing then some .spawn else none } := by
    rintro (_ | _)
    · exact .inl rfl
    · exact .inr rfl
  simp only [settle, CommandLine.blocks, hfg, Bool.not_false, if_true]
  refine (awaitPipeline_reckons (hfair _)).mono fun o s'' rest h ending ho => ?_
  have hwithin := (h ending ho).within (Trace.calm_of_only huntending) Trace.calm_nil
  rwa [List.append_nil] at hwithin

end Shell

/-! ### Lines that return -/

/-- All that the last process of a line writes has been read to its end, has been handed on to a
file, and has been flushed. -/
def Delivered (file : FileId) (es : Trace) : Prop :=
  ∃ pre post : Trace, es = pre ++ post ∧ pre.handed (some file) = [] ∧
    Shell.Gathered es.spawns.getLast?.join (some file) post

/-- What a line that returns says of its output file. -/
structure Accounts (file : FileId) (r : Result) (es : Trace) : Prop where
  /-- A fault of handing output on is the failure of the line, and is reported. -/
  told : ∀ e ∈ es, ∀ f, e.request.isTending = true → e.fault? = some f →
    r.failure = some .io ∧ Shell.pipelineFault f ∈ es.reports
  /-- Without such a fault all output has been delivered. -/
  delivered : es.Calm → Delivered file es
  /-- Without such a fault the line fails by a process that cannot be started, or by a relay. -/
  fair : es.Calm → r.Fair ∨ r.failure = some .io ∧ ∃ relay f,
    ⟨.relayFault relay, .returned (some f)⟩ ∈ es ∧ Shell.pipelineFault f ∈ es.reports

namespace Shell

variable {line : CommandLine} {plans : List Plan} {opened es : Trace}

/-- Each fault of a relay is reported, and makes a line that had no other failure one that failed
with its input or output. -/
theorem reportRelays_accounts (r : Result) (relays : List RelayId) :
    Ensures k (reportRelays r relays) s fun o _ es => ∀ r', o = .returned r' →
      r'.failure = r.failure ∨ r'.failure = some .io ∧ ∃ relay f,
        ⟨.relayFault relay, .returned (some f)⟩ ∈ es ∧ pipelineFault f ∈ es.reports := by
  induction relays generalizing r with
  | nil =>
    refine .pure ?_
    rintro _ ⟨⟩
    exact .inl rfl
  | cons relay relays ih =>
    refine .ask_bind (fun fault => ?_) (fun _ _ => nofun) fun _ => nofun
    cases fault with
    | none =>
      refine (ih r).mono fun o s' es h r' hr' => (h r' hr').imp id ?_
      rintro ⟨hfailure, relay', f, hmem, hreport⟩
      exact ⟨hfailure, relay', f, List.mem_cons_of_mem _ hmem, hreport⟩
    | some f =>
      refine .ask_bind (fun _ => ?_) (fun _ _ => nofun) fun _ => nofun
      refine (ih _).mono fun o s' es h r' hr' => ?_
      have hhere : ⟨.relayFault relay, .returned (some f)⟩ ∈
          (⟨.relayFault relay, .returned (some f)⟩ :: ⟨.report (pipelineFault f), .returned ()⟩ ::
            es : Trace) ∧ pipelineFault f ∈ Trace.reports
          (⟨.relayFault relay, .returned (some f)⟩ :: ⟨.report (pipelineFault f), .returned ()⟩ ::
            es) := ⟨List.mem_cons_self, List.mem_cons_self⟩
      have hsame := h r' hr'
      cases hfailure : r.failure with
      | none =>
        simp only [hfailure, Option.orElse_eq_orElse, Option.orElse_eq_or, Option.none_or] at hsame
        refine .inr ⟨?_, relay, f, hhere⟩
        exact hsame.elim id And.left
      | some failure =>
        simp only [hfailure, Option.orElse_eq_orElse, Option.orElse_eq_or, Option.some_or] at hsame
        refine hsame.imp id fun ⟨hio, _⟩ => ⟨hio, relay, f, hhere⟩

theorem reportRelays_faithful (r : Result) (relays : List RelayId) :
    Faithful k (reportRelays r relays) := by
  induction relays generalizing r with
  | nil => exact .pure r
  | cons relay relays ih =>
    refine .bind (.ask _) fun fault => ?_
    cases fault with
    | none => exact ih r
    | some f => exact .bind (.ask _) fun _ => ih _

theorem reportExit_faithful (r : Result) (lastStarted : Bool) :
    Faithful k (reportExit r lastStarted) := by
  unfold reportExit
  split
  · exact .pure ()
  · split
    · exact .ask _
    · exact .pure ()

/-- What a line has made of its faults when all is said. -/
structure Cleared (r : Result) (es : Trace) : Prop where
  told : ∀ e ∈ es, ∀ f, e.request.isTending = true → e.fault? = some f → f.isIo = true →
    r.failure = some .io ∧ pipelineFault f ∈ es.reports
  fair : es.Calm → r.Fair ∨ r.failure = some .io ∧ ∃ relay f,
    ⟨.relayFault relay, .returned (some f)⟩ ∈ es ∧ pipelineFault f ∈ es.reports

/-- What is said at the end of a line leaves its faults as they are, but for those of relays. -/
theorem conclude_clears {ending : Ending} (h : Reckoned ending es) :
    Ensures k (conclude ending) s fun o _ es' =>
      ∀ r, o = .returned r → es'.Only Request.isIdle ∧ Cleared r (es ++ es') ∧
        (Trace.Calm (es ++ es') → ending.result.Fair) := by
  cases ending with
  | done result =>
    refine .pure ?_
    rintro _ ⟨⟩
    rw [List.append_nil]
    exact ⟨Trace.only_nil _, ⟨h.told, fun hcalm => .inl (h.fair hcalm)⟩, h.fair⟩
  | exited result relays lastStarted =>
    have hcalm : es.Calm := h.calm result relays lastStarted rfl
    have hfair : result.Fair := h.fair hcalm
    have hrelays : Ensures k (conclude (.exited result relays lastStarted)) s fun o _ es' =>
        ∀ r, o = .returned r → r.failure = result.failure ∨ r.failure = some .io ∧
          ∃ relay f, ⟨.relayFault relay, .returned (some f)⟩ ∈ es' ∧
            pipelineFault f ∈ es'.reports := by
      refine (reportRelays_accounts result relays).bind ?_ (fun _ _ _ _ _ => nofun)
        fun _ _ _ _ => nofun
      intro r s' es₁ hr
      refine Ensures.bind (reportExit_asks r lastStarted s') ?_ (fun _ _ _ _ _ => nofun)
        fun _ _ _ _ => nofun
      intro _ s'' es₂ _
      refine .pure ?_
      rintro _ ⟨⟩
      refine (hr r rfl).imp id ?_
      rintro ⟨hfailure, relay, f, hmem, hreport⟩
      refine ⟨hfailure, relay, f, List.mem_append_left _ hmem, ?_⟩
      rw [Trace.reports_append]
      exact List.mem_append_left _ hreport
    have hfaithful : Faithful k (conclude (.exited result relays lastStarted)) :=
      (reportRelays_faithful result relays).bind fun r =>
        (reportExit_faithful r lastStarted).bind fun _ => .pure r
    refine ((hrelays.and (hfaithful s)).and (conclude_ensures _)).mono ?_
    rintro o s' es' ⟨⟨hrelays, hiff⟩, haside, -⟩ r hr
    have hall : Trace.Calm (es ++ es') :=
      Trace.calm_append.2 ⟨hcalm, (hiff.1 ⟨r, hr⟩).calm⟩
    refine ⟨haside.mono fun _ => Request.isIdle_of_isAside, ⟨fun e he f htending hf _ => ?_,
      fun _ => ?_⟩, fun _ => hfair⟩
    · rw [hall e he htending] at hf
      cases hf
    · refine (hrelays r hr).imp (fun hsame => ?_) ?_
      · rwa [Result.Fair, hsame]
      · rintro ⟨hfailure, relay, f, hmem, hreport⟩
        refine ⟨hfailure, relay, f, List.mem_append_right _ hmem, ?_⟩
        rw [Trace.reports_append]
        exact List.mem_append_right _ hreport

/-- A trace behind the opening of all files of a line that clears its faults, and that has the parts
of that of a pipeline unless one of them was a fault of tending to processes. -/
structure ClearedFrom (line : CommandLine) (s : Session) (plans : List Plan) (opened : Trace)
    (r : Result) (es : Trace) : Prop where
  commands : plans.map (fun plan => (plan.command, plan.wiring)) = line.commands.zip line.wirings
  files : ∀ plan ∈ plans, FilesOpened s plan.wiring plan.files opened
  untending : opened.Only fun r => !r.isTending
  cleared : Cleared r es
  piped : es.Calm → PipedFrom line s plans opened es

/-- **Clearing a line.** A foreground pipeline that returns, and for which nothing but output has
failed, has cleared its faults. -/
theorem runPipeline_clears (hfg : line.background = false) :
    Ensures k (runPipeline line) s fun o _ es => es.OutputFails → ∀ r, o = .returned r →
      ∃ plans opened rest, es = opened ++ rest ∧ ClearedFrom line s plans opened r rest := by
  have hopening := ((openStages_asks (k := k) (p := fun r => !r.isTending) (fun _ _ => rfl)
    (fun _ => rfl) (line.commands.zip line.wirings) s).and (openStages_ensures _)).and
      (openStages_succeeds _)
  rw [runPipeline_eq]
  refine hopening.bind ?_ (fun _ _ _ _ _ _ => by simp) fun _ _ _ _ _ => by simp
  rintro ⟨plans, fault⟩ s' opened ⟨⟨⟨-, huntending⟩, rfl, haside, hopened⟩, hsucceeds⟩
  obtain ⟨hplans, hfiles⟩ := hopened _ rfl
  have hbody : Ensures k (runOpened line plans fault) s' fun o _ es => fault = none →
      ∀ ending, o = .returned ending →
        Reckoned ending es ∧ (ending.result.Fair → PipedFrom line s' plans opened es) := by
    cases fault with
    | none =>
      refine ((runStages_reckons hfg plans).and
        (runStages_piped hfg haside (hplans rfl) hfiles)).mono ?_
      rintro o s'' es ⟨hreckons, hpiped⟩ - ending ho
      exact ⟨hreckons ending ho, hpiped ending ho⟩
    | some f => exact (refuse_ensures f).mono fun _ _ _ _ => by simp
  -- closing the files and what is said at the end come behind
  refine (hbody.closing (idsOf plans)).bind ?_ (fun _ _ _ _ _ _ => by simp) fun _ _ _ _ _ => by simp
  rintro ending s'' _ ⟨o, es, closed, rfl, hes, hclosed, hafter⟩
  cases fault with
  | some f =>
    refine (conclude_ensures ending).mono fun o _ es' _ hfails => ?_
    obtain ⟨_, ⟨⟩⟩ := hsucceeds (Trace.outputFails_append.1 hfails).1
  | none =>
    obtain ⟨hreckoned, hpiped⟩ := hes rfl ending (hafter.returned rfl)
    have hcalm : closed.Calm := Trace.calm_of_only (hclosed.mono fun r hr => by
      cases r <;> first | rfl | cases hr)
    have hidle : closed.Only Request.isIdle :=
      hclosed.mono fun r hr => Request.isIdle_of_isAside (Request.isAside_of_isClose hr)
    have hreckoned : Reckoned ending (es ++ closed) := hreckoned.within Trace.calm_nil hcalm
    refine (conclude_clears hreckoned).mono ?_
    intro o _ es' hclears _ r hr
    obtain ⟨hidle', hcleared, hfair⟩ := hclears r hr
    refine ⟨plans, opened, _, rfl, hplans rfl, hfiles, huntending, hcleared, fun hall => ?_⟩
    have hpipedFrom := lasting_pipedFrom plans opened es closed (hpiped (hfair hall)) hidle
    exact lasting_pipedFrom plans opened _ es' hpipedFrom hidle'

/-- What the parts of a pipeline's trace deliver. -/
theorem delivered_of_piped {file : FileId} {stages : List Stage} {relays : List RelayId}
    {loop rest : Trace} (h : Piped line s plans stages relays opened loop rest)
    (hfile : plans.getLast?.bind (·.files.output) = some file) :
    Delivered file (opened ++ (loop ++ rest)) := by
  have hgathered := h.gathered
  rw [hfile] at hgathered
  have hgathered : Gathered (lastPid stages) (some file) rest := hgathered nofun
  have hlast : (opened ++ (loop ++ rest)).spawns.getLast?.join = lastPid stages := by
    rw [← List.append_assoc, h.spawns hgathered, List.getLast?_map, lastPid]
    cases stages.getLast? <;> rfl
  refine ⟨opened ++ loop, rest, (List.append_assoc ..).symm, ?_, ?_⟩
  · have hloop : loop.handed (some file) = [] :=
      Trace.handed_of_only h.launch _ fun e he => by
        obtain ⟨r, o⟩ := e
        cases r <;> first | rfl | cases he
    rw [Trace.handed_append, Trace.handed_of_aside h.aside, hloop]
    rfl
  · rw [hlast]
    exact hgathered

end Shell

open Shell

/-- **Faults of an output file.** Let nothing fail but files that are written to, flushed or closed,
and processes that cannot be started. A foreground pipeline with an output redirection then ends
unless its output goes on without an end. It returns just where no file fails when it is closed, and
then it has delivered its output, or says why not. -/
theorem runPipeline_accounts {line : CommandLine} {s : Session} {out : σ} {o : Outcome Result}
    {w : World (σ × Trace)} {operand : String} (hfg : line.background = false)
    (hout : CommandLine.target? line.output = some operand)
    (hrun : runPipeline line k.traced ⟨s, (out, [])⟩ = (o, w))
    (hfails : w.outside.2.OutputFails) :
    (o = .never → k.bound ≤ w.outside.2.length) ∧
      (o ≠ .never → ((∃ r, o = .returned r) ↔
        ∀ e ∈ w.outside.2, e.request.isClose = true → e.fault? = none)) ∧
      ∀ r, o = .returned r → ∃ file,
        ⟨.openFile (s.resolve operand).toString (if line.append then .append else .write),
          .returned file⟩ ∈ w.outside.2 ∧ Accounts file r w.outside.2 := by
  obtain ⟨-, hwalks⟩ := ((runPipeline_walks line s).run hrun).2
  have harrives := hwalks hfails.ordinary .firm rfl
  have hclosed : Footing.run .firm w.outside.2 ≠ .lost ↔
      ∀ e ∈ w.outside.2, e.request.isClose = true → e.fault? = none := by
    rw [ne_eq, Footing.run_lost_iff hfails (by decide)]
    simp only [not_exists, not_and, not_not]
  refine ⟨?_, fun hended => ?_, fun r hr => ?_⟩
  · rintro rfl
    exact harrives
  · rw [← hclosed]
    cases o with
    | returned r => exact iff_of_true ⟨r, rfl⟩ harrives
    | raised f =>
      have hlost : Footing.run .firm w.outside.2 = .lost := harrives.2
      exact iff_of_false nofun fun hkept => hkept hlost
    | never => exact absurd rfl hended
  · obtain ⟨plans, opened, rest, hes, hcleared⟩ :=
      ((runPipeline_clears hfg (s := s)).run hrun).2 hfails r hr
    have hopened := Host.opened_of_plans hcleared.commands hcleared.files
    rw [hout] at hopened
    obtain ⟨file, hfile, hmem⟩ := hopened
    have hcalm : opened.Calm := Trace.calm_of_only hcleared.untending
    refine ⟨file, by rw [hes]; exact List.mem_append_left _ hmem, ?_, fun hall => ?_, fun hall => ?_⟩
    · intro e he f htending hf
      have hio := hfails.isIo he hf
      rw [hes, List.mem_append] at he
      obtain ⟨hfailure, hreport⟩ := he.elim
        (fun he => by rw [hcalm e he htending] at hf; cases hf)
        fun he => hcleared.cleared.told e he f htending hf hio
      refine ⟨hfailure, ?_⟩
      rw [hes, Trace.reports_append]
      exact List.mem_append_right _ hreport
    · rw [hes] at hall ⊢
      obtain ⟨stages, relays, loop, after, rfl, hpiped⟩ :=
        hcleared.piped (Trace.calm_append.1 hall).2
      exact delivered_of_piped hpiped hfile
    · rw [hes] at hall ⊢
      refine (hcleared.cleared.fair (Trace.calm_append.1 hall).2).imp id ?_
      rintro ⟨hfailure, relay, f, hrelay, hreport⟩
      refine ⟨hfailure, relay, f, List.mem_append_right _ hrelay, ?_⟩
      rw [Trace.reports_append]
      exact List.mem_append_right _ hreport

/-- A host whose program `b` writes a line. -/
def fullHost : Host Host.Scripted where
  programs := Host.Scripted.programs [("a", {}), ("b", { out := Text.encode "hi\n" })]
  patience := 40

/-- A machine with a device at its root that takes nothing. -/
def fullMachine : Host.Machine Host.Scripted :=
  { files := ⟨#[.directory FileSystem.root [("full", 1)], .device .full]⟩ }

/-- The line `a | b > file`. -/
def outputLine (file : String) : CommandLine :=
  { first := ⟨"a", []⟩, others := [⟨"b", []⟩], output := some file }

/-- That line, run there. -/
def outputRun (file : String) : Outcome Result × World (Host.Machine Host.Scripted × Trace) :=
  runPipeline (outputLine file) fullHost.kernel.traced ⟨rootSession, (fullMachine, [])⟩

/-- The plans of that line, with its file opened. -/
def outputPlans (file : String) : List Plan :=
  [⟨⟨"a", []⟩, (outputLine file).wiring 0, {}⟩,
    ⟨⟨"b", []⟩, (outputLine file).wiring 1, { output := some 0 }⟩]

/-- The opening of its file. -/
def outputOpened (file : String) : Trace :=
  [⟨.openFile (rootSession.resolve file).toString .write, .returned (0 : Nat)⟩]

/-- What is left of the run when the file has been opened. -/
def openedRun (file : String) (m : Host.Machine Host.Scripted) :
    Outcome Result × World (Host.Machine Host.Scripted × Trace) :=
  (closing (idsOf (outputPlans file)) (runStages (outputLine file) (outputPlans file)) >>=
    conclude) fullHost.kernel.traced ⟨rootSession, (m, outputOpened file)⟩

theorem outputRun_eq {file : String} {m : Host.Machine Host.Scripted}
    (h : openStages ((outputLine file).commands.zip (outputLine file).wirings)
      fullHost.kernel.traced ⟨rootSession, (fullMachine, [])⟩ =
        (.returned (outputPlans file, none), ⟨rootSession, (m, outputOpened file)⟩)) :
    outputRun file = openedRun file m := by
  rw [outputRun, runPipeline_eq, Shell.bind_run, h]
  rfl

/-- A new file takes all output. -/
theorem outputRun_new : outputRun "new" = openedRun "new" { fullMachine with
    files := ⟨#[.directory FileSystem.root [("full", 1), ("new", 2)], .device .full, .file [] false]⟩
    openings := #[{ node := 2 }]
    handles := #[{ opening := 0, path := "/new", mode := .write }] } :=
  outputRun_eq (by cbv)

/-- The device takes none. -/
theorem outputRun_full : outputRun "full" = openedRun "full" { fullMachine with
    openings := #[{ node := 1 }]
    handles := #[{ opening := 0, path := "/full", mode := .write }] } :=
  outputRun_eq (by cbv)

/-- A file that takes everything gets all output. -/
theorem runPipeline_accounts_new :
    (outputRun "new").2.outside.2.OutputFails ∧
      (outputRun "new").1 = .returned { exitCode := some 0, pids := [1, 2] } ∧
      (outputRun "new").2.outside.2.handed (some 0) = Text.encode "hi\n" ∧
      ∃ file, Accounts file { exitCode := some 0, pids := [1, 2] } (outputRun "new").2.outside.2 ∧
        Delivered file (outputRun "new").2.outside.2 := by
  have hfails : (outputRun "new").2.outside.2.OutputFails := by
    rw [outputRun_new]
    decide +kernel
  have hreturned : (outputRun "new").1 = .returned { exitCode := some 0, pids := [1, 2] } := by
    rw [outputRun_new]
    decide +kernel
  have hcalm : (outputRun "new").2.outside.2.all fun e => e.fault? == none := by
    rw [outputRun_new]
    decide +kernel
  have hforeground : (outputLine "new").background = false := rfl
  have hnamed : CommandLine.target? (outputLine "new").output = some "new" := by decide
  obtain ⟨file, -, haccounts⟩ := (runPipeline_accounts hforeground hnamed
    (run_eta (outputRun "new")) hfails).2.2 _ hreturned
  refine ⟨hfails, hreturned, ?_, file, haccounts, haccounts.delivered fun e he _ => ?_⟩
  · rw [outputRun_new]
    decide +kernel
  · simpa using List.all_eq_true.1 hcalm e he

/-- A fault of flushing comes again when the file is closed. It is reported, and then raised. -/
theorem runPipeline_raises_of_full :
    (outputRun "full").2.outside.2.OutputFails ∧
      (outputRun "full").1 = .raised (.system Fault.noSpace none) ∧
      (outputRun "full").2.outside.2.reports =
        ["error running pipeline: [Errno 28] No space left on device"] := by
  rw [outputRun_full]
  exact ⟨by decide +kernel, by decide +kernel, by decide +kernel⟩

end LineShell
