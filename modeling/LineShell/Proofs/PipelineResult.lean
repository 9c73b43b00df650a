import LineShell.Proofs.Containment
import LineShell.Proofs.Targets

namespace LineShell

/-!
# What the result of a pipeline tells

* `Trace.codeOf`, `Trace.lastExit` — the exit code that a process is known to have, and that of the
  last stage of a line;
* `Trace.trouble`, `Trace.verdict` — how a line has failed, by what its run has met;
* `Shell.Resolved`, `awaitPipeline_resolves` — what tending to a pipeline makes of its faults;
* `Shell.Pending`, `runStages_pends` — what has come of a pipeline when its files are closed;
* `reportRelays_sums`, `conclude_sums` — what the faults of relays add to that;
* `Reflects`, `runPipeline_reflects` — the result of a foreground pipeline tells what has happened.

The definitions read off the events of a run what its result is to tell. They know nothing of the
handlers by which the interpreter comes to it.
-/

variable {σ α β : Type} {k : Kernel σ} {s : Session}

/-! ### What a trace tells of a line -/

/-- Whether a request asks for the fault of a relay. -/
def Request.isConsulting : Request → Bool
  | .relayFault _ => true
  | _ => false

/-- Whether a request is one that tending to a line takes, or leaving it. -/
def Request.isSettling (r : Request) : Bool := r.isTending || r.isLeaving

/-- Whether a request is one that is made when the files of a line have been closed. -/
def Request.isSaying : Request → Bool
  | .report _ | .relayFault _ => true
  | _ => false

namespace Event

/-- Whether a request that tends to processes has met a fault. -/
def isTrouble (e : Event) : Bool := e.request.isTending && e.fault?.isSome

/-- The code that a wait for a process has answered. -/
def exitCode? (pid : ProcessId) : Event → Option Int
  | ⟨.wait other, .returned code⟩ => if other = pid then some code else none
  | _ => none

/-- The relay that an event has started. -/
def relay? : Event → Option RelayId
  | ⟨.startRelay .., .returned relay⟩ => some relay
  | _ => none

/-- The relay that is asked for its fault. -/
def consulted? : Event → Option RelayId
  | ⟨.relayFault relay, _⟩ => some relay
  | _ => none

/-- Whether a relay has answered that a fault has ended it. -/
def isRelayFault : Event → Bool
  | ⟨.relayFault _, .returned (some _)⟩ => true
  | _ => false

theorem eq_of_exitCode? {e : Event} {pid : ProcessId} {code : Int}
    (h : e.exitCode? pid = some code) : e = ⟨.wait pid, .returned code⟩ := by
  obtain ⟨r, o⟩ := e
  cases r with
  | wait other =>
    cases o with
    | returned code' =>
      obtain ⟨rfl, hcode⟩ := Option.ite_none_right_eq_some.1 h
      rw [Option.some.inj hcode]
    | _ => cases h
  | _ => cases h

end Event

namespace Trace

/-- The code that a process exits with by the first wait for it that returns. It is not known if
tending to processes has met a fault before. -/
def codeOf (pid : ProcessId) : Trace → Option Int
  | [] => none
  | e :: es => if e.isTrouble then none else (e.exitCode? pid).or (codeOf pid es)

/-- The exit code of the last process of a line. A process that was not started counts as one that
has exited. -/
def exitOf (last : Option ProcessId) (es : Trace) : Option Int :=
  match last with
  | none => some 127
  | some pid => es.codeOf pid

/-- The exit code of the last stage that was tried to start. -/
def lastExit (es : Trace) : Option Int := es.exitOf es.spawns.getLast?.join

/-- Whether tending to processes has met a fault of some kind. -/
def met (p : Fault → Bool) (es : Trace) : Bool :=
  es.any fun e => e.request.isTending && e.fault?.any p

/-- The failure of a line that comes of tending to its processes. -/
def trouble (es : Trace) : Option Failure :=
  if es.met (· == .interrupt) then some .interrupted
  else if es.met Fault.isIo then some .io
  else none

/-- The failure of a line that comes of faults of relays. -/
def relayFailure (es : Trace) : Option Failure :=
  if es.any Event.isRelayFault then some .io else none

/-- The failure of a line, the gravest first: an interrupt, a fault of draining or waiting, a stage
that was not started, a fault of a relay. -/
def verdict (es : Trace) : Option Failure :=
  if es.met (· == .interrupt) then some .interrupted
  else if es.met Fault.isIo then some .io
  else if none ∈ es.spawns then some .spawn
  else if es.any Event.isRelayFault then some .io
  else none

/-- The relays that were started, in order. -/
def relays (es : Trace) : List RelayId := es.filterMap Event.relay?

/-- The relays that were asked for their faults, in order. -/
def consulted (es : Trace) : List RelayId := es.filterMap Event.consulted?

variable {es es' : Trace} {pid : ProcessId}

/-! ### Traces in parts -/

theorem isTrouble_eq_false_of_calm (h : es.Calm) : ∀ e ∈ es, e.isTrouble = false := by
  intro e he
  cases htending : e.request.isTending with
  | false => simp [Event.isTrouble, htending]
  | true => simp [Event.isTrouble, h e he htending]

/-- What tells nothing of a process may come first. -/
theorem codeOf_append (h : es.Calm) (hwait : ∀ e ∈ es, e.exitCode? pid = none) (es' : Trace) :
    codeOf pid (es ++ es') = codeOf pid es' := by
  induction es with
  | nil => rfl
  | cons e es ih =>
    have htrouble := isTrouble_eq_false_of_calm h e List.mem_cons_self
    rw [List.cons_append, codeOf, htrouble, hwait e List.mem_cons_self]
    exact ih (fun v hv => h v (List.mem_cons_of_mem e hv))
      fun v hv => hwait v (List.mem_cons_of_mem e hv)

/-- **Exit codes.** A process is known to exit with a code just where a wait for it answers so, none
has answered before, and tending to processes has met no fault until then. -/
theorem codeOf_eq_some_iff {code : Int} : es.codeOf pid = some code ↔ ∃ init rest : Trace,
    es = init ++ ⟨.wait pid, .returned code⟩ :: rest ∧ init.Calm ∧
      ∀ e ∈ init, e.exitCode? pid = none := by
  constructor
  · induction es with
    | nil => exact nofun
    | cons e es ih =>
      intro h
      rw [codeOf] at h
      split at h
      · cases h
      next hsound =>
        cases hexit : e.exitCode? pid with
        | some code' =>
          rw [hexit, Option.some_or, Option.some.injEq] at h
          subst h
          obtain rfl := Event.eq_of_exitCode? hexit
          exact ⟨[], es, rfl, calm_nil, List.forall_mem_nil _⟩
        | none =>
          rw [hexit, Option.none_or] at h
          obtain ⟨init, rest, rfl, hcalm, hwait⟩ := ih h
          refine ⟨e :: init, rest, rfl, ?_, List.forall_mem_cons.2 ⟨hexit, hwait⟩⟩
          refine List.forall_mem_cons.2 ⟨fun htending => ?_, hcalm⟩
          simpa [Event.isTrouble, htending] using hsound
  · rintro ⟨init, rest, rfl, hcalm, hwait⟩
    rw [codeOf_append hcalm hwait]
    simp [codeOf, Event.isTrouble, Event.fault?, Event.exitCode?]

theorem codeOf_of_trouble (h : es.Calm) (hwait : ∀ e ∈ es, e.exitCode? pid = none) {e : Event}
    (he : e.isTrouble = true) (rest : Trace) : codeOf pid (es ++ e :: rest) = none := by
  rw [codeOf_append h hwait, codeOf, if_pos he]

theorem exitOf_append (h : es.Calm) (hwait : ∀ pid, ∀ e ∈ es, e.exitCode? pid = none)
    (last : Option ProcessId) (es' : Trace) : exitOf last (es ++ es') = exitOf last es' := by
  cases last with
  | none => rfl
  | some pid => exact codeOf_append h (hwait pid) es'

theorem exitCode?_eq_none {p : Request → Bool} (h : es.Only p)
    (hp : ∀ pid, p (.wait pid) = false) (pid : ProcessId) : ∀ e ∈ es, e.exitCode? pid = none := by
  intro e he
  have hkind := h e he
  obtain ⟨r, o⟩ := e
  cases r with
  | wait other =>
    rw [hp] at hkind
    cases hkind
  | _ => rfl

theorem met_append (p : Fault → Bool) (es es' : Trace) :
    met p (es ++ es') = (es.met p || es'.met p) := List.any_append

theorem met_of_calm (h : es.Calm) (p : Fault → Bool) : es.met p = false := by
  rw [met, List.any_eq_false]
  intro e he
  cases htending : e.request.isTending with
  | false => simp
  | true => simp [h e he htending]

/-- Only a fault between calm parts is met. -/
theorem met_of_fault {init rest : Trace} {e : Event} {f : Fault} (hinit : init.Calm)
    (hrest : rest.Calm) (htending : e.request.isTending = true) (hf : e.fault? = some f)
    (p : Fault → Bool) : met p (init ++ [e] ++ rest) = p f := by
  rw [met_append, met_append, met_of_calm hinit, met_of_calm hrest]
  simp [met, htending, hf]

theorem trouble_of_calm (h : es.Calm) : es.trouble = none := by
  simp [trouble, met_of_calm h]

/-- Calm parts around a trace add no trouble. -/
theorem trouble_within (h : es.Calm) (h' : es'.Calm) (mid : Trace) :
    trouble (es ++ mid ++ es') = trouble mid := by
  simp [trouble, met_append, met_of_calm h, met_of_calm h']

/-- A stage that was not started, or a fault of a relay, counts where there is no trouble. -/
theorem verdict_eq (es : Trace) : es.verdict = (es.trouble.or
    (if none ∈ es.spawns then some .spawn else none)).or es.relayFailure := by
  unfold verdict trouble relayFailure
  split_ifs <;> rfl

theorem verdict_eq_none_iff : es.verdict = none ↔
    es.trouble = none ∧ none ∉ es.spawns ∧ es.any Event.isRelayFault = false := by
  rw [verdict_eq, relayFailure, Option.or_eq_none_iff, Option.or_eq_none_iff]
  simp [and_assoc]

@[simp] theorem relays_append (es es' : Trace) : relays (es ++ es') = es.relays ++ es'.relays :=
  List.filterMap_append

@[simp] theorem consulted_append (es es' : Trace) :
    consulted (es ++ es') = es.consulted ++ es'.consulted := List.filterMap_append

theorem relayFailure_append (es es' : Trace) :
    relayFailure (es ++ es') = es.relayFailure.or es'.relayFailure := by
  unfold relayFailure
  rw [List.any_append]
  cases es.any Event.isRelayFault <;> rfl

theorem relays_of_only {p : Request → Bool} (h : es.Only p)
    (hp : ∀ writer reader chunk, p (.startRelay writer reader chunk) = false) :
    es.relays = [] := by
  refine List.filterMap_eq_nil_iff.2 fun e he => ?_
  have hkind := h e he
  obtain ⟨r, o⟩ := e
  cases r with
  | startRelay writer reader chunk =>
    rw [hp] at hkind
    cases hkind
  | _ => rfl

/-- Where no relay is asked, none has a fault. -/
theorem consulted_of_only {p : Request → Bool} (h : es.Only p)
    (hp : ∀ relay, p (.relayFault relay) = false) : es.consulted = [] ∧ es.relayFailure = none := by
  have hnone : ∀ e ∈ es, e.consulted? = none ∧ e.isRelayFault = false := by
    intro e he
    have hkind := h e he
    obtain ⟨r, o⟩ := e
    cases r with
    | relayFault relay =>
      rw [hp] at hkind
      cases hkind
    | _ => exact ⟨rfl, rfl⟩
  refine ⟨List.filterMap_eq_nil_iff.2 fun e he => (hnone e he).1, ?_⟩
  rw [relayFailure, if_neg]
  rw [Bool.not_eq_true, List.any_eq_false]
  exact fun e he => by simp [(hnone e he).2]

end Trace

namespace Shell

/-! ### Tending to a pipeline -/

variable {line : CommandLine} {sink : Option FileId} {stages : List Stage} {relays : List RelayId}
  {es : Trace}

/-- Draining a process and waiting for it makes its exit code known, or meets a fault before. -/
theorem drainLast_exit (last : Option ProcessId) :
    Ensures k (drainLast sink last) s fun o _ es => match o with
      | .returned code => ∀ rest, Trace.exitOf last (es ++ rest) = some code
      | .raised _ => ∀ rest, Trace.exitOf last (es ++ rest) = none
      | .never => True := by
  cases last with
  | none => exact .pure fun _ => rfl
  | some pid =>
    refine ((drain_performs pid sink).and (drain_straight pid sink s)).bind ?_ ?_
      fun _ _ _ => trivial
    · rintro _ s' es ⟨⟨rfl, hdrain, -⟩, hsmooth⟩
      -- the drain was calm, so what comes of closing and waiting decides
      have hcalm : es.Calm := hsmooth.calm
      have hwait := Trace.exitCode?_eq_none hdrain (fun _ => rfl) pid
      have hstop : ∀ {e : Event}, e.isTrouble = true →
          ∀ rest, Trace.exitOf (some pid) (es ++ [e] ++ rest) = none := fun he rest => by
        rw [List.append_assoc]
        exact Trace.codeOf_of_trouble hcalm hwait he rest
      refine .ask_bind (fun u => ?_) (fun f => hstop rfl) trivial
      have hclosed : Trace.Calm (es ++ [⟨.closeOutput pid, .returned u⟩]) :=
        Trace.calm_append.2 ⟨hcalm, by simp [Trace.Calm, Event.fault?]⟩
      have hwait : ∀ e ∈ es ++ [⟨.closeOutput pid, .returned u⟩], e.exitCode? pid = none :=
        List.forall_mem_append.2 ⟨hwait, by simp [Event.exitCode?]⟩
      refine .ask fun o => ?_
      cases o with
      | returned code =>
        intro rest
        exact Trace.codeOf_eq_some_iff.2 ⟨_, rest, by simp, hclosed, hwait⟩
      | raised f =>
        intro rest
        simpa [Trace.exitOf] using
          Trace.codeOf_of_trouble hclosed hwait (e := ⟨.wait pid, .raised f⟩) rfl rest
      | never => trivial
    · rintro f s' es ⟨⟨rfl, hdrain, -⟩, init, e, rfl, hinit, hf⟩ rest
      obtain ⟨hdrain, he⟩ := Trace.only_append.1 hdrain
      have htending := Request.isTending_of_isDrain (he e List.mem_cons_self)
      rw [List.append_assoc]
      exact Trace.codeOf_of_trouble hinit.calm (Trace.exitCode?_eq_none hdrain (fun _ => rfl) pid)
        (by simp [Event.isTrouble, htending, hf]) rest

/-- Collecting answers with the exit code of the last process as far as it has come to be known. It
is known unless a fault stood in the way. -/
theorem collect_exit : Ensures k (collect sink stages relays) s fun o _ es =>
    ∀ c, o = .returned c →
      (∀ rest, Trace.exitOf (lastPid stages) (es ++ rest) = c.exitCode) ∧
        (c.exitCode = none → c.fault ≠ none) := by
  refine Ensures.attempt_bind (drainLast_exit _) ?_ ?_ fun _ _ _ _ => nofun
  · intro code s' es hcode
    -- what comes of the waits for the others does not change it
    have hcode' : ∀ es' rest, Trace.exitOf (lastPid stages) (es ++ es' ++ rest) = some code :=
      fun es' rest => by rw [List.append_assoc]; exact hcode _
    refine Ensures.attempt_bind (awaitOthers_straight s') ?_ ?_ fun _ _ _ _ => nofun
    · intro _ s'' es' _
      refine .pure ?_
      rintro _ ⟨⟩
      rw [List.append_nil]
      exact ⟨hcode' es', nofun⟩
    · intro f s'' es' _
      refine .pure ?_
      rintro _ ⟨⟩
      rw [List.append_nil]
      exact ⟨hcode' es', nofun⟩
  · intro f s' es hnone
    refine .pure ?_
    rintro _ ⟨⟩
    rw [List.append_nil]
    exact ⟨hnone, fun _ => nofun⟩

/-- What tending to a pipeline makes of the result with which it was started. -/
structure Resolved (last : Option ProcessId) (relays : List RelayId) (result : Result)
    (ending : Ending) (es : Trace) : Prop where
  settling : es.Only Request.isSettling
  result : ending.result = { result with
    exitCode := ending.result.exitCode, failure := es.trouble.or result.failure }
  /-- What follows does not change what is known of the last process. -/
  exitCode : ∀ rest, Trace.exitOf last (es ++ rest) = ending.result.exitCode
  known : ending.result.exitCode = none → ¬es.Calm
  /-- The relays are still to be asked, unless there was trouble. -/
  exited : ∀ r relays' lastStarted, ending = .exited r relays' lastStarted →
    relays' = relays ∧ es.Calm
  done : ∀ r, ending = .done r → es.trouble ≠ none

/-- Leaving a line to the registry tends to no process. -/
theorem leaveInterrupted_settles (text : String) (stages : List Stage) :
    Ensures k (leaveInterrupted text stages) s fun o _ es =>
      es.Only Request.isSettling ∧ (o = .returned () → es.Calm) := by
  have hreport : ∀ o, Trace.Only Request.isLeaving [⟨.report text, o⟩] := fun o => by
    simp [Request.isLeaving]
  have hleaves : Ensures k (leaveInterrupted text stages) s fun _ _ es =>
      es.Only Request.isLeaving :=
    .modifySession_bind (.ask_bind (fun _ => (detach_leaves stages).mono fun _ _ es h =>
      Trace.only_cons.2 ⟨rfl, h.1⟩) (fun _ => hreport _) (hreport _))
  refine hleaves.mono fun o s' es h => ⟨h.mono fun r hr => ?_, fun _ => ?_⟩
  · rw [Request.isSettling, hr, Bool.or_true]
  · exact Trace.calm_of_only (h.mono Request.not_isTending_of_isLeaving)

/-- Waiting for all processes after a fault was reported returns only without another fault. -/
theorem waitOut_settles (text : String) (stages : List Stage) :
    Ensures k (report text >>= fun _ => (pidsOf stages).forM fun pid => do let _ ← wait pid) s
      fun o _ es => es.Only Request.isSettling ∧ (o = .returned () → es.Calm) := by
  have hasks : Asks k Request.isSettling (report text >>= fun _ =>
      (pidsOf stages).forM fun pid => do let _ ← wait pid) :=
    (Asks.ask rfl).bind fun _ => waitAll_asks (fun _ => rfl) _
  have hfaithful : Faithful k (report text >>= fun _ =>
      (pidsOf stages).forM fun pid => do let _ ← wait pid) :=
    .bind (.ask _) fun _ => .forM fun _ => .bind (.ask _) fun _ => .pure ()
  refine ((hasks s).and (hfaithful s)).mono ?_
  rintro o s' es ⟨⟨-, hes⟩, hiff⟩
  exact ⟨hes, fun ho => (hiff.1 ⟨_, ho⟩).calm⟩

/-- The failure that a fault of tending to a line makes, if the line returns after it. -/
def failureOf (f : Fault) : Option Failure :=
  if f = .interrupt then some .interrupted else if f.isIo then some .io else none

/-- What is done about a fault, if it returns, makes the fault the failure of the line. -/
theorem done_resolves (relays : List RelayId) (result : Result) {last : Option ProcessId}
    {x : Shell (σ × Trace) Unit} {init : Trace} {e : Event} {f : Fault} {code : Option Int}
    {failure : Failure} (hinit : init.Calm)
    (hsettling : Trace.Only Request.isSettling (init ++ [e]))
    (htending : e.request.isTending = true) (hf : e.fault? = some f)
    (hfailure : failureOf f = some failure)
    (hcode : ∀ rest, Trace.exitOf last (init ++ [e] ++ rest) = code)
    (hx : Ensures k x s fun o _ es =>
      es.Only Request.isSettling ∧ (o = .returned () → es.Calm)) :
    Ensures k (x >>= fun _ => pure (Ending.done { result with
        exitCode := code, failure := some failure })) s fun o _ es =>
      ∀ ending, o = .returned ending → Resolved last relays result ending (init ++ [e] ++ es) := by
  refine hx.bind ?_ (fun _ _ _ _ _ => by simp) fun _ _ _ _ => by simp
  rintro _ s' es ⟨hsettling', hcalm⟩
  refine .pure ?_
  rintro _ ⟨⟩
  have htrouble : Trace.trouble (init ++ [e] ++ es) = some failure := by
    rw [← hfailure, Trace.trouble, failureOf]
    simp only [Trace.met_of_fault hinit (hcalm rfl) htending hf, beq_iff_eq]
  rw [List.append_nil]
  refine ⟨Trace.only_append.2 ⟨hsettling, hsettling'⟩, ?_, fun rest => ?_, fun _ hall => ?_,
    fun _ _ _ => by simp, fun _ _ => ?_⟩
  · rw [htrouble]
    rfl
  · rw [List.append_assoc]
    exact hcode _
  · have hnone := hall e (by simp) htending
    rw [hf] at hnone
    cases hnone
  · rw [htrouble]
    simp

/-- **Tending to a pipeline.** The first fault of tending to a pipeline decides, where it returns at
all: an interrupt is one of the line, and a fault of input or output is its failure. -/
theorem awaitPipeline_resolves (result : Result) :
    Ensures k (awaitPipeline sink stages relays result) s fun o _ es =>
      ∀ ending, o = .returned ending → Resolved (lastPid stages) relays result ending es := by
  refine Ensures.bind ((collect_stops.and collect_performs).and collect_exit) ?_
    (fun _ _ _ _ _ => by simp) fun _ _ _ _ => by simp
  rintro ⟨code, fault⟩ s' es ⟨⟨hstops, -, htend, -⟩, hexit⟩
  obtain ⟨hcode, hknown⟩ := hexit _ rfl
  have hsettling : es.Only Request.isSettling := htend.mono fun r hr => by
    rw [Request.isSettling, hr, Bool.true_or]
  cases fault with
  | none =>
    have hsmooth : es.Smooth := hstops
    have htrouble := Trace.trouble_of_calm hsmooth.calm
    refine .pure ?_
    rintro _ ⟨⟩
    rw [List.append_nil]
    refine ⟨hsettling, ?_, hcode, fun h => absurd rfl (hknown h), ?_, fun _ => by simp⟩
    · rw [htrouble]
      rfl
    · rintro _ _ _ ⟨⟩
      exact ⟨rfl, hsmooth.calm⟩
  | some f =>
    obtain ⟨init, e, rfl, hinit, hf⟩ : es.StopsAt f := hstops
    have htending : e.request.isTending = true := htend e (by simp)
    cases f with
    | interrupt =>
      exact done_resolves relays result hinit.calm hsettling htending hf rfl hcode
        (leaveInterrupted_settles _ _)
    | system | described | brokenPipe | cannotOpen =>
      simp only [Fault.isIo, if_true]
      rw [← bind_assoc]
      exact done_resolves relays result hinit.calm hsettling htending hf rfl hcode
        (waitOut_settles _ _)
    | invalid | wrongKind | outOfRange | linkLoop => exact .raise fun _ => by simp

/-! ### The relays -/

/-- Each relay is asked for its fault, and a fault is the failure of a line that had none. -/
theorem reportRelays_sums (r : Result) (relays : List RelayId) :
    Ensures k (reportRelays r relays) s fun o _ es => ∀ r', o = .returned r' →
      r' = { r with failure := r.failure.or es.relayFailure } ∧ es.consulted = relays := by
  induction relays generalizing r with
  | nil =>
    refine .pure ?_
    rintro _ ⟨⟩
    refine ⟨?_, rfl⟩
    show r = { r with failure := r.failure.or none }
    rw [Option.or_none]
  | cons relay relays ih =>
    refine .ask_bind (fun fault => ?_) (fun _ _ => nofun) fun _ => nofun
    cases fault with
    | none =>
      refine (ih r).mono fun o s' es h r' hr' => ?_
      obtain ⟨rfl, hconsulted⟩ := h r' hr'
      exact ⟨rfl, congrArg (relay :: ·) hconsulted⟩
    | some f =>
      refine .ask_bind (fun _ => ?_) (fun _ _ => nofun) fun _ => nofun
      refine (ih _).mono fun o s' es h r' hr' => ?_
      obtain ⟨rfl, hconsulted⟩ := h r' hr'
      refine ⟨?_, congrArg (relay :: ·) hconsulted⟩
      have hor : (r.failure <|> some Failure.io).or (Trace.relayFailure es) =
          r.failure.or (some .io) := by
        cases r.failure <;> rfl
      exact congrArg (fun failure => { r with failure := failure }) hor

theorem reportRelays_asks (r : Result) (relays : List RelayId) :
    Asks k Request.isSaying (reportRelays r relays) := by
  induction relays generalizing r with
  | nil => exact .pure r
  | cons relay relays ih =>
    refine (Asks.ask rfl).bind fun fault => ?_
    cases fault with
    | none => exact ih r
    | some f => exact (Asks.ask rfl).bind fun _ => ih _

theorem conclude_asks (ending : Ending) : Asks k Request.isSaying (conclude ending) := by
  cases ending with
  | done r => exact .pure r
  | exited r relays lastStarted =>
    refine (reportRelays_asks r relays).bind fun r' => ?_
    exact (reportExit_asks_of (fun _ => rfl) r' lastStarted).bind fun _ => .pure _

/-- What is said at the end of a line adds the faults of its relays, if they are still to be
asked. -/
theorem conclude_sums (ending : Ending) : Ensures k (conclude ending) s fun o _ es =>
    ∀ r, o = .returned r →
      r = { ending.result with failure := ending.result.failure.or es.relayFailure } ∧
        ∀ r' relays lastStarted, ending = .exited r' relays lastStarted →
          es.consulted = relays := by
  cases ending with
  | done result =>
    refine .pure ?_
    rintro _ ⟨⟩
    refine ⟨?_, fun _ _ _ => nofun⟩
    show result = { result with failure := result.failure.or none }
    rw [Option.or_none]
  | exited result relays lastStarted =>
    refine (reportRelays_sums result relays).bind ?_ (fun _ _ _ _ _ => nofun) fun _ _ _ _ => nofun
    intro r s' es hr
    obtain ⟨rfl, hconsulted⟩ := hr r rfl
    have hexit : Asks k (fun r => !r.isConsulting) (reportExit { result with
        failure := result.failure.or es.relayFailure } lastStarted) :=
      reportExit_asks_of (fun _ => rfl) _ lastStarted
    refine (hexit s').bind ?_ (fun _ _ _ _ _ => nofun) fun _ _ _ _ => nofun
    rintro _ s'' es' ⟨-, hquiet⟩
    obtain ⟨hconsulted', hfailure⟩ := Trace.consulted_of_only hquiet fun _ => rfl
    refine .pure ?_
    rintro _ ⟨⟩
    rw [List.append_nil, Trace.relayFailure_append, hfailure, Option.or_none,
      Trace.consulted_append, hconsulted', List.append_nil, hconsulted]
    refine ⟨rfl, ?_⟩
    rintro _ _ _ ⟨⟩
    rfl

/-! ### Starting a pipeline and tending to it -/

variable {foreground : Bool} {chunk : Int} {before : Predecessor} {plans : List Plan}

theorem Started.relays_eq_nil {command : Command} {streams : Streams} {pid : Option ProcessId}
    (h : Started command streams s pid es) : es.relays = [] := by
  obtain ⟨init, rest, o, rfl, hinit, hrest, -⟩ := h
  have hnone := Trace.relays_of_only hrest fun _ _ _ => rfl
  rw [Trace.relays_append, Trace.relays_of_only hinit fun _ _ _ => rfl, List.nil_append]
  exact hnone

/-- Starting the stages of a line starts just the relays that are to be asked. -/
theorem Launched.relays_eq (h : Launched foreground chunk s before plans stages relays es) :
    es.relays = relays := by
  induction h with
  | nil => rfl
  | @cons before _ _ _ _ _ _ _ es' _ hstarted hlinked _ ih =>
    rw [Trace.relays_append, Trace.relays_append, hstarted.relays_eq_nil, ih, List.nil_append]
    congr 1
    cases before with
    | running up =>
      obtain ⟨relay, rfl, rfl⟩ := hlinked
      rfl
    | none =>
      obtain ⟨rfl, rfl⟩ := hlinked
      rfl
    | missing =>
      obtain ⟨rfl, rfl⟩ := hlinked
      rfl

/-- What has come of a line whose stages have been started and tended to. -/
structure Pending (n : Nat) (ending : Ending) (es : Trace) : Prop where
  tried : es.spawns.length = n
  result : ending.result = {
    exitCode := ending.result.exitCode, pids := es.started
    failure := es.trouble.or (if none ∈ es.spawns then some .spawn else none) }
  exitCode : ∀ rest, Trace.exitOf es.spawns.getLast?.join (es ++ rest) = ending.result.exitCode
  known : ending.result.exitCode = none → ¬es.Calm
  exited : ∀ r relays lastStarted, ending = .exited r relays lastStarted →
    relays = es.relays ∧ es.Calm
  done : ∀ r, ending = .done r → es.trouble ≠ none
  unasked : es.consulted = [] ∧ es.relayFailure = none

theorem any_isNone_iff (stages : List Stage) :
    stages.any (·.pid.isNone) = true ↔ none ∈ stages.map Stage.pid := by
  simp only [List.any_eq_true, Option.isNone_iff_eq_none, List.mem_map]

/-- **Starting and tending.** Each stage of a foreground line is tried, and then the line is tended
to. -/
theorem runStages_pends (hfg : line.background = false) (plans : List Plan) :
    Ensures k (runStages line plans) s fun o _ es =>
      ∀ ending, o = .returned ending → Pending plans.length ending es := by
  rw [runStages_eq]
  refine .session_bind (Ensures.bind ((launch_asks_of (p := Request.isStarting) (fun _ h => h)
    _ _ _ plans s).and launch_performs) ?_ (fun _ _ _ _ _ => nofun) fun _ _ _ _ => nofun)
  rintro ⟨stages, relays⟩ s' launch ⟨⟨rfl, hstarting⟩, -, -, hlaunched⟩
  simp only [settle, CommandLine.blocks, hfg, Bool.not_false, if_true]
  refine (awaitPipeline_resolves _).mono fun o s'' es h ending ho => ?_
  have h := h ending ho
  -- processes and relays are started by the launch only, and faults are met after it
  have hspawns : Trace.spawns (launch ++ es) = stages.map Stage.pid := by
    rw [Trace.spawns_append, hlaunched.spawns, Trace.spawns_of_no_spawn, List.append_nil]
    refine h.settling.mono fun r hr => ?_
    cases r <;> first | rfl | cases hr
  have hrelays : Trace.relays (launch ++ es) = relays := by
    rw [Trace.relays_append, hlaunched.relays_eq, Trace.relays_of_only h.settling fun _ _ _ => rfl,
      List.append_nil]
  have hcalm : launch.Calm :=
    Trace.calm_of_only (hstarting.mono Request.not_isTending_of_isStarting)
  have htrouble : Trace.trouble (launch ++ es) = es.trouble := by
    simpa using Trace.trouble_within hcalm Trace.calm_nil es
  have hlast : (stages.map Stage.pid).getLast?.join = lastPid stages := by
    rw [List.getLast?_map, lastPid]
    cases stages.getLast? <;> rfl
  have hwait : ∀ pid, ∀ e ∈ launch, e.exitCode? pid = none :=
    Trace.exitCode?_eq_none hstarting fun _ => rfl
  refine ⟨?_, ?_, fun rest => ?_, fun hnone hall => ?_, fun r relays' started hending => ?_, ?_, ?_⟩
  · rw [hspawns, List.length_map, hlaunched.length_eq]
  · rw [h.result, htrouble, Trace.started, hspawns, List.filterMap_map]
    simp only [any_isNone_iff]
    rfl
  · rw [hspawns, hlast, List.append_assoc, Trace.exitOf_append hcalm hwait, h.exitCode]
  · exact h.known hnone (Trace.calm_append.1 hall).2
  · obtain ⟨rfl, hes⟩ := h.exited r relays' started hending
    exact ⟨hrelays.symm, Trace.calm_append.2 ⟨hcalm, hes⟩⟩
  · rw [htrouble]
    exact h.done
  · obtain ⟨hconsulted, hfailure⟩ := Trace.consulted_of_only hstarting fun _ => rfl
    obtain ⟨hconsulted', hfailure'⟩ := Trace.consulted_of_only h.settling fun _ => rfl
    rw [Trace.consulted_append, Trace.relayFailure_append, hconsulted, hconsulted', hfailure,
      hfailure']
    exact ⟨rfl, rfl⟩

/-- Opening and closing files around it changes nothing of what has come of a line. -/
theorem Pending.within {n : Nat} {ending : Ending} {opened closed : Trace}
    (h : Pending n ending es) (hopened : opened.Only Request.isFiling)
    (hclosed : closed.Only Request.isFiling) : Pending n ending (opened ++ es ++ closed) := by
  -- neither part starts anything, tends to anything or asks for a fault
  have hnone : ∀ {es : Trace}, es.Only Request.isFiling → es.spawns = [] ∧ es.relays = [] ∧
      es.Calm ∧ es.consulted = [] ∧ es.relayFailure = none := fun hes =>
    ⟨Trace.spawns_of_no_spawn (hes.mono fun r hr => by cases r <;> first | rfl | cases hr),
      Trace.relays_of_only hes fun _ _ _ => rfl,
      Trace.calm_of_only (hes.mono fun r hr => by cases r <;> first | rfl | cases hr),
      Trace.consulted_of_only hes fun _ => rfl⟩
  obtain ⟨hspawns, hrelays, hcalm, hconsulted, hfailure⟩ := hnone hopened
  obtain ⟨hspawns', hrelays', hcalm', hconsulted', hfailure'⟩ := hnone hclosed
  have hsame : Trace.spawns (opened ++ es ++ closed) = es.spawns := by simp [hspawns, hspawns']
  have htrouble := Trace.trouble_within hcalm hcalm' es
  refine ⟨?_, ?_, fun rest => ?_, fun hexit hall => ?_, fun r relays started hending => ?_, ?_, ?_⟩
  · rw [hsame, h.tried]
  · rw [Trace.started, hsame, htrouble]
    exact h.result
  · rw [hsame, List.append_assoc, List.append_assoc,
      Trace.exitOf_append hcalm (Trace.exitCode?_eq_none hopened fun _ => rfl), h.exitCode]
  · exact h.known hexit (Trace.calm_append.1 (Trace.calm_append.1 hall).1).2
  · obtain ⟨rfl, hes⟩ := h.exited r relays started hending
    refine ⟨by simp [hrelays, hrelays'], ?_⟩
    exact Trace.calm_append.2 ⟨Trace.calm_append.2 ⟨hcalm, hes⟩, hcalm'⟩
  · rw [htrouble]
    exact h.done
  · simp [Trace.relayFailure_append, hconsulted, hconsulted', hfailure, hfailure', h.unasked]

end Shell

open Shell

/-! ### Results -/

/-- A result tells what has happened to a foreground line. -/
structure Reflects (line : CommandLine) (r : Result) (es : Trace) : Prop where
  /-- Each stage was tried once. -/
  tried : es.spawns.length = line.commands.length
  result : r = { exitCode := es.lastExit, pids := es.started, failure := es.verdict }
  /-- The exit code of the last stage is known unless a fault of draining or waiting, or an
  interrupt, has come before. -/
  known : r.exitCode = none → ¬es.Calm
  /-- Without such a fault each relay was asked for its own. -/
  asked : es.Calm → es.consulted = es.relays
  success : r.success = true ↔ none ∉ es.spawns ∧ es.Calm ∧
    es.any Event.isRelayFault = false ∧ es.lastExit = some 0

theorem Shell.Pending.reflects {line : CommandLine} {ending : Ending} {r : Result}
    {es said : Trace} (h : Pending line.commands.length ending es)
    (hsaid : said.Only Request.isSaying)
    (hr : r = { ending.result with failure := ending.result.failure.or said.relayFailure })
    (hexited : ∀ r' relays lastStarted, ending = .exited r' relays lastStarted →
      said.consulted = relays) : Reflects line r (es ++ said) := by
  have hcalm : said.Calm :=
    Trace.calm_of_only (hsaid.mono fun r hr => by cases r <;> first | rfl | cases hr)
  have hnone : said.spawns = [] :=
    Trace.spawns_of_no_spawn (hsaid.mono fun r hr => by cases r <;> first | rfl | cases hr)
  have hspawns : Trace.spawns (es ++ said) = es.spawns := by
    rw [Trace.spawns_append, hnone, List.append_nil]
  have hrelays : Trace.relays (es ++ said) = es.relays := by
    rw [Trace.relays_append, Trace.relays_of_only hsaid fun _ _ _ => rfl, List.append_nil]
  have htrouble : Trace.trouble (es ++ said) = es.trouble := by
    simpa using Trace.trouble_within Trace.calm_nil hcalm es
  have hexit : Trace.lastExit (es ++ said) = ending.result.exitCode := by
    rw [Trace.lastExit, hspawns, h.exitCode]
  have hfailure : Trace.verdict (es ++ said) = r.failure := by
    rw [Trace.verdict_eq, htrouble, hspawns, Trace.relayFailure_append, h.unasked.2,
      Option.none_or, hr, h.result]
  have hcalm_iff : Trace.Calm (es ++ said) ↔ es.Calm := by
    rw [Trace.calm_append, and_iff_left hcalm]
  -- a fault that is none of a line's failures does not let the line come so far
  have htrouble_iff : es.trouble = none ↔ es.Calm := by
    refine ⟨fun hnone => ?_, Trace.trouble_of_calm⟩
    cases ending with
    | done r => exact absurd hnone (h.done r rfl)
    | exited r relays started => exact (h.exited r relays started rfl).2
  refine ⟨?_, ?_, ?_, fun hall => ?_, ?_⟩
  · rw [hspawns, h.tried]
  · rw [hexit, hfailure, Trace.started, hspawns, hr, h.result]
    rfl
  · rw [hcalm_iff, hr]
    exact h.known
  · rw [hrelays, Trace.consulted_append, h.unasked.1, List.nil_append]
    cases ending with
    | done r => exact absurd (htrouble_iff.2 (hcalm_iff.1 hall)) (h.done r rfl)
    | exited r relays started =>
      rw [hexited r relays started rfl, (h.exited r relays started rfl).1]
  · have hforeground : r.background = false := by rw [hr, h.result]
    have hcode : r.exitCode = Trace.lastExit (es ++ said) := by rw [hexit, hr]
    rw [hcalm_iff, ← htrouble_iff, ← htrouble, Result.success, hforeground, hcode, ← hfailure,
      Bool.false_or, Bool.and_eq_true, Option.isNone_iff_eq_none, Trace.verdict_eq_none_iff,
      beq_iff_eq]
    tauto

/-- What comes after the files have been opened. -/
theorem Shell.rest_reflects {line : CommandLine} {plans : List Plan} {opened : Trace}
    (hfg : line.background = false) (hplans : plans.length = line.commands.length)
    (hopened : opened.Only Request.isFiling) : Ensures k (do
      let ending ← closing (idsOf plans) (runStages line plans)
      conclude ending) s fun o _ es =>
    ∀ r, o = .returned r → Reflects line r (opened ++ es) := by
  refine (Ensures.closing (idsOf plans) (runStages_pends hfg plans)).bind ?_
    (fun _ _ _ _ _ => nofun) fun _ _ _ _ => nofun
  rintro ending s' _ ⟨o, es, closed, rfl, hpending, hclosed, hafter⟩
  refine ((conclude_asks ending s').and (conclude_sums ending)).mono ?_
  rintro o' s'' said ⟨⟨-, hsaid⟩, hsums⟩ r hr
  obtain ⟨hresult, hexited⟩ := hsums r hr
  have hclosed : closed.Only Request.isFiling :=
    hclosed.mono fun r hr => by cases r <;> first | rfl | cases hr
  have hpending := (hpending ending (hafter.returned rfl)).within hopened hclosed
  rw [← List.append_assoc, ← List.append_assoc]
  exact (hplans ▸ hpending).reflects hsaid hresult hexited

/-- **What a result tells.** Whatever a foreground pipeline meets whose files can be opened, if it
returns, its result tells of it: the exit code that the last stage is known to have, the processes
that were started, and the gravest failure. -/
theorem runPipeline_reflects {line : CommandLine} {s : Session} {out : σ} {plans : List Plan}
    {r : Result} {w : World (σ × Trace)} (hfg : line.background = false)
    (hopened : (openStages (line.commands.zip line.wirings) k.traced ⟨s, (out, [])⟩).1 =
      .returned (plans, none))
    (hrun : runPipeline line k.traced ⟨s, (out, [])⟩ = (.returned r, w)) :
    Reflects line r w.outside.2 := by
  have hopening : Asks k Request.isFiling (openStages (line.commands.zip line.wirings)) :=
    openStages_asks (fun _ _ => rfl) (fun _ => rfl) _
  obtain ⟨-, ⟨-, hfiling⟩, -, -, hplans⟩ := ((hopening s).and (openStages_ensures _)).run
    (Prod.ext hopened rfl)
  have hlength := length_plans ((hplans _ rfl).1 rfl)
  rw [runPipeline_eq, bind_run, run_eta (openStages _ _ _), hopened] at hrun
  obtain ⟨es, hes, hreflects⟩ := (rest_reflects hfg hlength hfiling).run_from hrun
  rw [hes]
  exact hreflects r rfl

/-- The line `a | x | b`, run by a session that has no jobs, on a host that knows no `x`. -/
def gapRun : Outcome Result × World (Host.Machine Host.Scripted × Trace) :=
  runPipeline gapLine gapHost.kernel.traced ⟨gapSession, ({}, [])⟩

/-- The last stage exits with zero, but that the second one was not started is the failure of the
line. -/
theorem runPipeline_reflects_gap :
    gapRun.1 = .returned { exitCode := some 0, pids := [1, 2], failure := some .spawn } ∧
      gapRun.2.outside.2.spawns = [some 1, none, some 2] ∧
        Reflects gapLine { exitCode := some 0, pids := [1, 2], failure := some .spawn }
          gapRun.2.outside.2 := by
  have hreturned : gapRun.1 =
      .returned { exitCode := some 0, pids := [1, 2], failure := some .spawn } := by
    decide +kernel
  have hopened : (openStages (gapLine.commands.zip gapLine.wirings) gapHost.kernel.traced
      ⟨gapSession, ({}, [])⟩).1 = .returned (gapPlans, none) := rfl
  have hrun : gapRun = (.returned { exitCode := some 0, pids := [1, 2], failure := some .spawn },
      gapRun.2) := Prod.ext hreturned rfl
  exact ⟨hreturned, by decide +kernel, runPipeline_reflects rfl hopened hrun⟩

end LineShell
