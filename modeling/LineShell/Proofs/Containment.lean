import LineShell.Proofs.Attendance
import LineShell.Proofs.Diagnostics

namespace LineShell

/-!
# What an interrupt does to a foreground line

* `Event.isStruck` — an interrupt of a request that blocks: reading output, waiting, joining;
* `Straight` — a run that stops at its first fault, `Faithful` — one that returns just where all its
  requests do;
* `Outlives` — what a run makes of an interrupt that strikes it, `Weathers` — what a line makes of
  it that starts its processes first;
* `execute_weathers` — that foreground lines do;
* `Contained`, `execute_contains_iff` — the interrupt of a line is contained just where no request
  that tends to its processes has met a fault before, and each request after it returns.
-/

variable {σ α β : Type} {k : Kernel σ} {s : Session}

/-! ### Interrupts -/

/-- Whether a request blocks until a process or a relay goes on. -/
def Request.isBlocking : Request → Bool
  | .readOutput _ | .wait _ | .joinRelay _ => true
  | _ => false

/-- Whether the user has interrupted a request that blocks. -/
def Event.isStruck (e : Event) : Bool := e.request.isBlocking && e.fault? == some .interrupt

/-- Whether a request is one of those that leave processes to the registry. -/
def Request.isLeaving : Request → Bool
  | .report _ | .poll _ | .log _ => true
  | _ => false

/-- Whether a request is one that starting the stages of a line takes. -/
def Request.isStarting : Request → Bool
  | .spawn .. | .startRelay .. | .log _ | .report _ => true
  | _ => false

theorem Request.not_isTending_of_isStarting (r : Request) (h : r.isStarting = true) :
    (!r.isTending) = true := by
  cases r <;> first | rfl | cases h

theorem Request.not_isTending_of_isLeaving (r : Request) (h : r.isLeaving = true) :
    (!r.isTending) = true := by
  cases r <;> first | rfl | cases h

theorem Request.not_isSpawn_of_isLeaving (r : Request) (h : r.isLeaving = true) :
    (!r.isSpawn) = true := by
  cases r <;> first | rfl | cases h

theorem Request.not_isSpawn_of_isAside (r : Request) (h : r.isAside = true) :
    (!r.isSpawn) = true := by
  cases r <;> first | rfl | cases h

theorem Request.not_isSpawn_of_isTending (r : Request) (h : r.isTending = true) :
    (!r.isSpawn) = true := by
  cases r <;> first | rfl | cases h

namespace Trace

/-- No interrupt has struck. -/
def Spared (es : Trace) : Prop := ∀ e ∈ es, e.isStruck = false

/-- No request that tends to processes has met a fault. -/
def Calm (es : Trace) : Prop := ∀ e ∈ es, e.request.isTending = true → e.fault? = none

variable {es es' : Trace}

theorem spared_nil : Spared [] := by simp [Spared]

theorem calm_nil : Calm [] := by simp [Calm]

theorem spared_append : Spared (es ++ es') ↔ es.Spared ∧ es'.Spared := List.forall_mem_append

theorem calm_append : Calm (es ++ es') ↔ es.Calm ∧ es'.Calm := List.forall_mem_append

theorem smooth_append : Smooth (es ++ es') ↔ es.Smooth ∧ es'.Smooth := List.forall_mem_append

theorem Calm.spared (h : es.Calm) : es.Spared := by
  intro e he
  cases hblocking : e.request.isBlocking with
  | false => simp [Event.isStruck, hblocking]
  | true =>
    have htending : e.request.isTending = true := by
      obtain ⟨r, o⟩ := e
      cases r <;> first | rfl | cases hblocking
    simp [Event.isStruck, h e he htending]

theorem Smooth.calm (h : es.Smooth) : es.Calm := by
  intro e he _
  obtain ⟨a, ha⟩ := h e he
  simp [Event.fault?, ha]

theorem spared_of_aside (h : es.Aside) : es.Spared := by
  intro e he
  have hblocking : e.request.isBlocking = false := by
    have haside := h e he
    obtain ⟨r, o⟩ := e
    cases r <;> first | rfl | cases haside
  simp [Event.isStruck, hblocking]

theorem spared_of_isClose (h : es.Only Request.isClose) : es.Spared :=
  spared_of_aside (h.mono fun _ => Request.isAside_of_isClose)

theorem calm_of_only (h : es.Only fun r => !r.isTending) : es.Calm := by
  intro e he htending
  have hnot : (!e.request.isTending) = true := h e he
  rw [htending] at hnot
  cases hnot

end Trace

/-! ### Runs that stop at their first fault -/

/-- The last request has met a fault, and all before it have returned. -/
def Trace.StopsAt (f : Fault) (es : Trace) : Prop :=
  ∃ (init : Trace) (e : Event), es = init ++ [e] ∧ init.Smooth ∧ e.fault? = some f

theorem Trace.StopsAt.prepend {f : Fault} {es es' : Trace} (h : es'.StopsAt f) (hes : es.Smooth) :
    Trace.StopsAt f (es ++ es') := by
  obtain ⟨init, e, rfl, hinit, he⟩ := h
  exact ⟨es ++ init, e, by rw [List.append_assoc], smooth_append.2 ⟨hes, hinit⟩, he⟩

/-- How a run ends that handles no fault: all its requests have returned, or the last one has met
the fault that it raises. -/
def Direct (o : Outcome α) (es : Trace) : Prop :=
  match o with
  | .returned _ => es.Smooth
  | .raised f => es.StopsAt f
  | .never => es.Calm

/-- The run handles no fault. -/
def Straight (k : Kernel σ) (x : Shell (σ × Trace) α) : Prop :=
  ∀ s, Ensures k x s fun o _ es => Direct o es

namespace Straight

variable {x : Shell (σ × Trace) α} {f : α → Shell (σ × Trace) β}

theorem pure (a : α) : Straight k (Pure.pure a) := fun _ => .pure Trace.smooth_nil

theorem never : Straight k (Shell.never : Shell (σ × Trace) α) := fun _ => .never Trace.calm_nil

theorem ask (r : Request) : Straight k (Shell.ask r) := by
  refine fun s => .ask fun o => ?_
  cases o with
  | returned a => exact Trace.smooth_cons.2 ⟨⟨a, rfl⟩, Trace.smooth_nil⟩
  | raised f => exact ⟨[], _, rfl, Trace.smooth_nil, rfl⟩
  | never =>
    intro e he _
    rw [List.mem_singleton.1 he]
    rfl

theorem bind (hx : Straight k x) (hf : ∀ a, Straight k (f a)) : Straight k (x >>= f) := by
  refine fun s => (hx s).bind (fun a s' es hes => (hf a s').mono ?_) (fun _ _ _ h => h)
    fun _ _ h => h
  rintro (b | e | _) s'' es' h
  · exact Trace.smooth_append.2 ⟨hes, h⟩
  · exact h.prepend hes
  · exact Trace.calm_append.2 ⟨hes.calm, h⟩

theorem forM {l : List α} {g : α → Shell (σ × Trace) Unit} (hg : ∀ a, Straight k (g a)) :
    Straight k (l.forM g) := by
  induction l with
  | nil => exact pure ()
  | cons a l ih => exact (hg a).bind fun _ => ih

end Straight

/-- The run returns just where all its requests do. -/
def Faithful (k : Kernel σ) (x : Shell (σ × Trace) α) : Prop :=
  ∀ s, Ensures k x s fun o _ es => (∃ a, o = .returned a) ↔ es.Smooth

namespace Faithful

variable {x : Shell (σ × Trace) α} {f : α → Shell (σ × Trace) β}

theorem pure (a : α) : Faithful k (Pure.pure a) :=
  fun _ => .pure ⟨fun _ => Trace.smooth_nil, fun _ => ⟨a, rfl⟩⟩

theorem ask (r : Request) : Faithful k (Shell.ask r) :=
  fun _ => .ask fun o => by simp [Trace.smooth_cons]

theorem bind (hx : Faithful k x) (hf : ∀ a, Faithful k (f a)) : Faithful k (x >>= f) := by
  refine fun s => (hx s).bind (fun a s' es h => (hf a s').mono fun o s'' es' h' => ?_)
    (fun e s' es h => ?_) fun s' es h => ?_
  · rw [h', Trace.smooth_append]
    exact ⟨fun hes' => ⟨h.1 ⟨a, rfl⟩, hes'⟩, And.right⟩
  · rw [← h]
    simp
  · rw [← h]
    simp

theorem session_bind {f : Session → Shell (σ × Trace) β} (h : ∀ s, Faithful k (f s)) :
    Faithful k (Shell.session >>= f) := fun s => .session_bind (h s s)

theorem modifySession (g : Session → Session) :
    Faithful k (Shell.modifySession g : Shell (σ × Trace) Unit) :=
  fun _ => .modifySession ⟨fun _ => Trace.smooth_nil, fun _ => ⟨(), rfl⟩⟩

theorem modifySession_bind {g : Session → Session} {f : Unit → Shell (σ × Trace) β}
    (h : Faithful k (f ())) : Faithful k (Shell.modifySession g >>= f) :=
  (modifySession g).bind fun _ => h

theorem forM {l : List α} {g : α → Shell (σ × Trace) Unit} (hg : ∀ a, Faithful k (g a)) :
    Faithful k (l.forM g) := by
  induction l with
  | nil => exact pure ()
  | cons a l ih => exact (hg a).bind fun _ => ih

theorem mapM {l : List α} {g : α → Shell (σ × Trace) β} (hg : ∀ a, Faithful k (g a)) :
    Faithful k (l.mapM g) := by
  induction l with
  | nil => exact pure []
  | cons a l ih =>
    rw [List.mapM_cons]
    exact (hg a).bind fun _ => ih.bind fun _ => pure _

end Faithful

namespace Shell

/-! ### Collecting -/

variable {sink : Option FileId} {stages : List Stage} {relays : List RelayId}

theorem drainTo_straight (pid : ProcessId) {put : Text.Bytes → Shell (σ × Trace) Unit}
    (hput : ∀ line, Straight k (put line)) (rounds : Nat) :
    Straight k (drainTo pid put rounds) := by
  induction rounds with
  | zero => exact .never
  | succ rounds ih =>
    refine .bind (.ask _) fun line => ?_
    cases line with
    | nil => exact .pure ()
    | cons b line => exact (hput _).bind fun _ => ih

theorem drain_straight (pid : ProcessId) (sink : Option FileId) : Straight k (drain pid sink) := by
  refine fun s => .bound_bind (f := fun rounds => _) ?_
  cases sink with
  | some file => exact (drainTo_straight pid (fun _ => .ask _) _).bind (fun _ => .ask _) s
  | none =>
    refine Straight.bind (.ask .consoleTakesBytes) (fun takesBytes => ?_) s
    cases takesBytes with
    | true =>
      exact .bind (.ask _) fun _ => (drainTo_straight pid (fun _ => .ask _) _).bind fun _ => .ask _
    | false => exact (drainTo_straight pid (fun _ => .ask _) _).bind fun _ => .ask _

theorem drainLast_straight (last : Option ProcessId) : Straight k (drainLast sink last) := by
  cases last with
  | none => exact .pure _
  | some pid => exact (drain_straight pid sink).bind fun _ => .bind (.ask _) fun _ => .ask _

theorem waitAll_straight (pids : List ProcessId) :
    Straight k (pids.forM fun pid => do let _ ← wait pid) :=
  .forM fun _ => .bind (.ask _) fun _ => .pure ()

theorem awaitOthers_straight : Straight k (awaitOthers stages relays) :=
  .bind (.forM fun _ => .ask _) fun _ => waitAll_straight _

/-- Collecting stops at its first fault, and answers with it. -/
theorem collect_stops : Ensures k (collect sink stages relays) s fun o _ es =>
    match o with
    | .returned c => match c.fault with
      | none => es.Smooth
      | some f => es.StopsAt f
    | .raised _ => False
    | .never => es.Calm := by
  refine Ensures.attempt_bind (drainLast_straight _ s) ?_ ?_ fun _ _ h => h
  · intro code s' es hes
    refine Ensures.attempt_bind (awaitOthers_straight s') ?_ ?_ ?_
    · intro _ s'' es' hes'
      refine .pure ?_
      rw [List.append_nil]
      exact Trace.smooth_append.2 ⟨hes, hes'⟩
    · intro f s'' es' h
      refine .pure ?_
      rw [List.append_nil]
      exact h.prepend hes
    · exact fun s'' es' h => Trace.calm_append.2 ⟨hes.calm, h⟩
  · intro f s' es h
    refine .pure ?_
    rw [List.append_nil]
    exact h

/-! ### Leaving processes to the registry -/

theorem register_faithful (job : Job) (announce : Bool) : Faithful k (register job announce) := by
  refine .modifySession_bind (.bind (.ask _) fun _ => ?_)
  split
  · exact .ask _
  · exact .pure ()

theorem detach_faithful (stages : List Stage) : Faithful k (detach stages) := by
  refine .forM fun stage => ?_
  obtain ⟨command, pid⟩ := stage
  cases pid with
  | none => exact .pure ()
  | some pid =>
    refine .bind (.ask _) fun code => ?_
    split
    · exact register_faithful _ _
    · exact .pure ()

/-- Leaving processes to the registry looks at them, and leaves a note of an interrupt as it is. -/
theorem detach_leaves (stages : List Stage) : Ensures k (detach stages) s fun _ s' es =>
    es.Only Request.isLeaving ∧ s'.interrupted = s.interrupted := by
  induction stages generalizing s with
  | nil => exact .pure ⟨Trace.only_nil _, rfl⟩
  | cons stage stages ih =>
    obtain ⟨command, pid⟩ := stage
    refine Ensures.bind (Q := fun _ s' es => es.Only Request.isLeaving ∧
      s'.interrupted = s.interrupted) ?_ ?_ (fun _ _ _ h => h) fun _ _ h => h
    · cases pid with
      | none => exact .pure ⟨Trace.only_nil _, rfl⟩
      | some pid =>
        refine .ask_bind (fun code => ?_) (fun _ => ⟨by simp [Request.isLeaving], rfl⟩)
          ⟨by simp [Request.isLeaving], rfl⟩
        cases code with
        | some code => exact .pure ⟨by simp [Request.isLeaving], rfl⟩
        | none =>
          refine .modifySession_bind (.ask_bind (fun _ => .pure ?_) (fun _ => ?_) ?_)
          all_goals exact ⟨by simp [Request.isLeaving], rfl⟩
    · rintro _ s' es ⟨hes, hs⟩
      refine ih.mono fun o s'' es' h => ⟨Trace.only_append.2 ⟨hes, h.1⟩, h.2.trans hs⟩

theorem Detached.contains_of_contains {jobs jobs' : Jobs} {es : Trace} {pid : ProcessId}
    (h : Detached stages jobs jobs' es) (hpid : jobs.contains pid = true) :
    jobs'.contains pid = true := by
  induction h with
  | nil => exact hpid
  | missing _ ih => exact ih hpid
  | exited _ ih => exact ih hpid
  | left _ _ ih => exact ih (by rw [Jobs.contains_register, hpid, Bool.or_true])

/-- Whatever the numbers of the processes are, each one has been seen to exit or is a job. -/
theorem Detached.exited_or_registered {jobs jobs' : Jobs} {es : Trace}
    (h : Detached stages jobs jobs' es) :
    ∀ pid ∈ pidsOf stages, pid ∈ es.exits ∨ jobs'.contains pid = true := by
  induction h with
  | nil => simp [pidsOf]
  | missing _ ih => exact ih
  | exited _ ih =>
    intro q hq
    rcases List.mem_cons.1 hq with rfl | hq
    · exact .inl List.mem_cons_self
    · exact (ih q hq).imp (List.mem_cons_of_mem _) id
  | @left _ _ _ _ _ es es' _ hd ih =>
    have hexits : Trace.exits es' ⊆ Trace.exits (es ++ es') := by
      rw [Trace.exits_append]
      exact List.subset_append_right _ _
    intro q hq
    rcases List.mem_cons.1 hq with rfl | hq
    · exact .inr (hd.contains_of_contains (by rw [Jobs.contains_register]; simp))
    · exact (ih q hq).imp (fun h => hexits h) id

/-- How a line is left whose interrupt has been dealt with. -/
structure Abandoned (text : String) (started : List ProcessId) (r : Result) (s' : Session)
    (es : Trace) : Prop where
  failure : r.failure = some .interrupted
  pids : r.pids = started
  noted : s'.interrupted = true
  reports : es.reports = [text]
  either : ∀ pid ∈ started, pid ∈ es.exits ∨ s'.jobs.contains pid = true

/-- Leaving an interrupted line returns just where all requests do, and then all is dealt with. -/
theorem leaveInterrupted_abandons (text : String) (stages : List Stage) (r : Result) {a : α}
    (hpids : r.pids = pidsOf stages) (hr : r.failure = some .interrupted) :
    Ensures k (leaveInterrupted text stages >>= fun _ => pure a) s fun o s' es =>
      es.Only Request.isLeaving ∧ ((∃ b, o = .returned b) ↔ es.Smooth) ∧
        ∀ b, o = .returned b → b = a ∧ Abandoned text (pidsOf stages) r s' es := by
  have hfaithful : Faithful k (leaveInterrupted text stages >>= fun _ => pure a) :=
    .bind (.modifySession_bind (.bind (.ask _) fun _ => detach_faithful stages)) fun _ => .pure a
  have htells : Tells k (leaveInterrupted text stages >>= fun _ => pure a) fun _ ts =>
      ts = [text] := by
    refine (leaveInterrupted_tells text stages).bind ?_
    rintro _ _ rfl
    exact .pure rfl
  have hleaves : Ensures k (leaveInterrupted text stages >>= fun _ => pure a) s fun o s' es =>
      es.Only Request.isLeaving ∧ ∀ b, o = .returned b → b = a ∧ s'.interrupted = true ∧
        ∀ pid ∈ pidsOf stages, pid ∈ es.exits ∨ s'.jobs.contains pid = true := by
    refine Ensures.bind (Q := fun o s' es => es.Only Request.isLeaving ∧ (o = .returned () →
      s'.interrupted = true ∧ ∀ pid ∈ pidsOf stages, pid ∈ es.exits ∨ s'.jobs.contains pid = true))
      ?_ ?_ (fun _ _ _ h => ⟨h.1, fun _ => nofun⟩) fun _ _ h => ⟨h.1, fun _ => nofun⟩
    · refine .modifySession_bind (.ask_bind (fun _ => ?_) (fun _ => ?_) ?_)
      · refine ((detach_leaves stages).and (detach_ensures stages)).mono ?_
        rintro o s' es ⟨⟨hes, hs⟩, hdetached⟩
        refine ⟨by simpa [Request.isLeaving] using hes, fun ho => ⟨hs, fun pid hpid => ?_⟩⟩
        exact (hdetached () ho).exited_or_registered pid hpid
      · exact ⟨by simp [Request.isLeaving], nofun⟩
      · exact ⟨by simp [Request.isLeaving], nofun⟩
    · rintro _ s' es ⟨hes, h⟩
      refine .pure ⟨by rwa [List.append_nil], ?_⟩
      rintro _ ⟨⟩
      rw [List.append_nil]
      exact ⟨rfl, h rfl⟩
  refine (((hfaithful s).and (htells s)).and hleaves).mono ?_
  rintro o s' es ⟨⟨hiff, hreports⟩, hes, hleft⟩
  refine ⟨hes, hiff, fun b hb => ⟨(hleft b hb).1, hr, hpids, (hleft b hb).2.1, hreports b hb, ?_⟩⟩
  exact (hleft b hb).2.2

end Shell

/-! ### What a run makes of an interrupt -/

/-- What a run makes of an interrupt. None strikes, or one does and the run goes on to return just
where each request after it does, or a request that tends to processes has met another fault before,
and the run does not return. -/
inductive Outlives (good : α → Session → Trace → Prop) (o : Outcome α) (s' : Session) : Trace → Prop
  | spared {es : Trace} : es.Spared → Outlives good o s' es
  | caught {before after : Trace} {e : Event} : before.Calm → before.reports = [] →
    e.isStruck = true → after.Spared → ((∃ a, o = .returned a) ↔ after.Smooth) →
    (∀ a, o = .returned a → good a s' after) → Outlives good o s' (before ++ e :: after)
  | lost {before after : Trace} {e : Event} {f : Fault} : before.Calm →
    e.request.isTending = true → e.fault? = some f → f ≠ .interrupt → (∀ a, o ≠ .returned a) →
    Outlives good o s' (before ++ e :: after)

namespace Outlives

variable {good : α → Session → Trace → Prop} {o : Outcome α} {s' : Session} {es es' : Trace}

/-- A run that does not return goes on with nothing. -/
theorem of_not_returned {good' : β → Session → Trace → Prop} {o' : Outcome β}
    (h : Outlives good o s' es) (ho : ∀ a, o ≠ .returned a) (ho' : ∀ b, o' ≠ .returned b) :
    Outlives good' o' s' es := by
  cases h with
  | spared hspared => exact .spared hspared
  | caught hcalm hquiet he hafter hiff hgood =>
    refine .caught hcalm hquiet he hafter ?_ fun b hb => absurd hb (ho' b)
    rw [← hiff]
    exact ⟨fun ⟨b, hb⟩ => absurd hb (ho' b), fun ⟨a, ha⟩ => absurd ha (ho a)⟩
  | lost hcalm he hf hne _ => exact .lost hcalm he hf hne ho'

/-- Where an interrupt has struck, a run returns just where nothing that tends to processes has met
a fault before, and each request after it returns. -/
theorem of_isStruck (h : Outlives good o s' es) {before after : Trace} {e : Event}
    (hes : es = before ++ e :: after) (he : e.isStruck = true) :
    ((∃ a, o = .returned a) ↔ before.Calm ∧ after.Smooth) ∧
      ∀ a, o = .returned a → before.reports = [] ∧ good a s' after := by
  have hnot : ∀ {es : Trace}, es.Spared → e ∉ es := by
    intro es hspared hmem
    rw [hspared e hmem] at he
    cases he
  cases h with
  | spared hspared => exact absurd (by rw [hes]; simp) (hnot hspared)
  | @caught before' after' e' hcalm hquiet he' hafter hiff hgood =>
    obtain ⟨mid, rfl, hmid⟩ := split_right hes (hnot hcalm.spared)
    cases mid with
    | nil =>
      obtain ⟨rfl, rfl⟩ := List.cons.inj hmid
      rw [List.append_nil]
      refine ⟨?_, fun a ha => ⟨hquiet, hgood a ha⟩⟩
      rw [hiff]
      exact ⟨fun h => ⟨hcalm, h⟩, And.right⟩
    | cons v mid =>
      obtain ⟨rfl, rfl⟩ := List.cons.inj hmid
      exact absurd (by simp) (hnot hafter)
  | @lost before' after' e' f hcalm htending hf hne hlost =>
    obtain ⟨mid, rfl, hmid⟩ := split_right hes (hnot hcalm.spared)
    refine ⟨⟨fun ⟨a, ha⟩ => absurd ha (hlost a), fun ⟨h, _⟩ => ?_⟩, fun a ha => absurd ha (hlost a)⟩
    have he' : e' ∈ before' ++ mid := by
      cases mid with
      | nil =>
        obtain ⟨rfl, -⟩ := List.cons.inj hmid
        simp [Event.isStruck, hf, hne] at he
      | cons v mid =>
        obtain ⟨rfl, -⟩ := List.cons.inj hmid
        simp
    rw [h e' he' htending] at hf
    cases hf

end Outlives

namespace Trace

variable {es : Trace}

theorem spared_of_isLeaving (h : es.Only Request.isLeaving) : es.Spared :=
  (calm_of_only (h.mono Request.not_isTending_of_isLeaving)).spared

/-- A fault that is no interrupt does not strike. -/
theorem StopsAt.spared {f : Fault} (h : es.StopsAt f) (hf : f ≠ .interrupt) : es.Spared := by
  obtain ⟨init, e, rfl, hinit, he⟩ := h
  refine spared_append.2 ⟨hinit.calm.spared, fun v hv => ?_⟩
  rw [List.mem_singleton.1 hv]
  simp [Event.isStruck, he, hf]

end Trace

namespace Shell

variable {sink : Option FileId} {stages : List Stage} {relays : List RelayId} {line : CommandLine}

/-! ### Lines of several commands -/

/-- What is reported when a pipeline is interrupted. -/
def pipelineInterruption : String := "error running pipeline: interrupted"

/-- What is reported when a single command is interrupted. -/
def singleInterruption : String := "execution interrupted"

/-- The pipeline is done with, and its interrupt has been dealt with. -/
def AbandonedEnding (started : List ProcessId) (ending : Ending) (s' : Session) (es : Trace) :
    Prop :=
  ∃ r, ending = .done r ∧ Abandoned pipelineInterruption started r s' es

/-- Waiting for all processes after a fault starts nothing. A fault on the way ends the line. -/
theorem recover_outlives (text : String) (pids : List ProcessId) (ending : Ending) :
    Ensures k (report text >>= fun _ => (pids.forM fun pid => do let _ ← wait pid) >>= fun _ =>
      pure ending) s fun o _ es =>
        (es.Only fun r => !r.isSpawn) ∧ (es.Spared ∨ ∀ a, o ≠ .returned a) := by
  have hasks : Asks k (fun r => !r.isSpawn) (report text >>= fun _ =>
      (pids.forM fun pid => do let _ ← wait pid) >>= fun _ => pure ending) :=
    (Asks.ask rfl).bind fun _ => (waitAll_asks (fun _ => rfl) pids).bind fun _ => .pure _
  have hfaithful : Faithful k (report text >>= fun _ =>
      (pids.forM fun pid => do let _ ← wait pid) >>= fun _ => pure ending) :=
    .bind (.ask _) fun _ => .bind (.forM fun _ => .bind (.ask _) fun _ => .pure ()) fun _ => .pure _
  refine ((hasks s).and (hfaithful s)).mono ?_
  rintro o s' es ⟨⟨-, hes⟩, hiff⟩
  refine ⟨hes, ?_⟩
  by_cases hreturned : ∃ a, o = .returned a
  · exact .inl (hiff.1 hreturned).calm.spared
  · exact .inr fun a ha => hreturned ⟨a, ha⟩

theorem awaitPipeline_outlives {result : Result} (hpids : result.pids = pidsOf stages) :
    Ensures k (awaitPipeline sink stages relays result) s fun o s' es =>
      (es.Only fun r => !r.isSpawn) ∧ Outlives (AbandonedEnding (pidsOf stages)) o s' es := by
  refine Ensures.bind (collect_stops.and collect_performs) ?_ (fun _ _ _ h => h.1.elim) ?_
  · rintro ⟨code, fault⟩ s' es ⟨hstops, rfl, htend, -⟩
    have hspawn : es.Only fun r => !r.isSpawn := htend.mono Request.not_isSpawn_of_isTending
    cases fault with
    | none =>
      have hsmooth : es.Smooth := hstops
      refine .pure ⟨?_, .spared ?_⟩
      · rwa [List.append_nil]
      · rw [List.append_nil]
        exact hsmooth.calm.spared
    | some f =>
      have hstops : es.StopsAt f := hstops
      obtain ⟨init, e, rfl, hinit, he⟩ := hstops
      have htending : e.request.isTending = true := htend e (by simp)
      -- a fault of input or output is followed by waiting for all processes
      have hrecover : f ≠ .interrupt → Ensures k (report ("error running pipeline: " ++ f.message)
          >>= fun _ => ((pidsOf stages).forM fun pid => do let _ ← wait pid) >>= fun _ =>
            pure (Ending.done { result with exitCode := code, failure := some .io })) s'
          fun o s'' es => Trace.Only (fun r => !r.isSpawn) ((init ++ [e]) ++ es) ∧
            Outlives (AbandonedEnding (pidsOf stages)) o s'' ((init ++ [e]) ++ es) := by
        intro hne
        refine (recover_outlives _ _ _).mono fun o s'' es ⟨hes, h⟩ => ?_
        refine ⟨Trace.only_append.2 ⟨hspawn, hes⟩, ?_⟩
        rcases h with hspared | hlost
        · exact .spared (Trace.spared_append.2
            ⟨Trace.StopsAt.spared ⟨init, e, rfl, hinit, he⟩ hne, hspared⟩)
        · rw [List.append_assoc]
          exact .lost hinit.calm htending he hne hlost
      cases f with
      | interrupt =>
        refine (leaveInterrupted_abandons pipelineInterruption stages
          { result with exitCode := code, failure := some .interrupted } hpids rfl).mono ?_
        rintro o s'' es ⟨hes, hiff, hgood⟩
        refine ⟨Trace.only_append.2 ⟨hspawn, hes.mono Request.not_isSpawn_of_isLeaving⟩, ?_⟩
        have hspared := Trace.spared_of_isLeaving hes
        have hquiet : init.reports = [] :=
          Trace.reports_of_only not_isReport_of_isTending fun v hv => htend v (by simp [hv])
        cases hstruck : e.isStruck with
        | true =>
          rw [List.append_assoc]
          exact .caught hinit.calm hquiet hstruck hspared hiff fun ending h => ⟨_, hgood ending h⟩
        | false =>
          refine .spared (Trace.spared_append.2 ⟨Trace.spared_append.2
            ⟨hinit.calm.spared, fun v hv => ?_⟩, hspared⟩)
          rw [List.mem_singleton.1 hv, hstruck]
      | system | described | brokenPipe | cannotOpen => exact hrecover (by simp)
      | invalid | wrongKind | outOfRange | linkLoop =>
        refine .raise ⟨?_, .spared ?_⟩
        · rwa [List.append_nil]
        · rw [List.append_nil]
          exact Trace.StopsAt.spared ⟨init, e, rfl, hinit, he⟩ (by simp)
  · rintro s' es ⟨hcalm, -, htend, -⟩
    exact ⟨htend.mono Request.not_isSpawn_of_isTending, .spared (Trace.Calm.spared hcalm)⟩

theorem awaitSingle_outlives (command : Command) (pid : ProcessId) :
    Ensures k (awaitSingle command pid) s fun o s' es => (es.Only fun r => !r.isSpawn) ∧
      Outlives (Abandoned singleInterruption [pid]) o s' es := by
  have hwait : Ensures k (wait pid) s fun o _ es => es = [⟨.wait pid, o⟩] := .ask fun _ => rfl
  have hspawn : ∀ o, Trace.Only (fun r => !r.isSpawn) [⟨.wait pid, o⟩] :=
    fun o => by simp [Request.isSpawn]
  have hspared : ∀ o : Outcome Int, o ≠ .raised .interrupt → Trace.Spared [⟨.wait pid, o⟩] := by
    intro o ho e he
    rw [List.mem_singleton.1 he]
    cases o with
    | raised f => simpa [Event.isStruck, Event.fault?] using fun _ h => ho (by rw [h])
    | _ => rfl
  refine hwait.attempt_bind ?_ ?_ ?_
  · rintro code s' _ rfl
    let result : Result := { exitCode := some code, pids := [pid] }
    have hrest : Asks k Request.isLeaving
        (if code != 0 then (report ("process exited with code " ++ toString code) >>= fun _ =>
          pure result) else pure result) := by
      split
      · exact (Asks.ask rfl).bind fun _ => .pure _
      · exact .pure _
    refine (hrest s').mono fun o s'' es ⟨_, hes⟩ => ⟨?_, .spared ?_⟩
    · exact Trace.only_append.2 ⟨hspawn _, hes.mono Request.not_isSpawn_of_isLeaving⟩
    · exact Trace.spared_append.2 ⟨hspared _ nofun, Trace.spared_of_isLeaving hes⟩
  · rintro f s' _ rfl
    cases f with
    | interrupt =>
      refine (leaveInterrupted_abandons singleInterruption [⟨command, some pid⟩]
        { pids := [pid], failure := some .interrupted } rfl rfl).mono ?_
      rintro o s'' es ⟨hes, hiff, hgood⟩
      refine ⟨Trace.only_append.2 ⟨hspawn _, hes.mono Request.not_isSpawn_of_isLeaving⟩, ?_⟩
      show Outlives _ o s'' (([] : Trace) ++ ⟨.wait pid, .raised .interrupt⟩ :: es)
      refine .caught Trace.calm_nil rfl rfl (Trace.spared_of_isLeaving hes) hiff fun r hr => ?_
      obtain ⟨rfl, h⟩ := hgood r hr
      exact h
    | _ => exact .raise ⟨hspawn _, .spared (hspared _ (by simp))⟩
  · rintro s' _ rfl
    exact ⟨hspawn _, .spared (hspared _ nofun)⟩

/-! ### Starting a line -/

section

variable {p : Request → Bool} (hp : ∀ r : Request, r.isStarting = true → p r = true)

include hp

theorem start_asks_of (command : Command) (streams : Streams) :
    Asks k p (start command streams) := by
  refine fun s => .session_bind (Asks.bind (.ask (hp _ rfl)) (fun _ => ?_) s)
  refine Asks.bind (.attempt (.ask (hp _ rfl))) fun pid => ?_
  cases pid with
  | ok pid => exact Asks.bind (.ask (hp _ rfl)) fun _ => .pure _
  | error f =>
    show Asks k _ (if f.isIo then (report _ >>= fun _ => pure none) else raise f)
    split
    · exact Asks.bind (.ask (hp _ rfl)) fun _ => .pure _
    · exact .raise f

theorem launch_asks_of (foreground : Bool) (chunk : Int) (before : Predecessor)
    (plans : List Plan) : Asks k p (launch foreground chunk before plans) := by
  induction plans generalizing before with
  | nil => exact .pure _
  | cons plan plans ih =>
    rw [launch_cons]
    refine (start_asks_of hp _ _).bind fun pid => .bind ?_ fun _ => (ih _).bind fun _ => .pure _
    cases before with
    | running up => exact Asks.bind (.ask (hp _ rfl)) fun _ => .pure _
    | none => exact .pure _
    | missing => exact .pure _

end

theorem start_asks (command : Command) (streams : Streams) :
    Asks k (fun r => !r.isTending) (start command streams) :=
  start_asks_of Request.not_isTending_of_isStarting command streams

theorem launch_asks (foreground : Bool) (chunk : Int) (before : Predecessor) (plans : List Plan) :
    Asks k (fun r => !r.isTending) (launch foreground chunk before plans) :=
  launch_asks_of Request.not_isTending_of_isStarting foreground chunk before plans

end Shell

/-! ### Whole lines -/

/-- What a line that starts its processes first, and then tends to them, makes of an interrupt. What
is reported while they are started is that some cannot be. -/
def Weathers (good : List ProcessId → α → Session → Trace → Prop) (o : Outcome α) (s' : Session)
    (es : Trace) : Prop :=
  ∃ launch rest : Trace, es = launch ++ rest ∧ (launch.Only fun r => !r.isTending) ∧
    (rest.Only fun r => !r.isSpawn) ∧
    (rest.Spared ∨ ∀ t ∈ launch.reports, ∃ command f, t = Shell.complaint command f) ∧
    Outlives (good launch.started) o s' rest

theorem Shell.AfterClosing.exists_returned_iff {o o' : Outcome α} {es : Trace}
    (h : Shell.AfterClosing o o' es) :
    (∃ a, o' = .returned a) ↔ (∃ a, o = .returned a) ∧ es.Smooth := by
  rcases h with ⟨rfl, hsmooth⟩ | ⟨f, rfl, e, he, hf⟩ | ⟨rfl, e, he, hn⟩
  · simp [hsmooth]
  · refine ⟨fun ⟨_, h⟩ => (nomatch h), fun ⟨_, hsmooth⟩ => ?_⟩
    obtain ⟨a, ha⟩ := hsmooth e he
    simp [Event.fault?, ha] at hf
  · refine ⟨fun ⟨_, h⟩ => (nomatch h), fun ⟨_, hsmooth⟩ => ?_⟩
    obtain ⟨a, ha⟩ := hsmooth e he
    rw [ha] at hn
    cases hn

namespace Outlives

variable {good : α → Session → Trace → Prop} {o o' : Outcome α} {s' : Session} {es es' : Trace}

/-- Closing files afterwards is one more thing that has to return. -/
theorem closing (h : Outlives good o s' es) (hclosed : es'.Only Request.isClose)
    (hafter : Shell.AfterClosing o o' es')
    (hgood : ∀ a es, good a s' es → good a s' (es ++ es')) : Outlives good o' s' (es ++ es') := by
  have hspared : es'.Spared := Trace.spared_of_isClose hclosed
  cases h with
  | spared h => exact .spared (Trace.spared_append.2 ⟨h, hspared⟩)
  | caught hcalm hquiet he h hiff hcaught =>
    rw [List.append_assoc]
    refine .caught hcalm hquiet he (Trace.spared_append.2 ⟨h, hspared⟩) ?_ fun a ha => ?_
    · rw [hafter.exists_returned_iff, hiff]
      exact Trace.smooth_append.symm
    · exact hgood a _ (hcaught a (hafter.returned ha))
  | lost hcalm he hf hne hlost =>
    rw [List.append_assoc]
    exact .lost hcalm he hf hne fun a ha => hlost a (hafter.returned ha)

end Outlives

namespace Weathers

variable {good : List ProcessId → α → Session → Trace → Prop} {o o' : Outcome α} {s' : Session}
  {es es' : Trace}

/-- Nothing strikes a line that tends to no process. -/
theorem of_untending (h : es.Only fun r => !r.isTending) : Weathers good o s' es :=
  ⟨es, [], (List.append_nil es).symm, h, Trace.only_nil _, .inl Trace.spared_nil,
    .spared Trace.spared_nil⟩

theorem prepend (h : Weathers good o s' es) (hes : es'.Only fun r => !r.isTending)
    (hreports : es'.reports = []) (hstarted : es'.started = []) :
    Weathers good o s' (es' ++ es) := by
  obtain ⟨launch, rest, rfl, hlaunch, hrest, htold, h⟩ := h
  have hsame : Trace.reports (es' ++ launch) = launch.reports ∧
      Trace.started (es' ++ launch) = launch.started := by
    rw [Trace.reports_append, hreports, Trace.started_append, hstarted]
    exact ⟨rfl, rfl⟩
  refine ⟨es' ++ launch, rest, (List.append_assoc ..).symm, Trace.only_append.2 ⟨hes, hlaunch⟩,
    hrest, ?_, ?_⟩
  · rw [hsame.1]
    exact htold
  · rw [hsame.2]
    exact h

/-- A run that does not return goes on with nothing. -/
theorem of_not_returned {good' : List ProcessId → β → Session → Trace → Prop} {o' : Outcome β}
    (h : Weathers good o s' es) (ho : ∀ a, o ≠ .returned a) (ho' : ∀ b, o' ≠ .returned b) :
    Weathers good' o' s' es := by
  obtain ⟨launch, rest, hes, hlaunch, hrest, htold, h⟩ := h
  exact ⟨launch, rest, hes, hlaunch, hrest, htold, h.of_not_returned ho ho'⟩

theorem closing (h : Weathers good o s' es) (hclosed : es'.Only Request.isClose)
    (hafter : Shell.AfterClosing o o' es')
    (hgood : ∀ pids a es, good pids a s' es → good pids a s' (es ++ es')) :
    Weathers good o' s' (es ++ es') := by
  obtain ⟨launch, rest, rfl, hlaunch, hrest, htold, h⟩ := h
  refine ⟨launch, rest ++ es', by rw [List.append_assoc], hlaunch, ?_, ?_,
    h.closing hclosed hafter fun a es => hgood _ a es⟩
  · exact Trace.only_append.2 ⟨hrest, hclosed.mono fun r hr =>
      Request.not_isSpawn_of_isAside r (Request.isAside_of_isClose hr)⟩
  · exact htold.imp (fun h => Trace.spared_append.2 ⟨h, Trace.spared_of_isClose hclosed⟩) id

end Weathers

namespace Shell

variable {line : CommandLine}

/-- What is reported when a line is interrupted. -/
def interruption (line : CommandLine) : String :=
  if line.isPipeline then pipelineInterruption else singleInterruption

theorem Abandoned.append {text : String} {pids : List ProcessId} {r : Result} {s' : Session}
    {es es' : Trace} (h : Abandoned text pids r s' es) (hclosed : es'.Only Request.isClose) :
    Abandoned text pids r s' (es ++ es') := by
  have hsilent : Trace.reports es' = [] :=
    Trace.reports_of_only (fun r hr => by cases r <;> first | rfl | cases hr) hclosed
  refine ⟨h.failure, h.pids, h.noted, ?_, fun pid hpid => ?_⟩
  · rw [Trace.reports_append, hsilent, List.append_nil]
    exact h.reports
  · rw [Trace.exits_append, List.mem_append]
    exact (h.either pid hpid).imp .inl id

theorem runStages_weathers (hfg : line.background = false) (plans : List Plan) :
    Ensures k (runStages line plans) s (Weathers AbandonedEnding) := by
  rw [runStages_eq]
  refine .session_bind (Ensures.bind (((launch_asks _ _ _ plans s).and launch_performs).and
    (launch_tells _ _ _ plans s)) ?_ (fun _ _ _ h => .of_untending h.1.1.2)
      fun _ _ h => .of_untending h.1.1.2)
  rintro ⟨stages, relays⟩ s' launch ⟨⟨⟨rfl, huntending⟩, -, -, hlaunched⟩, hcomplaints⟩
  have hstarted : launch.started = pidsOf stages := by
    rw [Trace.started, hlaunched.spawns, List.filterMap_map]
    rfl
  have hcomplaints : ∀ t ∈ launch.reports, ∃ command f, t = complaint command f :=
    fun t ht => exists_of_mem_complaints (hcomplaints _ rfl) ht
  simp only [settle, CommandLine.blocks, hfg, Bool.not_false, if_true]
  refine (awaitPipeline_outlives rfl).mono fun o s'' rest h => ?_
  refine ⟨launch, rest, rfl, huntending, h.1, .inr hcomplaints, ?_⟩
  rw [hstarted]
  exact h.2

/-- What is said of a line at its end changes nothing of an interrupt that was dealt with. -/
theorem conclude_weathers {ending : Ending} {es : Trace}
    (h : Weathers AbandonedEnding (.returned ending) s es) :
    Ensures k (conclude ending) s fun o s' es' =>
      Weathers (Abandoned pipelineInterruption) o s' (es ++ es') := by
  obtain ⟨launch, rest, rfl, hlaunch, hrest, htold, h⟩ := h
  cases ending with
  | done r =>
    refine .pure ⟨launch, rest, List.append_nil _, hlaunch, hrest, htold, ?_⟩
    cases h with
    | spared h => exact .spared h
    | caught hcalm hquiet he hafter hiff hgood =>
      refine .caught hcalm hquiet he hafter ?_ fun r' hr' => ?_
      · rw [← hiff]
        exact ⟨fun _ => ⟨_, rfl⟩, fun _ => ⟨_, rfl⟩⟩
      · obtain ⟨_, ⟨⟩, h⟩ := hgood _ rfl
        cases hr'
        exact h
    | lost _ _ _ _ hlost => exact absurd rfl (hlost _)
  | exited r relays lastStarted =>
    have hspared : rest.Spared := by
      cases h with
      | spared h => exact h
      | caught _ _ _ _ _ hgood =>
        obtain ⟨_, h, -⟩ := hgood _ rfl
        cases h
      | lost _ _ _ _ hlost => exact absurd rfl (hlost _)
    refine (conclude_ensures (.exited r relays lastStarted)).mono ?_
    rintro o s' es' ⟨haside, -⟩
    have hspared' : Trace.Spared (rest ++ es') :=
      Trace.spared_append.2 ⟨hspared, Trace.spared_of_aside haside⟩
    refine ⟨launch, rest ++ es', List.append_assoc .., hlaunch, ?_, .inl hspared', .spared hspared'⟩
    exact Trace.only_append.2 ⟨hrest, haside.mono Request.not_isSpawn_of_isAside⟩

theorem runPipeline_weathers (hfg : line.background = false) :
    Ensures k (runPipeline line) s (Weathers (Abandoned pipelineInterruption)) := by
  have hopening : ∀ {p : Request → Bool}, (∀ path mode, p (.openFile path mode) = true) →
      (∀ id, p (.closeFile id) = true) →
        Asks k p (openStages (line.commands.zip line.wirings)) :=
    fun hopen hclose => openStages_asks hopen hclose _
  rw [runPipeline_eq]
  refine Ensures.bind ((hopening (p := fun r => !r.isTending) (fun _ _ => rfl) (fun _ => rfl) s).and
    ((hopening (p := fun r => !r.isReport) (fun _ _ => rfl) (fun _ => rfl) s).and
      (openStages_ensures _))) ?_ (fun _ _ _ h => .of_untending h.1.2)
    fun _ _ h => .of_untending h.1.2
  rintro ⟨plans, fault⟩ s' opening ⟨⟨rfl, huntending⟩, ⟨-, hsilent⟩, -, haside, -⟩
  have hbody : Ensures k (runOpened line plans fault) s' (Weathers AbandonedEnding) := by
    cases fault with
    | none => exact runStages_weathers hfg plans
    | some f =>
      have hrefuse : Asks k (fun r => !r.isTending) (refuse f) := by
        rw [refuse]
        split
        · exact Asks.bind (.ask rfl) fun _ => .pure _
        · exact .raise f
      exact (hrefuse s').mono fun _ _ _ h => .of_untending h.2
  have hprepend : ∀ {o : Outcome Result} {s'' : Session} {es : Trace},
      Weathers (Abandoned pipelineInterruption) o s'' es →
        Weathers (Abandoned pipelineInterruption) o s'' (opening ++ es) := by
    intro o s'' es h
    refine h.prepend huntending (Trace.reports_of_only (fun r hr => by simpa using hr) hsilent) ?_
    rw [Trace.started, Trace.spawns_of_aside haside]
    rfl
  have hclosing : ∀ {o o' : Outcome Ending} {s'' : Session} {es es' : Trace},
      Weathers AbandonedEnding o s'' es → es'.Only Request.isClose → AfterClosing o o' es' →
        Weathers AbandonedEnding o' s'' (es ++ es') := by
    intro o o' s'' es es' h hclosed hafter
    refine h.closing hclosed hafter ?_
    rintro pids ending es ⟨r, rfl, h⟩
    exact ⟨r, rfl, h.append hclosed⟩
  refine Ensures.bind (Ensures.closing (idsOf plans) hbody) ?_ ?_ ?_
  · rintro ending s'' _ ⟨o, es, es', rfl, h, hclosed, hafter⟩
    exact (conclude_weathers (hclosing h hclosed hafter)).mono fun _ _ _ h => hprepend h
  · rintro f s'' _ ⟨o, es, es', rfl, h, hclosed, hafter⟩
    exact hprepend ((hclosing h hclosed hafter).of_not_returned (by simp) (by simp))
  · rintro s'' _ ⟨o, es, es', rfl, h, hclosed, hafter⟩
    exact hprepend ((hclosing h hclosed hafter).of_not_returned (by simp) (by simp))

theorem startSingle_asks (line : CommandLine) :
    Asks k (fun r => !r.isTending) (startSingle line) :=
  (openStage_asks (fun _ _ => rfl) (fun _ => rfl) _).bind fun _ =>
    closing_asks (fun _ => rfl) _ (start_asks _ _)

theorem runSingle_weathers (hfg : line.background = false) :
    Ensures k (runSingle line) s (Weathers (Abandoned singleInterruption)) := by
  refine Ensures.attempt_bind (((startSingle_asks line s).and (startSingle_ensures line)).and
    (startSingle_tells line s)) ?_ ?_ fun _ _ h => .of_untending h.1.1.2
  · rintro pid s' launch ⟨⟨⟨rfl, huntending⟩, -, -, hspawns, -⟩, htells⟩
    cases pid with
    | none =>
      refine .pure (.of_untending ?_)
      rwa [List.append_nil]
    | some pid =>
      have hreports : launch.reports = [] := (htells _ rfl).2 rfl
      have hstarted : launch.started = [pid] := by rw [Trace.started, hspawns _ rfl]; rfl
      show Ensures k (if line.blocks then awaitSingle line.first pid else
        (register ⟨pid, line.text, false⟩ true >>= fun _ => pure _)) _ _
      rw [if_pos (by rw [CommandLine.blocks, hfg]; rfl)]
      refine (awaitSingle_outlives line.first pid).mono fun o s'' rest h => ?_
      refine ⟨launch, rest, rfl, huntending, h.1, .inr (by simp [hreports]), ?_⟩
      rw [hstarted]
      exact h.2
  · rintro f s' es ⟨⟨⟨rfl, huntending⟩, -⟩, -⟩
    have hrest : Asks k (fun r => !r.isTending) (if f.isCannotOpen then
        (report f.message >>= fun _ => pure { exitCode := some 1, failure := some .io })
          else raise f : Shell (σ × Trace) Result) := by
      split
      · exact Asks.bind (.ask rfl) fun _ => .pure _
      · exact .raise f
    refine (hrest s').mono fun o s'' es' h => .of_untending ?_
    exact Trace.only_append.2 ⟨huntending, h.2⟩

/-- **Interrupts of a line.** A foreground line outlives an interrupt, or is lost by a fault that
came before it. -/
theorem execute_weathers (hcd : line.isChangeDirectory = false) (hfg : line.background = false) :
    Ensures k (execute line) s (Weathers (Abandoned (interruption line))) := by
  rw [execute, if_neg (by rw [hcd]; simp)]
  unfold interruption
  split
  · exact runPipeline_weathers hfg
  · exact runSingle_weathers hfg

end Shell

open Shell

/-! ### Contained interrupts -/

/-- Whether a text is one of those that report an interrupt. -/
def isInterruption (text : String) : Bool :=
  text == pipelineInterruption || text == singleInterruption

theorem isInterruption_interruption (line : CommandLine) :
    isInterruption (interruption line) = true := by
  unfold interruption
  split <;> decide

theorem isInterruption_complaint (command : Command) (f : Fault) :
    isInterruption (complaint command f) = false := by
  have hhead : (complaint command f).toList.head? = some 'f' := by
    have hstart : ∀ name reason : String,
        ("failed to execute: " ++ name ++ " - " ++ reason).toList.head? = some 'f' := by
      intro name reason
      have hliteral : ("failed to execute: ").toList.head? = some 'f' := by decide
      rw [String.append_assoc, String.append_assoc, String.toList_append, List.head?_append,
        hliteral, Option.some_or]
    exact hstart _ _
  have hne : ∀ text : String, text.toList.head? = some 'e' → complaint command f ≠ text := by
    rintro text htext rfl
    rw [hhead] at htext
    cases htext
  simp [isInterruption, hne pipelineInterruption rfl, hne singleInterruption rfl]

/-- The interrupt of a line has been contained. -/
structure Contained (line : CommandLine) (r : Result) (s' : Session) (es : Trace) : Prop where
  failure : r.failure = some .interrupted
  /-- The result names all processes that were started. -/
  pids : r.pids = es.started
  noted : s'.interrupted = true
  /-- The interrupt is reported once. -/
  reported : es.reports.filter isInterruption = [interruption line]
  /-- Each process has been seen to exit, or is a job. -/
  either : ∀ pid ∈ es.started, pid ∈ es.exits ∨ s'.jobs.contains pid = true

/-- **Containing interrupts.** Where the user interrupts a foreground line while it blocks, the line
returns just where no request that tends to its processes has met a fault before, and each request
after the interrupt returns. The interrupt is contained then. -/
theorem execute_contains_iff {line : CommandLine} {s : Session} {out : σ} {o : Outcome Result}
    {w : World (σ × Trace)} {before after : Trace} {e : Event}
    (hcd : line.isChangeDirectory = false) (hfg : line.background = false)
    (hrun : execute line k.traced ⟨s, (out, [])⟩ = (o, w))
    (hes : w.outside.2 = before ++ e :: after) (he : e.isStruck = true) :
    ((∃ r, o = .returned r) ↔ before.Calm ∧ after.Smooth) ∧
      ∀ r, o = .returned r → Contained line r w.session w.outside.2 := by
  obtain ⟨launch, rest, hsplit, huntending, hspawn, htold, h⟩ :=
    ((execute_weathers hcd hfg (s := s)).run hrun).2
  have hcalm := Trace.calm_of_only huntending
  have hnot : e ∉ launch := by
    intro hmem
    rw [hcalm.spared e hmem] at he
    cases he
  obtain ⟨mid, rfl, rfl⟩ := split_right (hsplit.symm.trans hes) hnot
  obtain ⟨hiff, hgood⟩ := h.of_isStruck rfl he
  refine ⟨by rw [hiff, Trace.calm_append]; exact ⟨fun h => ⟨⟨hcalm, h.1⟩, h.2⟩,
    fun h => ⟨h.1.2, h.2⟩⟩, fun r hr => ?_⟩
  obtain ⟨hmid, hleft⟩ := hgood r hr
  have hstarted : Trace.started w.outside.2 = launch.started := by
    have hnone : Trace.started (mid ++ e :: after) = [] := by
      rw [Trace.started, Trace.spawns_of_no_spawn hspawn]
      rfl
    rw [hsplit, Trace.started_append, hnone, List.append_nil]
  refine ⟨hleft.failure, hleft.pids.trans hstarted.symm, hleft.noted, ?_, ?_⟩
  · -- what is reported before is that stages cannot be started
    have hquiet : e.report? = none := by
      refine Event.report?_of_not_isReport ?_
      obtain ⟨r, o⟩ := e
      cases r <;> first | rfl | cases he
    have hcomplaints := htold.resolve_left fun h => by
      rw [h e (by simp)] at he
      cases he
    have hreports : Trace.reports w.outside.2 = launch.reports ++ [interruption line] := by
      rw [hsplit, Trace.reports_append, Trace.reports_append, hmid, List.nil_append]
      show _ ++ List.filterMap Event.report? (e :: after) = _
      rw [List.filterMap_cons_none hquiet]
      exact congrArg _ hleft.reports
    rw [hreports, List.filter_append, List.filter_eq_nil_iff.2, List.nil_append]
    · simp [isInterruption_interruption]
    · intro t ht
      obtain ⟨command, f, rfl⟩ := hcomplaints t ht
      simp [isInterruption_complaint]
  · rw [hstarted]
    intro pid hpid
    refine (hleft.either pid hpid).imp (fun hexit => ?_) id
    rw [hsplit, Trace.exits_append, Trace.exits_append]
    exact List.mem_append_right _ (List.mem_append_right _
      (by rw [← List.singleton_append, Trace.exits_append]; exact List.mem_append_right _ hexit))

/-- The interrupt of `interruptedRun` is contained: what tends to its processes goes well before it,
and all goes well after it. -/
theorem execute_contains_interrupted :
    ∃ (before after : Trace) (e : Event), interruptedRun.2.outside.2 = before ++ e :: after ∧
      e.isStruck = true ∧ before.Calm ∧ after.Smooth ∧
        Contained { first := ⟨"a", []⟩, others := [⟨"b", []⟩] }
          { pids := [1, 2], failure := some .interrupted } interruptedRun.2.session
          interruptedRun.2.outside.2 := by
  have hreturned : interruptedRun.1 =
      .returned { pids := [1, 2], failure := some .interrupted } := by decide +kernel
  have hstruck : interruptedRun.2.outside.2.any Event.isStruck = true := by decide +kernel
  obtain ⟨e, hmem, he⟩ := List.any_eq_true.1 hstruck
  obtain ⟨before, after, hes⟩ := List.append_of_mem hmem
  obtain ⟨hiff, hcontained⟩ := execute_contains_iff (by decide) (by decide)
    (Prod.ext hreturned rfl) hes he
  obtain ⟨hcalm, hsmooth⟩ := hiff.1 ⟨_, rfl⟩
  exact ⟨before, after, e, hes, he, hcalm, hsmooth, hcontained _ rfl⟩

/-- A host whose program `a` runs on when all is done, and where the user interrupts each wait for
it. The output of `b` cannot be read. -/
def troubledHost : Host Host.Scripted where
  programs := Host.Scripted.programs [("a", { lingers := true, interruptsWait := true }),
    ("b", { output := { ending := some (.system Fault.deviceError none) } })]
  patience := 40

/-- The line `a | b`, run on that host by a session that has no jobs. -/
def troubledRun : Outcome Result × World (Host.Machine Host.Scripted × Trace) :=
  execute { first := ⟨"a", []⟩, others := [⟨"b", []⟩] } troubledHost.kernel.traced
    ⟨rootSession, ({}, [])⟩

/-- An interrupt of the waiting after a fault is not contained: the line raises it, and the process
that runs on has neither been seen to exit nor is it a job. -/
theorem execute_raises_interrupt : troubledRun.1 = .raised .interrupt ∧
    (∃ e ∈ troubledRun.2.outside.2, e.isStruck = true) ∧
    troubledRun.2.outside.2.started = [1, 2] ∧ troubledRun.2.outside.2.exits = [] ∧
    troubledRun.2.session.jobs = {} ∧ troubledRun.2.session.interrupted = false := by
  refine ⟨by decide +kernel, ?_, by decide +kernel, by decide +kernel, by decide +kernel,
    by decide +kernel⟩
  rw [← List.any_eq_true]
  decide +kernel

end LineShell
