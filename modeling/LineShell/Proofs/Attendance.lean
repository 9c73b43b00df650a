import LineShell.Host.Answer
import LineShell.Host.Scripted
import LineShell.Proofs.Detach
import LineShell.Proofs.Orderly
import Mathlib.Logic.Basic

namespace LineShell

/-!
# Waiting for processes whose output nobody reads

A process that writes more than a pipe holds cannot exit before somebody reads or closes the pipe.

* `Event.awaits?` — the process that is waited for, or handed to the registry while it runs;
* `Event.attends?` — the process whose output pipe gets a reader for good, or is read to its end, or
  is closed;
* `Trace.Attended` — all processes that are waited for have been attended to;
* `Trace.CutShort` — the drain of the last stage has met a fault before the end of its output, and
  its process is waited for all the same;
* `runPipeline_attended_iff` — the one happens in a foreground line just where the other does not.
-/

variable {σ : Type} {k : Kernel σ} {s : Session}

/-! ### Waiting and attending -/

namespace Event

/-- The process that is waited for, or that is found running and so handed to the registry. -/
def awaits? : Event → Option ProcessId
  | ⟨.wait pid, _⟩ => some pid
  | ⟨.poll pid, .returned none⟩ => some pid
  | _ => none

/-- The process whose output pipe is given to a relay, or has been read to its end, or is closed.
A relay reads its source until it closes it. -/
def attends? : Event → Option ProcessId
  | ⟨.startRelay pid _ _, .returned _⟩ => some pid
  | ⟨.readOutput pid, .returned []⟩ => some pid
  | ⟨.closeOutput pid, .returned _⟩ => some pid
  | _ => none

theorem awaits?_of_isAside {e : Event} (h : e.request.isAside = true) : e.awaits? = none := by
  obtain ⟨r, o⟩ := e
  cases r <;> first | rfl | cases h

theorem eq_endOf_of_isDrain {e : Event} {pid : ProcessId} (h : e.request.isDrain = true)
    (hpid : e.attends? = some pid) : e = endOf pid := by
  obtain ⟨r, o⟩ := e
  cases r with
  | readOutput =>
    cases o with
    | returned bytes =>
      cases bytes with
      | nil => cases hpid; rfl
      | cons => cases hpid
    | raised => cases hpid
    | never => cases hpid
  | _ => first | cases hpid | cases h

theorem attends?_of_isAside {e : Event} (h : e.request.isAside = true) : e.attends? = none := by
  obtain ⟨r, o⟩ := e
  cases r <;> first | rfl | cases h

theorem awaits?_of_isLaunch {e : Event} (h : e.request.isLaunch = true) : e.awaits? = none := by
  obtain ⟨r, o⟩ := e
  cases r <;> first | rfl | cases h

theorem awaits?_of_isDrain {e : Event} (h : e.request.isDrain = true) : e.awaits? = none := by
  obtain ⟨r, o⟩ := e
  cases r <;> first | rfl | cases h

end Event

namespace Trace

/-- Some event attends to a process. -/
def Attends (es : Trace) (pid : ProcessId) : Prop := ∃ e ∈ es, e.attends? = some pid

/-- Whoever is waited for has been attended to before. -/
def Attended (es : Trace) : Prop :=
  Each (fun pre e => ∀ pid ∈ e.awaits?, pre.Attends pid) [] es

/-- Some request of a drain has met a fault. -/
def DrainFails (es : Trace) : Prop := ∃ e ∈ es, e.request.isDrain = true ∧ e.fault?.isSome = true

/-- The drain of the last stage has met a fault before the end of its output, and its process is
waited for all the same. -/
def CutShort (es : Trace) : Prop :=
  ∃ pre e post last, es = pre ++ e :: post ∧ es.spawns.getLast? = some (some last) ∧
    e.awaits? = some last ∧ DrainFails pre ∧ Event.endOf last ∉ pre

instance (es : Trace) (pid : ProcessId) : Decidable (es.Attends pid) :=
  inferInstanceAs (Decidable (∃ e ∈ es, e.attends? = some pid))

instance (es : Trace) : Decidable es.Attended :=
  inferInstanceAs (Decidable (Each (fun pre e => ∀ pid ∈ e.awaits?, pre.Attends pid) [] es))

theorem attends_append {es es' : Trace} {pid : ProcessId} :
    Attends (es ++ es') pid ↔ es.Attends pid ∨ es'.Attends pid := by
  simp only [Attends, List.mem_append, or_and_right, exists_or]

end Trace

namespace Shell

/-! ### Tending to a pipeline -/

/-- A process may be waited for: it is not the one of the last stage, or its output has been read
to the end, unless a fault has cut the drain short. -/
def Awaitable (last : Option ProcessId) (others : List ProcessId) (pre : Trace)
    (pid : ProcessId) : Prop :=
  pid ∈ others ∨ last = some pid ∧ (Event.endOf pid ∈ pre ∨ pre.DrainFails)

/-- An event of tending to a pipeline, after those before it. -/
structure Tending (last : Option ProcessId) (others : List ProcessId) (pre : Trace) (e : Event) :
    Prop where
  awaits : ∀ pid ∈ e.awaits?, Awaitable last others pre pid
  attends : ∀ pid ∈ e.attends?, Event.endOf pid ∈ pre ++ [e]
  spawned : e.spawned? = none

variable {last : Option ProcessId} {others : List ProcessId} {pre pre' es : Trace}
  {stages : List Stage} {relays : List RelayId} {sink : Option FileId}

theorem Awaitable.mono {pid : ProcessId} (h : Awaitable last others pre pid) (hsub : pre ⊆ pre') :
    Awaitable last others pre' pid := by
  rcases h with h | ⟨hlast, h | ⟨e, he, hd⟩⟩
  · exact .inl h
  · exact .inr ⟨hlast, .inl (hsub h)⟩
  · exact .inr ⟨hlast, .inr ⟨e, hsub he, hd⟩⟩

theorem tending_of_aside (h : es.Aside) : Trace.Each (Tending last others) pre es :=
  .of_only h fun _ e he => ⟨by simp [Event.awaits?_of_isAside he],
    by simp [Event.attends?_of_isAside he], Event.spawned?_of_isAside he⟩

theorem tending_of_drain (h : es.Only Request.isDrain) :
    Trace.Each (Tending last others) pre es := by
  refine .of_only h fun pre e he => ⟨by simp [Event.awaits?_of_isDrain he], fun pid hpid => ?_, ?_⟩
  · rw [Event.eq_endOf_of_isDrain he hpid]
    exact List.mem_append_right _ (List.mem_singleton_self _)
  · obtain ⟨r, o⟩ := e
    cases r <;> first | rfl | cases he

theorem tending_wait {pid : ProcessId} (h : Awaitable last others pre pid)
    (o : Outcome (Request.Reply (.wait pid))) :
    Tending last others pre ⟨.wait pid, o⟩ := by
  refine ⟨?_, by rintro _ ⟨⟩, rfl⟩
  rintro _ ⟨⟩
  exact h

theorem waitAll_tends (pids : List ProcessId)
    (h : ∀ pid ∈ pids, Awaitable last others pre pid) :
    Ensures k (pids.forM fun pid => do let _ ← wait pid) s fun _ _ es =>
      Trace.Each (Tending last others) pre es := by
  induction pids generalizing s pre with
  | nil => exact .pure trivial
  | cons pid pids ih =>
    show Ensures k ((wait pid >>= fun _ => pure ()) >>= fun _ => pids.forM _) s _
    rw [bind_assoc]
    have hpid := h pid List.mem_cons_self
    refine .ask_bind (fun code => ?_) (fun f => ⟨tending_wait hpid _, trivial⟩)
      ⟨tending_wait hpid _, trivial⟩
    rw [pure_bind]
    refine (ih fun q hq => ?_).mono fun _ _ _ hes => ⟨tending_wait hpid _, hes⟩
    exact (h q (List.mem_cons_of_mem _ hq)).mono (List.subset_append_left _ _)

theorem detach_tends (stages : List Stage)
    (h : ∀ pid ∈ pidsOf stages, Awaitable last others pre pid) :
    Ensures k (detach stages) s fun _ _ es => Trace.Each (Tending last others) pre es := by
  induction stages generalizing s pre with
  | nil => exact .pure trivial
  | cons stage stages ih =>
    obtain ⟨command, pid⟩ := stage
    cases pid with
    | none => exact ih h
    | some pid =>
      have hpid := h pid List.mem_cons_self
      have hrest : ∀ pre', pre ⊆ pre' → ∀ q ∈ pidsOf stages, Awaitable last others pre' q :=
        fun pre' hsub q hq => (h q (List.mem_cons_of_mem _ hq)).mono hsub
      have hpoll : ∀ o, Tending last others pre ⟨.poll pid, o⟩ := by
        refine fun o => ⟨?_, by rintro _ ⟨⟩, rfl⟩
        rcases o with (_ | code) | f | _ <;> rintro _ ⟨⟩
        exact hpid
      refine Ensures.each_bind ?_ fun _ s' es => ih (hrest _ (List.subset_append_left pre es))
      · refine .ask_bind (fun code => ?_) (fun f => ⟨hpoll _, trivial⟩) ⟨hpoll _, trivial⟩
        cases code with
        | some code => exact .pure ⟨hpoll _, trivial⟩
        | none => exact (register_ensures _ _).mono fun _ _ _ h => ⟨hpoll _, tending_of_aside h.2⟩

theorem leaveInterrupted_tends (text : String) (stages : List Stage)
    (h : ∀ pid ∈ pidsOf stages, Awaitable last others pre pid) :
    Ensures k (leaveInterrupted text stages) s fun _ _ es =>
      Trace.Each (Tending last others) pre es := by
  have hreport : ∀ o, Trace.Each (Tending last others) pre [⟨.report text, o⟩] :=
    fun o => tending_of_aside (by simp [Request.isAside])
  refine .modifySession_bind (.ask_bind (fun _ => ?_) (fun f => hreport _) (hreport _))
  refine (detach_tends stages fun pid hpid => ?_).mono fun _ _ _ hes => ⟨(hreport _).1, hes⟩
  exact (h pid hpid).mono (List.subset_append_left _ _)

theorem drainFails_of_yields {R : Unit → Trace → Prop} {f : Fault}
    (hdrain : es.Only Request.isDrain) (h : Yields R (.raised f) es) : es.DrainFails := by
  obtain ⟨e, he, hf⟩ := h
  exact ⟨e, he, hdrain e he, by rw [hf]; rfl⟩

/-- Whatever comes of draining the last stage and waiting for it, the drain has come to the end of
the output, or a request of it has met a fault. -/
theorem drainLast_tends (last : Option ProcessId) :
    Ensures k (drainLast sink last) s fun o _ es => Trace.Each (Tending last others) [] es ∧
      (o ≠ .never → ∀ pid, last = some pid → Event.endOf pid ∈ es ∨ es.DrainFails) := by
  cases last with
  | none => exact .pure ⟨trivial, by simp⟩
  | some pid =>
    refine Ensures.bind (drain_performs pid sink) ?_ ?_ ?_
    · rintro _ s' es ⟨rfl, hdrain, hend⟩
      have hes : Trace.Each (Tending (some pid) others) [] es := tending_of_drain hdrain
      have hended : ∀ es' : Trace, Event.endOf pid ∈ es ++ es' :=
        fun es' => List.mem_append_left es' hend
      have hclose : ∀ o, Tending (some pid) others es ⟨.closeOutput pid, o⟩ := by
        refine fun o => ⟨by rintro _ ⟨⟩, fun q hq => ?_, rfl⟩
        cases o with
        | returned a => cases hq; exact hended _
        | raised f => cases hq
        | never => cases hq
      have hwait : ∀ o o', Tending (some pid) others (es ++ [⟨.closeOutput pid, o⟩])
          ⟨.wait pid, o'⟩ := fun o o' => tending_wait (.inr ⟨rfl, .inl (hended _)⟩) o'
      refine .ask_bind (fun _ => .ask fun o => ?_) (fun f => ?_) ?_
      · refine ⟨Trace.each_append.2 ⟨hes, hclose _, hwait _ _, trivial⟩, fun _ q hq => ?_⟩
        cases hq
        exact .inl (hended _)
      · refine ⟨Trace.each_append.2 ⟨hes, hclose _, trivial⟩, fun _ q hq => ?_⟩
        cases hq
        exact .inl (hended _)
      · exact ⟨Trace.each_append.2 ⟨hes, hclose _, trivial⟩, fun h => absurd rfl h⟩
    · rintro f s' es ⟨rfl, hdrain, hmet⟩
      exact ⟨tending_of_drain hdrain, fun _ _ _ => .inr (drainFails_of_yields hdrain hmet)⟩
    · rintro s' es ⟨rfl, hdrain, -⟩
      exact ⟨tending_of_drain hdrain, fun h => absurd rfl h⟩

theorem awaitOthers_tends (pre : Trace) : Ensures k (awaitOthers stages relays) s fun _ _ es =>
    Trace.Each (Tending last (pidsOf stages.dropLast)) pre es := by
  have hjoin : ∀ pre relay o, Tending last (pidsOf stages.dropLast) pre ⟨.joinRelay relay, o⟩ :=
    fun pre relay o => ⟨by rintro _ ⟨⟩, by rintro _ ⟨⟩, rfl⟩
  have hjoins : Ensures k (relays.forM joinRelay) s fun _ _ es =>
      Trace.Each (Tending last (pidsOf stages.dropLast)) pre es := by
    induction relays generalizing pre with
    | nil => exact .pure trivial
    | cons relay relays ih =>
      exact .ask_bind (fun _ => (ih _).mono fun _ _ _ h => ⟨hjoin _ _ _, h⟩)
        (fun _ => ⟨hjoin _ _ _, trivial⟩) ⟨hjoin _ _ _, trivial⟩
  exact hjoins.each_bind fun _ s' es => waitAll_tends _ fun pid hpid => .inl hpid

/-- Once a pipeline has been collected, with or without a fault, each of its processes may be waited
for, unless the drain was cut short. -/
theorem collect_tends : Ensures k (collect sink stages relays) s fun o _ es =>
    Trace.Each (Tending (lastPid stages) (pidsOf stages.dropLast)) [] es ∧
      ∀ c, o = .returned c →
        ∀ pid ∈ pidsOf stages, Awaitable (lastPid stages) (pidsOf stages.dropLast) es pid := by
  have hall : ∀ {es : Trace}, (∀ pid, lastPid stages = some pid →
      Event.endOf pid ∈ es ∨ es.DrainFails) → ∀ pid ∈ pidsOf stages,
        Awaitable (lastPid stages) (pidsOf stages.dropLast) es pid := by
    intro es h pid hpid
    rw [pidsOf_eq, List.mem_append, Option.mem_toList] at hpid
    exact hpid.imp id fun hlast => ⟨hlast, h pid hlast⟩
  refine Ensures.attempt_bind (drainLast_tends (lastPid stages)) ?_ ?_ fun s' es h => ⟨h.1, nofun⟩
  · rintro code s' es ⟨hes, hlast⟩
    have hpids := hall (hlast nofun)
    have hmono : ∀ es' : Trace, ∀ pid ∈ pidsOf stages,
        Awaitable (lastPid stages) (pidsOf stages.dropLast) (es ++ es') pid :=
      fun es' pid hpid => (hpids pid hpid).mono (List.subset_append_left _ _)
    refine Ensures.attempt_bind (awaitOthers_tends es) ?_ ?_ fun s'' es' h =>
      ⟨Trace.each_append.2 ⟨hes, h⟩, nofun⟩
    · refine fun _ s'' es' hes' => .pure ⟨?_, fun _ _ => hmono _⟩
      rw [List.append_nil]
      exact Trace.each_append.2 ⟨hes, hes'⟩
    · refine fun _ s'' es' hes' => .pure ⟨?_, fun _ _ => hmono _⟩
      rw [List.append_nil]
      exact Trace.each_append.2 ⟨hes, hes'⟩
  · rintro f s' es ⟨hes, hlast⟩
    refine .pure ⟨?_, fun _ _ => ?_⟩
    · rw [List.append_nil]
      exact hes
    · rw [List.append_nil]
      exact hall (hlast nofun)

theorem awaitPipeline_tends (result : Result) :
    Ensures k (awaitPipeline sink stages relays result) s fun _ _ es =>
      Trace.Each (Tending (lastPid stages) (pidsOf stages.dropLast)) [] es := by
  refine collect_tends.bind ?_ (fun _ _ _ h => h.1) fun _ _ h => h.1
  rintro ⟨code, fault⟩ s' es ⟨hes, hcollected⟩
  have hpids := hcollected _ rfl
  have hrest : ∀ {x : Shell (σ × Trace) Ending}, (Ensures k x s' fun _ _ es' =>
      Trace.Each (Tending (lastPid stages) (pidsOf stages.dropLast)) es es') →
      Ensures k x s' fun _ _ es' =>
        Trace.Each (Tending (lastPid stages) (pidsOf stages.dropLast)) [] (es ++ es') :=
    fun h => h.mono fun _ _ _ hes' => Trace.each_append.2 ⟨hes, hes'⟩
  cases fault with
  | none => exact hrest (.pure trivial)
  | some f =>
    cases f with
    | interrupt =>
      exact hrest ((leaveInterrupted_tends _ _ hpids).each_bind fun _ _ _ => .pure trivial)
    | system | described | brokenPipe | cannotOpen =>
      refine hrest (Ensures.each_bind (.ask fun _ => tending_of_aside (by simp [Request.isAside]))
        fun _ s'' es' => Ensures.each_bind (waitAll_tends _ fun pid hpid => ?_)
          fun _ _ _ => .pure trivial)
      exact (hpids pid hpid).mono (List.subset_append_left _ _)
    | invalid | wrongKind | outOfRange | linkLoop => exact hrest (.raise trivial)

/-! ### Whole lines -/

theorem Started.not_attends {command : Command} {streams : Streams} {up : Option ProcessId}
    (h : Started command streams s up es) (pid : ProcessId) : ¬ es.Attends pid := by
  obtain ⟨b, a, o, rfl, hb, ha, -⟩ := h
  rintro ⟨e, he, hpid⟩
  rcases List.mem_append.1 he with he | he
  · rw [Event.attends?_of_isAside (hb e he)] at hpid
    cases hpid
  · rcases List.mem_cons.1 he with rfl | he
    · cases hpid
    · rw [Event.attends?_of_isAside (ha e he)] at hpid
      cases hpid

theorem Linked.attends_iff {chunk : Int} {before : Predecessor} {up : Option ProcessId}
    (h : Linked chunk before up relays es) (pid : ProcessId) :
    es.Attends pid ↔ before = .running pid := by
  cases before with
  | running p =>
    obtain ⟨relay, -, rfl⟩ := h
    constructor
    · rintro ⟨e, he, hpid⟩
      rcases List.mem_singleton.1 he with rfl
      cases hpid
      rfl
    · rintro ⟨⟩
      exact ⟨_, List.mem_singleton_self _, rfl⟩
  | none => simp [h.2, Trace.Attends]
  | missing => simp [h.2, Trace.Attends]

/-- A process is attended to by starting the stages behind it, if there are any. -/
theorem Launched.attends_iff {foreground : Bool} {chunk : Int} {before : Predecessor}
    {plans : List Plan} (h : Launched foreground chunk s before plans stages relays es)
    (pid : ProcessId) :
    es.Attends pid ↔ (before = .running pid ∧ plans ≠ []) ∨ pid ∈ pidsOf stages.dropLast := by
  induction h with
  | nil => simp [Trace.Attends, pidsOf]
  | @cons before plan plans up stages _ _ _ _ _ hstarted hlinked hrest ih =>
    rw [Trace.attends_append, Trace.attends_append, ih, hlinked.attends_iff]
    have hlen := hrest.length_eq
    cases plans with
    | nil =>
      obtain rfl : stages = [] := List.length_eq_zero_iff.1 hlen
      simp [hstarted.not_attends pid, pidsOf]
    | cons next plans =>
      obtain ⟨stage, stages, rfl⟩ := List.exists_cons_of_length_eq_add_one hlen
      cases up with
      | none => simp [hstarted.not_attends pid, pidsOf, Predecessor.of]
      | some up =>
        simp [hstarted.not_attends pid, pidsOf, Predecessor.of, eq_comm]

/-- A trace that starts processes and then tends to them, with the files opened before and closed
after. -/
def Tended (es : Trace) : Prop :=
  ∃ before start rest after : Trace, es = before ++ (start ++ rest) ++ after ∧ before.Aside ∧
    after.Aside ∧ start.Only Request.isLaunch ∧ (rest = [] ∨
      ∃ foreground chunk s plans stages relays,
        Launched foreground chunk s .none plans stages relays start ∧
          Trace.Each (Tending (lastPid stages) (pidsOf stages.dropLast)) [] rest)

theorem Tended.of_aside (h : es.Aside) : Tended es :=
  ⟨es, [], [], [], by simp, h, Trace.only_nil _, Trace.only_nil _, .inl rfl⟩

theorem Tended.prepend {es' : Trace} (h : Tended es) (haside : es'.Aside) :
    Tended (es' ++ es) := by
  obtain ⟨before, start, rest, after, rfl, hb, ha, h⟩ := h
  exact ⟨es' ++ before, start, rest, after, by simp, Trace.only_append.2 ⟨haside, hb⟩, ha, h⟩

theorem Tended.append {es' : Trace} (h : Tended es) (haside : es'.Aside) : Tended (es ++ es') := by
  obtain ⟨before, start, rest, after, rfl, hb, ha, h⟩ := h
  exact ⟨before, start, rest, after ++ es', by simp, hb, Trace.only_append.2 ⟨ha, haside⟩, h⟩

theorem runStages_tends {line : CommandLine} (hfg : line.background = false) (plans : List Plan) :
    Ensures k (runStages line plans) s fun _ _ es => Tended es := by
  have hlaunch : ∀ {start : Trace}, start.Only Request.isLaunch → Tended start := fun {start} h =>
    ⟨[], start, [], [], by simp, Trace.only_nil _, Trace.only_nil _, h, .inl rfl⟩
  refine .session_bind (Ensures.bind launch_performs ?_ (fun _ _ _ h => hlaunch h.2.1)
    fun _ _ h => hlaunch h.2.1)
  rintro ⟨stages, relays⟩ s' start ⟨rfl, hes, hlaunched⟩
  simp only [CommandLine.blocks, hfg, Bool.not_false, if_true]
  refine (awaitPipeline_tends _).mono fun _ _ rest hrest => ?_
  exact ⟨[], start, rest, [], by simp, Trace.only_nil _, Trace.only_nil _, hes,
    .inr ⟨_, _, _, _, _, _, hlaunched, hrest⟩⟩

theorem runPipeline_tends {line : CommandLine} (hfg : line.background = false) :
    Ensures k (runPipeline line) s fun _ _ es => Tended es := by
  rw [runPipeline_eq]
  refine Ensures.bind (openStages_ensures _) ?_ (fun _ _ _ h => .of_aside h.2.1)
    fun _ _ h => .of_aside h.2.1
  rintro ⟨plans, fault⟩ s' es ⟨rfl, hopened, -⟩
  have hbody : Ensures k (runOpened line plans fault) s' fun _ _ es => Tended es := by
    cases fault with
    | none => exact runStages_tends hfg plans
    | some f => exact (refuse_ensures f).mono fun _ _ _ h => .of_aside h.2.1
  have hclosed : ∀ {es₁ es₂ : Trace}, Tended es₁ → es₂.Only Request.isClose →
      Tended (es ++ (es₁ ++ es₂)) := fun h hclose =>
    (h.append (hclose.mono fun _ => Request.isAside_of_isClose)).prepend hopened
  refine Ensures.bind (Ensures.closing _ hbody) ?_ ?_ ?_
  · rintro ending s'' _ ⟨-, es₁, es₂, rfl, h, hclose, -⟩
    have hreports : Asks k Request.isAside (conclude ending) := by
      cases ending with
      | done r => exact .pure r
      | exited r relays lastStarted =>
        exact (Performs.asks fun s => ⟨_, reportRelays_performs r relays⟩).bind fun r' =>
          (reportExit_asks r' lastStarted).bind fun _ => .pure _
    refine (hreports s'').mono ?_
    rintro o s₁ es₃ ⟨-, haside⟩
    rw [← List.append_assoc]
    exact (hclosed h hclose).append haside
  · rintro f s'' _ ⟨-, es₁, es₂, rfl, h, hclose, -⟩
    exact hclosed h hclose
  · rintro s'' _ ⟨-, es₁, es₂, rfl, h, hclose, -⟩
    exact hclosed h hclose

end Shell

open Shell

/-! ### Where processes wait in vain -/

/-- An element that is not in the first part stands in the second. -/
theorem split_right {α : Type} {x y pre post : List α} {e : α} (h : x ++ y = pre ++ e :: post)
    (he : e ∉ x) : ∃ a, pre = x ++ a ∧ y = a ++ e :: post := by
  rcases List.append_eq_append_iff.1 h with ⟨a, rfl, rfl⟩ | ⟨a, rfl, hy⟩
  · exact ⟨a, rfl, rfl⟩
  · cases a with
    | nil => exact ⟨[], by simp, hy.symm⟩
    | cons v a =>
      obtain ⟨rfl, -⟩ := List.cons_eq_cons.1 hy
      exact absurd (by simp) he

/-- An element that is not in the second part stands in the first. -/
theorem split_left {α : Type} {x y pre post : List α} {e : α} (h : x ++ y = pre ++ e :: post)
    (he : e ∉ y) : ∃ b, x = pre ++ e :: b := by
  rcases List.append_eq_append_iff.1 h with ⟨a, rfl, rfl⟩ | ⟨a, rfl, hy⟩
  · exact absurd (by simp) he
  · cases a with
    | nil =>
      rw [List.nil_append] at hy
      exact absurd (hy ▸ List.mem_cons_self) he
    | cons v a =>
      obtain ⟨rfl, -⟩ := List.cons_eq_cons.1 hy
      exact ⟨a, rfl⟩

/-- In a tended trace processes are waited for only after they have been started. -/
theorem awaits_split {before start rest after pre post : Trace} {e : Event} {pid : ProcessId}
    (hb : before.Aside) (ha : after.Aside) (hs : start.Only Request.isLaunch)
    (hes : before ++ (start ++ rest) ++ after = pre ++ e :: post) (hpid : e.awaits? = some pid) :
    ∃ a b, rest = a ++ e :: b ∧ pre = before ++ (start ++ a) := by
  have haside : ∀ {es : Trace}, es.Aside → e ∉ es := fun h he => by
    rw [Event.awaits?_of_isAside (h e he)] at hpid
    cases hpid
  have hlaunch : e ∉ start := fun he => by
    rw [Event.awaits?_of_isLaunch (hs e he)] at hpid
    cases hpid
  obtain ⟨c, hc⟩ := split_left hes (haside ha)
  obtain ⟨d, rfl, hd⟩ := split_right hc (haside hb)
  obtain ⟨a, rfl, rfl⟩ := split_right hd hlaunch
  exact ⟨a, c, rfl, rfl⟩

/-- The last of the attempts to start processes is that of the last stage. -/
theorem getLast?_spawns_of_launched {foreground : Bool} {chunk : Int} {s : Session}
    {before : Predecessor} {plans : List Plan} {stages : List Stage} {relays : List RelayId}
    {es : Trace} (h : Launched foreground chunk s before plans stages relays es) (pid : ProcessId) :
    es.spawns.getLast? = some (some pid) ↔ lastPid stages = some pid := by
  rw [h.spawns, List.getLast?_map, lastPid]
  cases stages.getLast? <;> simp

theorem not_attends_of_aside {es : Trace} (h : es.Aside) (pid : ProcessId) : ¬ es.Attends pid := by
  rintro ⟨e, he, hpid⟩
  rw [Event.attends?_of_isAside (h e he)] at hpid
  cases hpid

section

variable {foreground : Bool} {chunk : Int} {s : Session} {plans : List Plan} {stages : List Stage}
  {relays : List RelayId} {before start rest a b : Trace} {e : Event} {pid : ProcessId}

/-- Only the other stages have relays, and their processes have other numbers than the last one. -/
theorem not_attends_last (hlaunched : Launched foreground chunk s .none plans stages relays start)
    (hb : before.Aside) (hs : start.Only Request.isLaunch) {children : List ProcessId}
    (hfresh : (before ++ start ++ rest).fresh children = true) (hlast : lastPid stages = some pid) :
    ¬ start.Attends pid := by
  have hexits : (before ++ start).exits = [] := by
    rw [Trace.exits_append, Trace.exits_of_aside hb, Trace.exits_of_only_isLaunch hs]
    rfl
  have hstarted : (before ++ start).started = pidsOf stages := by
    rw [Trace.started, Trace.spawns_append, Trace.spawns_of_aside hb, List.nil_append,
      hlaunched.spawns, List.filterMap_map]
    rfl
  have hnodup := (Trace.nodup_started_of_fresh hfresh hexits).1
  rw [hstarted, pidsOf_eq, hlast] at hnodup
  rw [hlaunched.attends_iff]
  rintro (⟨hnone, -⟩ | hmem)
  · cases hnone
  · exact (List.nodup_append.1 hnodup).2.2 _ hmem _ (List.mem_singleton_self _) rfl

/-- Tending attends to a process only by reading its output to the end. -/
theorem endOf_mem_of_attends {last : Option ProcessId} {others : List ProcessId}
    (heach : Trace.Each (Tending last others) [] (a ++ b)) (h : a.Attends pid) :
    Event.endOf pid ∈ a := by
  obtain ⟨v, hv, hpid⟩ := h
  obtain ⟨c, d, rfl⟩ := List.append_of_mem hv
  rw [List.append_assoc, List.cons_append] at heach
  have hread : Event.endOf pid ∈ c ++ [v] := heach.at.attends pid hpid
  rw [List.append_cons]
  exact List.mem_append_left d hread

/-- Whoever is waited for has been attended to, or is the process of the last stage, whose drain has
met a fault. -/
theorem attends_of_awaits (hlaunched : Launched foreground chunk s .none plans stages relays start)
    (heach : Trace.Each (Tending (lastPid stages) (pidsOf stages.dropLast)) [] (a ++ e :: b))
    (hpid : e.awaits? = some pid) :
    (start ++ a).Attends pid ∨ lastPid stages = some pid ∧ a.DrainFails := by
  rcases heach.at.awaits pid hpid with hmem | ⟨hlast, hend | hfails⟩
  · exact .inl (Trace.attends_append.2 (.inl (hlaunched.attends_iff pid |>.2 (.inr hmem))))
  · exact .inl (Trace.attends_append.2 (.inr ⟨_, hend, rfl⟩))
  · exact .inr ⟨hlast, hfails⟩

end

/-- **Where processes wait in vain.** In a tended trace whoever is waited for has been attended to,
unless the drain of the last stage was cut short. -/
theorem attended_iff_of_tended {es : Trace} (h : Tended es) {children : List ProcessId}
    (hfresh : es.fresh children = true) : es.Attended ↔ ¬ es.CutShort := by
  obtain ⟨before, start, rest, after, rfl, hb, ha, hs, hrest⟩ := h
  rcases hrest with rfl | ⟨foreground, chunk, s, plans, stages, relays, hlaunched, heach⟩
  · -- nothing is waited for at all
    have hnone : ∀ pre e post pid, before ++ (start ++ []) ++ after = pre ++ e :: post →
        e.awaits? ≠ some pid := by
      intro pre e post pid hes hpid
      obtain ⟨a, b, hab, -⟩ := awaits_split hb ha hs hes hpid
      simp at hab
    refine iff_of_true (Trace.each_iff.2 fun a e b hes pid hpid => ?_) ?_
    · exact absurd hpid (hnone a e b pid hes)
    · rintro ⟨pre, e, post, last, hes, -, hpid, -⟩
      exact hnone pre e post last hes hpid
  · have hspawns : (before ++ (start ++ rest) ++ after).spawns = start.spawns := by
      have hrest : rest.spawns = [] := List.filterMap_eq_nil_iff.2 fun e he => by
        obtain ⟨a, b, rfl⟩ := List.append_of_mem he
        exact heach.at.spawned
      simp [Trace.spawns_of_aside hb, Trace.spawns_of_aside ha, hrest]
    constructor
    · rintro hattended ⟨pre, e, post, last, hes, hlast, hpid, -, hend⟩
      rw [hspawns, getLast?_spawns_of_launched hlaunched] at hlast
      have hattends : Trace.Attends ([] ++ pre) last :=
        Trace.each_iff.1 hattended pre e post hes last hpid
      obtain ⟨a, b, rfl, rfl⟩ := awaits_split hb ha hs hes hpid
      rw [List.nil_append, Trace.attends_append, Trace.attends_append] at hattends
      rcases hattends with hattends | hattends | hattends
      · exact not_attends_of_aside hb last hattends
      · have hparts : (before ++ start ++ (a ++ e :: b ++ after)).fresh children = true := by
          rw [← hfresh]
          simp
        exact not_attends_last hlaunched hb hs hparts hlast hattends
      · have hread := endOf_mem_of_attends heach hattends
        exact hend (by simp [hread])
    · intro hcut
      refine Trace.each_iff.2 fun pre e post hes pid hpid => ?_
      rw [List.nil_append]
      obtain ⟨a, b, rfl, rfl⟩ := awaits_split hb ha hs hes hpid
      rcases attends_of_awaits hlaunched heach hpid with hattends | ⟨hlast, v, hv, hfail⟩
      · exact Trace.attends_append.2 (.inr hattends)
      · -- the drain was cut short unless the output had been read to its end before the fault
        by_cases hread : Event.endOf pid ∈ before ++ (start ++ a)
        · exact ⟨_, hread, rfl⟩
        · refine absurd ⟨_, e, post, pid, hes, ?_, hpid, ⟨v, by simp [hv], hfail⟩, hread⟩ hcut
          rw [hspawns, getLast?_spawns_of_launched hlaunched]
          exact hlast

/-- **Where a foreground pipeline waits in vain.** Whatever the surroundings answer, each process
that is waited for, or left to the registry while it runs, has a relay on its output, or its output
has been read to the end or closed. This fails just where the drain of the last stage is cut short
by a fault. -/
theorem runPipeline_attended_iff {line : CommandLine} {s s' : Session} {out out' : σ}
    {o : Outcome Result} {es : Trace} (hline : line.background = false)
    (hrun : runPipeline line k.traced ⟨s, (out, [])⟩ = (o, ⟨s', (out', es)⟩))
    (hfresh : es.fresh s.jobs.pids = true) : es.Attended ↔ ¬ es.CutShort :=
  attended_iff_of_tended ((runPipeline_tends hline).run hrun).2 hfresh

/-- A host where reading the output of `b` meets a fault behind its first line. -/
def faultyHost : Host Host.Scripted where
  programs := Host.Scripted.programs
    [("a", {}), ("b", { out := [120, 10], output := { ending := some (.system 5 none) } })]
  patience := 40

/-- The line `a | b`, run on that host by a session that has no jobs. -/
def faultyRun : Outcome Result × World (Host.Machine Host.Scripted × Trace) :=
  runPipeline { first := ⟨"a", []⟩, others := [⟨"b", []⟩] } faultyHost.kernel.traced
    ⟨{ cwd := ⟨.root, []⟩, home := "/", settings := { historyFile := "" } }, ({}, [])⟩

theorem faultyRun_returned :
    faultyRun.1 = .returned { pids := [1, 2], failure := some .io } := by
  decide +kernel

theorem faultyRun_not_attended : ¬ faultyRun.2.outside.2.Attended := by
  decide +kernel

/-- After the fault both processes are waited for, and nobody reads what `b` may still write. -/
theorem runPipeline_awaits_unread : faultyRun.1 = .returned { pids := [1, 2], failure := some .io } ∧
    faultyRun.2.outside.2.exits = [1, 2] ∧ ¬ faultyRun.2.outside.2.Attended :=
  ⟨faultyRun_returned, by decide +kernel, faultyRun_not_attended⟩

theorem runPipeline_cutShort : faultyRun.2.outside.2.CutShort :=
  Classical.not_not.1 fun hcut => faultyRun_not_attended
    ((runPipeline_attended_iff (by decide) (Prod.ext faultyRun_returned rfl)
      (by decide +kernel)).2 hcut)

end LineShell
