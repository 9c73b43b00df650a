import Mathlib
import LineShell.Proofs.Delivery
import LineShell.Proofs.Grammar
import LineShell.Proofs.Refusal

namespace LineShell

open Text (Bytes)

/-!
# Redirections

What becomes of the last redirection of each stream that is written on a line.

* `Trace.HandsOn` — what is read from processes is handed on at once, to a file or to the console;
* `Standard`, `Token.lastRedirection` — the streams that a line redirects, and what the last
  redirection of each names;
* `Attached` — a stream of a line leads to a file, or is left as the interpreter has it;
* `runSingle_attaches`, `runPipeline_attaches` — once its files are open, a line is tried with all
  its streams attached;
* `handleLine_attaches` — each redirection of a line is attached to the file that it names just if
  it names one, or the line is refused.
-/

variable {σ α β : Type} {k : Kernel σ} {s : Session}

/-! ### Bytes that are handed on at once -/

/-- A request hands bytes on to a file, or else to the console. A console that takes only text gets
them decoded. -/
def Request.Hands (sink : Option FileId) (bytes : Bytes) (r : Request) : Prop :=
  match sink with
  | some id => r = .writeFile id bytes
  | none => r = .writeConsole bytes ∨ r = .print (Text.decodeLossy bytes)

/-- Whatever is read from a process is handed on at once. -/
def Trace.HandsOn (sink : Option FileId) : Trace → Prop
  | [] => True
  | e :: es =>
    (e.reading ≠ [] → ∃ e', es.head? = some e' ∧ e'.request.Hands sink e.reading) ∧ HandsOn sink es

namespace Trace

variable {sink : Option FileId} {es es' : Trace}

theorem HandsOn.append (h : es.HandsOn sink) (h' : es'.HandsOn sink) :
    (es ++ es').HandsOn sink := by
  induction es with
  | nil => exact h'
  | cons e es ih =>
    refine ⟨fun hread => ?_, ih h.2⟩
    obtain ⟨e', hhead, hhands⟩ := h.1 hread
    refine ⟨e', ?_, hhands⟩
    show (es ++ es').head? = some e'
    rw [List.head?_append, hhead]
    rfl

/-- Where nothing is read, nothing needs to be handed on. -/
theorem handsOn_of_only {p : Request → Bool} (h : es.Only p) (hp : ∀ pid, p (.readOutput pid) = false) :
    es.HandsOn sink := by
  induction es with
  | nil => trivial
  | cons e es ih =>
    obtain ⟨he, hes⟩ := only_cons.1 h
    refine ⟨fun hread => absurd ?_ hread, ih hes⟩
    obtain ⟨r, o⟩ := e
    cases r with
    | readOutput pid =>
      rw [hp] at he
      cases he
    | _ => rfl

theorem handsOn_of_after (h : es.Only (Request.isAfter none)) : es.HandsOn sink :=
  handsOn_of_only h fun _ => rfl

theorem handsOn_of_aside (h : es.Aside) : es.HandsOn sink := handsOn_of_only h fun _ => rfl

end Trace

/-- Whatever a run reads from a process it hands on at once. -/
def HandsOn (k : Kernel σ) (sink : Option FileId) (x : Shell (σ × Trace) α) : Prop :=
  ∀ s, Ensures k x s fun _ _ es => es.HandsOn sink

namespace HandsOn

variable {sink : Option FileId} {x : Shell (σ × Trace) α} {f : α → Shell (σ × Trace) β}

theorem of_asks (h : Asks k (Request.isAfter none) x) : HandsOn k sink x :=
  fun s => (h s).mono fun _ _ _ h => Trace.handsOn_of_after h.2

theorem bind (hx : HandsOn k sink x) (hf : ∀ a, HandsOn k sink (f a)) :
    HandsOn k sink (x >>= f) :=
  fun s => (hx s).bind (fun a s' _ hes => (hf a s').mono fun _ _ _ h => hes.append h)
    (fun _ _ _ h => h) fun _ _ h => h

theorem attempt (hx : HandsOn k sink x) : HandsOn k sink x.attempt :=
  fun s => .attempt (hx s) (fun _ _ _ h => h) (fun _ _ _ h => h) fun _ _ h => h

end HandsOn

namespace Shell

variable {sink : Option FileId} {stages : List Stage} {relays : List RelayId}

theorem drainTo_handsOn (pid : ProcessId) {put : Bytes → Shell (σ × Trace) Unit}
    (hput : ∀ line s, Ensures k (put line) s fun _ _ es =>
      ∃ e : Event, es = [e] ∧ e.request.Hands sink line ∧ e.reading = []) (rounds : Nat) :
    HandsOn k sink (drainTo pid put rounds) := by
  induction rounds with
  | zero => exact fun s => .never trivial
  | succ rounds ih =>
    refine fun s => .ask_bind (fun line => ?_) (fun _ => ⟨fun h => absurd rfl h, trivial⟩)
      ⟨fun h => absurd rfl h, trivial⟩
    cases line with
    | nil => exact .pure ⟨fun h => absurd rfl h, trivial⟩
    | cons b bytes =>
      -- the request that follows the reading is the one that hands the line on
      have hline : ∀ (e : Event) (rest : Trace), e.request.Hands sink (b :: bytes) →
          e.reading = [] → rest.HandsOn sink →
            Trace.HandsOn sink (⟨.readOutput pid, .returned (b :: bytes)⟩ :: e :: rest) :=
        fun e rest hhands hreading hrest =>
          ⟨fun _ => ⟨e, rfl, hhands⟩, fun h => absurd hreading h, hrest⟩
      refine (hput (b :: bytes) s).bind ?_ ?_ ?_
      · rintro _ s' _ ⟨e, rfl, hhands, hreading⟩
        exact (ih s').mono fun _ _ es hes => hline e es hhands hreading hes
      · rintro f s' _ ⟨e, rfl, hhands, hreading⟩
        exact hline e [] hhands hreading trivial
      · rintro s' _ ⟨e, rfl, hhands, hreading⟩
        exact hline e [] hhands hreading trivial

theorem drain_handsOn (pid : ProcessId) (sink : Option FileId) :
    HandsOn k sink (drain pid sink) := by
  refine fun s => .bound_bind (f := fun rounds => _) ?_
  cases sink with
  | some file =>
    exact (drainTo_handsOn pid (fun line s => .ask fun o => ⟨_, rfl, rfl, rfl⟩) _).bind
      (fun _ => .of_asks (.ask rfl)) s
  | none =>
    refine HandsOn.bind (.of_asks (.ask rfl)) (fun takesBytes => ?_) s
    cases takesBytes with
    | true =>
      exact HandsOn.bind (.of_asks (.ask rfl)) fun _ =>
        (drainTo_handsOn pid (fun line s => .ask fun o => ⟨_, rfl, .inl rfl, rfl⟩) _).bind
          fun _ => .of_asks (.ask rfl)
    | false =>
      exact (drainTo_handsOn pid (fun line s => .ask fun o => ⟨_, rfl, .inr rfl, rfl⟩) _).bind
        fun _ => .of_asks (.ask rfl)

theorem collect_handsOn : HandsOn k sink (collect sink stages relays) := by
  have hlast : HandsOn k sink (drainLast sink (lastPid stages)) := by
    cases lastPid stages with
    | none => exact .of_asks (.pure _)
    | some pid =>
      exact (drain_handsOn pid sink).bind fun _ =>
        .of_asks ((Asks.ask rfl).bind fun _ => .ask rfl)
  refine hlast.attempt.bind fun code => ?_
  rcases code with f | code
  · exact .of_asks (.pure _)
  · have hothers : Asks k (Request.isAfter none) (awaitOthers stages relays) :=
      (Asks.forM fun _ => .ask rfl).bind fun _ => waitAll_asks (fun _ => rfl) _
    refine .of_asks (hothers.attempt.bind fun waited => ?_)
    rcases waited with f | _ <;> exact .pure _

/-- Whatever a foreground line reads from its last stage it hands on at once. -/
theorem awaitPipeline_handsOn (result : Result) :
    HandsOn k sink (awaitPipeline sink stages relays result) := by
  refine collect_handsOn.bind ?_
  rintro ⟨code, fault⟩
  cases fault with
  | none => exact .of_asks (.pure _)
  | some f =>
    cases f with
    | interrupt =>
      have hdetach : HandsOn k sink (detach stages) := fun s =>
        (detach_asks stages s).mono fun _ _ _ h => Trace.handsOn_of_after h
      exact HandsOn.bind (fun s => .modifySession_bind
        (HandsOn.bind (.of_asks (.ask rfl)) (fun _ => hdetach) _)) fun _ => .of_asks (.pure _)
    | system | described | brokenPipe | cannotOpen =>
      simp only [Fault.isIo, if_true]
      exact .of_asks ((Asks.ask rfl).bind fun _ =>
        (waitAll_asks (fun _ => rfl) _).bind fun _ => .pure _)
    | invalid | wrongKind | outOfRange | linkLoop => exact .of_asks (.raise _)

end Shell

/-! ### Streams that are attached -/

/-- A standard stream that a line can redirect. -/
inductive Standard
  | input
  | output
  | error
  deriving DecidableEq, Repr

/-- What the last redirection of a stream names, and what that is to be opened for. -/
def CommandLine.redirected (line : CommandLine) : Standard → Option Target
  | .input => line.input.map (⟨·, .read⟩)
  | .output => line.output.map (⟨·, line.outputMode⟩)
  | .error => line.error.map (⟨·, .write⟩)

/-- A stream of a line leads to a file, or else it is left as the interpreter has it. The first stage
has the input, the last one the other two. What the last stage of a foreground pipeline writes goes
through the interpreter's hands. -/
def Attached (line : CommandLine) (file : Option FileId) (es : Trace) : Standard → Prop
  | .input => ∀ a, es.attempts[0]? = some a → a.streams.stdin = StageFiles.stream file
  | .output =>
    if line.isPipeline && line.blocks then es.HandsOn file
    else ∀ a, es.attempts[line.others.length]? = some a → a.streams.stdout = StageFiles.stream file
  | .error =>
    ∀ a, es.attempts[line.others.length]? = some a → a.streams.stderr = StageFiles.stream file

theorem Attached.cons {line : CommandLine} {file : Option FileId} {e : Event} {es : Trace}
    {stream : Standard} (h : Attached line file es stream) (hread : e.reading = [])
    (htry : Trace.attempts (e :: es) = es.attempts) : Attached line file (e :: es) stream := by
  cases stream with
  | output =>
    rw [Attached] at h ⊢
    split
    · rw [if_pos ‹_›] at h
      exact ⟨fun hne => absurd hread hne, h⟩
    · rw [if_neg ‹_›] at h
      rwa [htry]
  | input | error =>
    show ∀ a, _ → _
    rwa [htry]

/-- A target has been opened unless its operand is empty, which is taken for none. -/
def Honoured (s : Session) (t : Target) (file : Option FileId) (es : Trace) : Prop :=
  if t.operand = "" then file = none
  else ∃ id, file = some id ∧ ⟨.openFile (t.path s) t.mode, .returned id⟩ ∈ es

/-- An event that no host has part in: a log record that cannot be made, or a process that is
neither started nor refused. -/
def Event.isStuck : Event → Bool
  | ⟨.log _, .returned _⟩ => false
  | ⟨.log _, _⟩ => true
  | ⟨.spawn .., .never⟩ => true
  | _ => false

namespace Shell

variable {line : CommandLine} {foreground : Bool} {before : Predecessor} {plans : List Plan}
  {opened es : Trace}

/-- A process is tried with its streams, unless the run is stuck before. -/
theorem start_tries (command : Command) (streams : Streams) :
    Ensures k (start command streams) s fun o s' es => s' = s ∧
      ((∃ arguments cwd pid, es.attempts = [⟨arguments, cwd, streams, pid⟩]) ∨
        es.attempts = [] ∧ (∃ e ∈ es, e.isStuck = true) ∧ ∀ pid, o ≠ .returned pid) := by
  have hstuck : ∀ {r : Record} {o : Outcome Unit}, (∀ a, o ≠ .returned a) →
      Event.isStuck ⟨.log r, o⟩ = true := by
    intro r o ho
    cases o with
    | returned a => exact absurd rfl (ho a)
    | raised | never => rfl
  refine Ensures.session_bind (.ask_bind (fun _ => ?_) (fun f => ?_) ?_)
  · refine Ensures.attempt_bind (.ask (Q := fun o s' es => s' = s ∧ es = [⟨.spawn _ _ streams, o⟩])
      fun o => ⟨rfl, rfl⟩) ?_ ?_ ?_
    · rintro pid s' es ⟨rfl, rfl⟩
      exact .ask_bind (fun _ => .pure ⟨rfl, .inl ⟨_, _, _, rfl⟩⟩)
        (fun _ => ⟨rfl, .inl ⟨_, _, _, rfl⟩⟩) ⟨rfl, .inl ⟨_, _, _, rfl⟩⟩
    · rintro f s' es ⟨rfl, rfl⟩
      show Ensures k (if f.isIo then _ else Shell.raise f) _ _
      split
      · exact .ask_bind (fun _ => .pure ⟨rfl, .inl ⟨_, _, _, rfl⟩⟩)
          (fun _ => ⟨rfl, .inl ⟨_, _, _, rfl⟩⟩) ⟨rfl, .inl ⟨_, _, _, rfl⟩⟩
      · exact .raise ⟨rfl, .inl ⟨_, _, _, rfl⟩⟩
    · rintro s' es ⟨rfl, rfl⟩
      exact ⟨rfl, .inr ⟨rfl, ⟨_, .tail _ (.head _), rfl⟩, fun _ => nofun⟩⟩
  · exact ⟨rfl, .inr ⟨rfl, ⟨_, .head _, hstuck nofun⟩, fun _ => nofun⟩⟩
  · exact ⟨rfl, .inr ⟨rfl, ⟨_, .head _, hstuck nofun⟩, fun _ => nofun⟩⟩

/-- Each attempt to start one of some stages has the streams of the plan at its place. -/
def Tried (foreground : Bool) (plans : List Plan) (attempts : List Attempt) : Prop :=
  ∀ i a, attempts[i]? = some a → ∃ plan up, plans[i]? = some plan ∧
    a.streams = stageStreams foreground up plan (i + 1 == plans.length)

theorem tried_nil : Tried foreground plans [] := by
  intro i a ha
  simp at ha

/-- Attempts at some stages, the first of which has none before it. -/
structure TriedFirst (foreground : Bool) (before : Predecessor) (plans : List Plan) (es : Trace) :
    Prop where
  tried : Tried foreground plans es.attempts
  first : ∀ a, es.attempts[0]? = some a → ∃ plan last, plans[0]? = some plan ∧
    a.streams = stageStreams foreground before plan last
  /-- The first stage is tried, unless the run is stuck before. -/
  some_ : plans ≠ [] → es.attempts ≠ [] ∨ ∃ e ∈ es, e.isStuck = true

theorem TriedFirst.cons {plan : Plan} {rest : Trace} {arguments : List String} {cwd : Path}
    {pid : Option ProcessId} (hone : es.attempts =
      [⟨arguments, cwd, stageStreams foreground before plan plans.isEmpty, pid⟩])
    (hrest : Tried foreground plans rest.attempts) :
    TriedFirst foreground before (plan :: plans) (es ++ rest) := by
  refine ⟨?_, ?_, fun _ => .inl (by simp [hone])⟩
  · intro i a ha
    rw [Trace.attempts_append, hone] at ha
    cases i with
    | zero =>
      obtain rfl := Option.some.inj ha
      exact ⟨plan, before, rfl, by cases plans <;> simp⟩
    | succ i =>
      obtain ⟨next, up, hnext, hstreams⟩ := hrest i a ha
      exact ⟨next, up, hnext, by simpa using hstreams⟩
  · intro a ha
    rw [Trace.attempts_append, hone] at ha
    obtain rfl := Option.some.inj ha
    exact ⟨plan, _, rfl, rfl⟩

/-- A run that ends with the first stage has tried that one, or is stuck. -/
theorem TriedFirst.of_one {plan : Plan} (h : (∃ arguments cwd pid, es.attempts =
      [⟨arguments, cwd, stageStreams foreground before plan plans.isEmpty, pid⟩]) ∨
        es.attempts = [] ∧ ∃ e ∈ es, e.isStuck = true) :
    TriedFirst foreground before (plan :: plans) es := by
  rcases h with ⟨arguments, cwd, pid, hone⟩ | ⟨hnone, hstuck⟩
  · rw [← List.append_nil es]
    exact .cons hone tried_nil
  · refine ⟨by rw [hnone]; exact tried_nil, fun a ha => ?_, fun _ => .inr hstuck⟩
    simp [hnone] at ha

theorem link_tries (chunk : Int) (before : Predecessor) (pid : Option ProcessId) :
    Ensures k (link chunk before pid) s fun _ s' es => s' = s ∧ es.attempts = [] := by
  cases before with
  | running up => exact .ask_bind (fun _ => .pure ⟨rfl, rfl⟩) (fun _ => ⟨rfl, rfl⟩) ⟨rfl, rfl⟩
  | none => exact .pure ⟨rfl, rfl⟩
  | missing => exact .pure ⟨rfl, rfl⟩

theorem launch_tries (foreground : Bool) (chunk : Int) (before : Predecessor) (plans : List Plan) :
    Ensures k (launch foreground chunk before plans) s fun _ s' es =>
      s' = s ∧ TriedFirst foreground before plans es := by
  induction plans generalizing before with
  | nil => exact .pure ⟨rfl, tried_nil, fun a h => by simp [Trace.attempts] at h, fun h => absurd rfl h⟩
  | cons plan plans ih =>
    rw [launch_cons]
    refine (start_tries _ _).bind ?_ ?_ ?_
    · rintro pid s' es ⟨rfl, hes⟩
      obtain ⟨arguments, cwd, pid', hone⟩ := hes.resolve_right fun h => h.2.2 pid rfl
      refine (link_tries chunk before pid).bind ?_ ?_ ?_
      · rintro relay s' es' ⟨rfl, hes'⟩
        -- the relay is no attempt, so the next stage comes next
        have hcons : ∀ {es'' : Trace}, Tried foreground plans es''.attempts →
            TriedFirst foreground before (plan :: plans) (es ++ (es' ++ es'')) := by
          intro es'' h
          refine .cons hone ?_
          rwa [Trace.attempts_append, hes', List.nil_append]
        refine (ih (.of pid)).bind ?_ (fun _ _ _ h => ⟨h.1, hcons h.2.tried⟩)
          fun _ _ h => ⟨h.1, hcons h.2.tried⟩
        rintro r s' es'' ⟨rfl, h⟩
        refine .pure ⟨rfl, hcons ?_⟩
        rw [List.append_nil]
        exact h.tried
      · rintro f s' es' ⟨rfl, hes'⟩
        exact ⟨rfl, .cons hone (by rw [hes']; exact tried_nil)⟩
      · rintro s' es' ⟨rfl, hes'⟩
        exact ⟨rfl, .cons hone (by rw [hes']; exact tried_nil)⟩
    · rintro f s' es ⟨rfl, hes⟩
      exact ⟨rfl, .of_one (hes.imp_right fun h => ⟨h.1, h.2.1⟩)⟩
    · rintro s' es ⟨rfl, hes⟩
      exact ⟨rfl, .of_one (hes.imp_right fun h => ⟨h.1, h.2.1⟩)⟩

theorem TriedFirst.append (h : TriedFirst foreground before plans es) {rest : Trace}
    (hrest : rest.attempts = []) : TriedFirst foreground before plans (es ++ rest) := by
  have hsame : (es ++ rest).attempts = es.attempts := by rw [Trace.attempts_append, hrest, List.append_nil]
  refine ⟨?_, ?_, fun hne => ?_⟩
  · rw [hsame]
    exact h.tried
  · rw [hsame]
    exact h.first
  · rw [hsame]
    refine (h.some_ hne).imp_right ?_
    rintro ⟨e, he, hstuck⟩
    exact ⟨e, List.mem_append_left _ he, hstuck⟩

/-! ### What the streams of a line are attached to -/

theorem honoured_of_opened {t : Target} {file : Option FileId} {es' : Trace}
    (h : Opened s (CommandLine.target? (some t.operand)) t.mode file es) (hsub : es ⊆ es') :
    Honoured s t file es' := by
  unfold Honoured
  by_cases hempty : t.operand = ""
  · rw [hempty] at h
    rwa [if_pos hempty]
  · have htarget : CommandLine.target? (some t.operand) = some t.operand := by
      simp [CommandLine.target?, Option.filter, hempty]
    rw [htarget] at h
    rw [if_neg hempty]
    exact h.mono hsub

/-- Each stream that a line redirects is attached to the file that was opened for it, or to none if
its operand is empty. -/
def AllAttached (line : CommandLine) (s : Session) (es : Trace) : Prop :=
  ∀ stream t, line.redirected stream = some t →
    ∃ file, Honoured s t file es ∧ Attached line file es stream

/-- **Streams are attached.** Once the files of a line are open, its stages are tried with all
streams attached that it redirects. -/
theorem attached_of_tried (hplans : plans.map (fun plan => (plan.command, plan.wiring)) =
      line.commands.zip line.wirings)
    (hfiles : ∀ plan ∈ plans, FilesOpened s plan.wiring plan.files opened) (hopened : opened.Aside)
    (htried : TriedFirst (line.isPipeline && line.blocks) .none plans es)
    (hhands : (line.isPipeline && line.blocks) = true →
      es.HandsOn (plans.getLast?.bind (·.files.output))) :
    AllAttached line s (opened ++ es) := by
  have hlength : plans.length = line.others.length + 1 := length_plans hplans
  have hattempts : (opened ++ es).attempts = es.attempts := by
    rw [Trace.attempts_append, attempts_of_aside hopened, List.nil_append]
  have hsub : opened ⊆ opened ++ es := List.subset_append_left opened es
  obtain ⟨first, hfirst⟩ : ∃ plan, plans[0]? = some plan :=
    ⟨_, List.getElem?_eq_getElem (by omega)⟩
  obtain ⟨last, hlast⟩ : ∃ plan, plans[line.others.length]? = some plan :=
    ⟨_, List.getElem?_eq_getElem (by omega)⟩
  have hend : line.others.length + 1 = line.commands.length := rfl
  have hfirstFiles := hfiles first (List.mem_of_getElem? hfirst)
  have hlastFiles := hfiles last (List.mem_of_getElem? hlast)
  have hfirstWiring := (wiring_of_plans hplans hfirst).2.2
  have hlastWiring := (wiring_of_plans hplans hlast).2.2
  -- what is tried in the last place is the last stage
  have hlastTried : ∀ a, (opened ++ es).attempts[line.others.length]? = some a → ∃ up,
      a.streams = stageStreams (line.isPipeline && line.blocks) up last true := by
    intro a ha
    rw [hattempts] at ha
    obtain ⟨plan, up, hplan, hstreams⟩ := htried.tried _ a ha
    obtain rfl : last = plan := Option.some.inj (hlast.symm.trans hplan)
    exact ⟨up, by rw [hstreams, hlength, beq_self_eq_true]⟩
  intro stream t ht
  cases stream with
  | input =>
    obtain ⟨operand, hinput, rfl⟩ := Option.map_eq_some_iff.1 ht
    have hopen := opened_input hfirstWiring hfirstFiles
    rw [hinput] at hopen
    refine ⟨first.files.input, honoured_of_opened hopen hsub, ?_⟩
    intro a ha
    rw [hattempts] at ha
    obtain ⟨plan, last', hplan, hstreams⟩ := htried.first a ha
    obtain rfl : first = plan := Option.some.inj (hfirst.symm.trans hplan)
    rw [hstreams]
    exact first_stdin hfirstWiring
  | output =>
    obtain ⟨operand, houtput, rfl⟩ := Option.map_eq_some_iff.1 ht
    have hopen := opened_output hend hlastWiring hlastFiles
    rw [houtput] at hopen
    refine ⟨last.files.output, honoured_of_opened hopen hsub, ?_⟩
    by_cases hfg : (line.isPipeline && line.blocks) = true
    · have hsink : plans.getLast?.bind (·.files.output) = last.files.output := by
        rw [List.getLast?_eq_getElem?, hlength, Nat.add_sub_cancel, hlast]
        rfl
      simp only [Attached, hfg, if_true]
      rw [← hsink]
      exact (Trace.handsOn_of_aside hopened).append (hhands hfg)
    · simp only [Attached, hfg, Bool.false_eq_true, if_false]
      intro a ha
      obtain ⟨up, hstreams⟩ := hlastTried a ha
      rw [hstreams, Bool.eq_false_iff.2 hfg]
      exact last_stdout hend hlastWiring
  | error =>
    obtain ⟨operand, herror, rfl⟩ := Option.map_eq_some_iff.1 ht
    have hopen := opened_error hend hlastWiring hlastFiles
    rw [herror] at hopen
    refine ⟨last.files.error, honoured_of_opened hopen hsub, ?_⟩
    intro a ha
    obtain ⟨up, hstreams⟩ := hlastTried a ha
    rw [hstreams, stageStreams_stderr_eq]

/-! ### The rest of a run -/

theorem settle_handsOn {sink : Option FileId} {stages : List Stage} {relays : List RelayId}
    (hfg : line.blocks = true) : HandsOn k sink (settle line sink stages relays) := by
  simp only [settle, hfg, if_true]
  exact awaitPipeline_handsOn _

/-- Once its files are open, a pipeline is tried, and what is read from it is handed on. -/
theorem runStages_tries (line : CommandLine) (plans : List Plan) :
    Ensures k (runStages line plans) s fun _ _ es => TriedFirst line.blocks .none plans es ∧
      (line.blocks = true → es.HandsOn (plans.getLast?.bind (·.files.output))) := by
  have hlaunch : ∀ {es : Trace}, es.Only Request.isLaunch →
      es.HandsOn (plans.getLast?.bind (·.files.output)) :=
    fun h => Trace.handsOn_of_only h fun _ => rfl
  rw [runStages_eq]
  refine Ensures.session_bind (((launch_tries _ _ _ _).and launch_performs).bind ?_
    (fun _ _ _ h => ⟨h.1.2, fun _ => hlaunch h.2.2.1⟩) fun _ _ h => ⟨h.1.2, fun _ => hlaunch h.2.2.1⟩)
  rintro ⟨stages, relays⟩ s' es ⟨⟨rfl, htried⟩, -, hloop, -⟩
  by_cases hfg : line.blocks = true
  · refine (settle_follows.and (settle_handsOn hfg _)).mono fun o s'' es' h => ⟨?_, fun _ => ?_⟩
    · exact htried.append (Trace.attempts_of_after h.1.1)
    · exact (hlaunch hloop).append h.2
  · refine settle_follows.mono fun o s'' es' h => ⟨?_, fun h => absurd h hfg⟩
    exact htried.append (Trace.attempts_of_after h.1)

/-- Closing the files and telling what has come of the line change nothing about this. -/
theorem runOpened_tries (line : CommandLine) (plans : List Plan) :
    Ensures k (closing (idsOf plans) (runOpened line plans none) >>= conclude) s fun _ _ es =>
      TriedFirst line.blocks .none plans es ∧
        (line.blocks = true → es.HandsOn (plans.getLast?.bind (·.files.output))) := by
  have haside : ∀ {es es' : Trace}, es'.Aside → TriedFirst line.blocks .none plans es ∧
      (line.blocks = true → es.HandsOn (plans.getLast?.bind (·.files.output))) →
        TriedFirst line.blocks .none plans (es ++ es') ∧
          (line.blocks = true → (es ++ es').HandsOn (plans.getLast?.bind (·.files.output))) :=
    fun hes' h => ⟨h.1.append (attempts_of_aside hes'),
      fun hfg => (h.2 hfg).append (Trace.handsOn_of_aside hes')⟩
  have hclosing := (Ensures.closing (idsOf plans) (runStages_tries (k := k) (s := s) line plans)).mono
    (Q := fun _ _ es => TriedFirst line.blocks .none plans es ∧
      (line.blocks = true → es.HandsOn (plans.getLast?.bind (·.files.output)))) ?_
  · refine hclosing.bind (fun ending s' es hes => ?_) (fun _ _ _ h => h) fun _ _ h => h
    exact (conclude_ensures ending).mono fun o s'' es' h => haside h.1 hes
  · rintro o s' es ⟨o₁, es₁, es₂, rfl, hes₁, hes₂, -⟩
    exact haside (hes₂.mono fun _ => Request.isAside_of_isClose) hes₁

theorem leaveInterrupted_after (text : String) (stages : List Stage) :
    Ensures k (leaveInterrupted text stages) s fun _ _ es => es.Only (Request.isAfter none) := by
  have hreport : ∀ o, Trace.Only (Request.isAfter none) [⟨.report text, o⟩] :=
    fun o => Trace.only_cons.2 ⟨rfl, Trace.only_nil _⟩
  exact .modifySession_bind (.ask_bind (fun _ => (detach_asks stages _).mono fun _ _ _ h =>
    Trace.only_cons.2 ⟨rfl, h⟩) (fun _ => hreport _) (hreport _))

theorem awaitSingle_after (command : Command) (pid : ProcessId) :
    Ensures k (awaitSingle command pid) s fun _ _ es => es.Only (Request.isAfter none) := by
  have hwait : ∀ {o} {es : Trace}, es.Only (Request.isAfter none) →
      Trace.Only (Request.isAfter none) ([⟨.wait pid, o⟩] ++ es) :=
    fun h => Trace.only_cons.2 ⟨rfl, h⟩
  refine Ensures.attempt_bind (.ask (Q := fun o s' es => s' = s ∧ es = [⟨.wait pid, o⟩])
    fun o => ⟨rfl, rfl⟩) ?_ ?_ ?_
  · rintro code s' es ⟨rfl, rfl⟩
    have hrest : Asks k (Request.isAfter none)
        (if code != 0 then report ("process exited with code " ++ toString code) >>= fun _ =>
          pure ({ exitCode := some code, pids := [pid] } : Result)
        else pure { exitCode := some code, pids := [pid] }) := by
      split
      · exact (Asks.ask rfl).bind fun _ => .pure _
      · exact .pure _
    exact (hrest s').mono fun _ _ _ h => hwait h.2
  · rintro f s' es ⟨rfl, rfl⟩
    have hraise : ∀ f : Fault, Ensures k (raise f : Shell _ Result) s' fun _ _ es =>
        Trace.Only (Request.isAfter none) ([⟨.wait pid, .raised f⟩] ++ es) :=
      fun f => .raise (hwait (Trace.only_nil _))
    cases f with
    | interrupt =>
      refine (leaveInterrupted_after _ _).bind (fun _ s'' es' h => .pure ?_)
        (fun _ _ _ h => hwait h) fun _ _ h => hwait h
      rw [List.append_nil]
      exact hwait h
    | _ => exact hraise _
  · rintro s' es ⟨rfl, rfl⟩
    exact hwait (Trace.only_nil _)

/-- What is done of a line of one command once its process has been started, or could not be. -/
def afterStart (line : CommandLine) : Except Fault (Option ProcessId) → Shell σ Result
  | .error f =>
    if f.isCannotOpen then do
      report f.message
      return { exitCode := some 1, failure := some .io }
    else raise f
  | .ok none => return { exitCode := some notStarted, failure := some .spawn }
  | .ok (some pid) =>
    if line.blocks then awaitSingle line.first pid
    else do
      register ⟨pid, line.text, false⟩ true
      return { pids := [pid], background := true }

theorem runSingle_eq (line : CommandLine) :
    (runSingle line : Shell σ Result) = (startSingle line).attempt >>= afterStart line := by
  rw [runSingle]
  congr 1

theorem afterStart_after (line : CommandLine) (started : Except Fault (Option ProcessId)) :
    Ensures k (afterStart line started) s fun _ _ es => es.Only (Request.isAfter none) := by
  rcases started with f | _ | pid
  · have hrest : Asks k (Request.isAfter none) (afterStart line (.error f)) := by
      simp only [afterStart]
      split
      · exact (Asks.ask rfl).bind fun _ => .pure _
      · exact .raise f
    exact (hrest s).mono fun _ _ _ h => h.2
  · exact .pure (Trace.only_nil _)
  · simp only [afterStart]
    split
    · exact awaitSingle_after _ _
    · have hafter : ∀ {es : Trace}, es.Aside → es.Only (Request.isAfter none) :=
        fun h => h.mono fun _ => Request.isAfter_of_isAside
      refine (register_ensures _ _).bind (fun _ s' es h => .pure ?_) (fun _ _ _ h => hafter h.2)
        fun _ _ h => hafter h.2
      rw [List.append_nil]
      exact hafter h.2

/-- Once its files are open, a line of one command is tried with the streams that they make. -/
theorem runSingle_tries (line : CommandLine) (files : StageFiles) :
    Ensures k ((closing files.ids (start line.first
      (files.streams (line.wiring 0) false false))).attempt >>= afterStart line) s fun _ _ es =>
        TriedFirst false .none [⟨line.first, line.wiring 0, files⟩] es := by
  have hclosed : Ensures k (closing files.ids (start line.first
      (files.streams (line.wiring 0) false false))) s fun _ _ es =>
        TriedFirst false .none [⟨line.first, line.wiring 0, files⟩] es := by
    refine (Ensures.closing files.ids (start_tries _ _)).mono ?_
    rintro o s' es ⟨o₁, es₁, es₂, rfl, ⟨-, hes₁⟩, hes₂, -⟩
    have hone : TriedFirst false .none [⟨line.first, line.wiring 0, files⟩] es₁ :=
      .of_one (hes₁.imp_right fun h => ⟨h.1, h.2.1⟩)
    exact hone.append (attempts_of_aside (hes₂.mono fun _ => Request.isAside_of_isClose))
  refine Ensures.attempt_bind hclosed (fun pid s' es hes => ?_) (fun f s' es hes => ?_)
    fun _ _ h => h
  · exact (afterStart_after line _).mono fun _ _ _ h => hes.append (Trace.attempts_of_after h)
  · exact (afterStart_after line _).mono fun _ _ _ h => hes.append (Trace.attempts_of_after h)

end Shell

/-! ### Lines on a host -/

namespace Host

open Shell

variable {S : Type} {m m' : Machine S} {ids : List FileId} {line : CommandLine}

/-- No run on a host is stuck. -/
theorem not_isStuck_of_follows (h : Host S) {es : Trace} (hes : h.kernel.Follows m es m')
    {e : Event} (he : e ∈ es) : e.isStuck = false := by
  induction es generalizing m with
  | nil => cases he
  | cons v es ih =>
    obtain ⟨mid, hanswer, hrest⟩ := hes
    rcases List.mem_cons.1 he with rfl | he
    · obtain ⟨r, o⟩ := e
      cases r with
      | log record =>
        obtain rfl : Outcome.returned () = o := congrArg Prod.fst hanswer
        rfl
      | spawn argv cwd streams =>
        have hspawn : h.spawn m argv cwd streams = (o, mid) := hanswer
        unfold Host.spawn at hspawn
        split at hspawn <;> cases hspawn <;> rfl
      | _ => rfl
    · exact ih hrest he

/-- A run that tries the stages of a line, with its streams attached. -/
def Tries (h : Host S) (x : Shell (Machine S × Trace) Result) (line : CommandLine) (s : Session)
    (m : Machine S) : Prop :=
  ∀ t, ∃ o s' m' es, x h.kernel.traced ⟨s, (m, t)⟩ = (o, ⟨s', (m', t ++ es)⟩) ∧
    es.attempts ≠ [] ∧ AllAttached line s es

theorem attempts_ne_nil (h : Host S) {foreground : Bool} {before : Predecessor} {plans : List Plan}
    {es : Trace} (hne : plans ≠ []) (htried : TriedFirst foreground before plans es)
    (hes : h.kernel.Follows m es m') : es.attempts ≠ [] := by
  refine (htried.some_ hne).resolve_right ?_
  rintro ⟨e, he, hstuck⟩
  rw [not_isStuck_of_follows h hes he] at hstuck
  cases hstuck

theorem runSingle_attaches (h : Host S) (hline : line.others = [])
    (hopens : Opens s m line.targets ids m') : Tries h (runSingle line) line s m := by
  rw [← CommandLine.targets_of_single hline] at hopens
  obtain ⟨files, opened, -, hfiled, hopen⟩ := openStage_runs h hopens
  have hfiles := (hopen.ensured (openStage_ensures _)).2.2 files rfl
  intro t
  obtain ⟨o, s', m'', es, hrun, hfollows, htried⟩ :=
    runSingle_tries (k := h.kernel) (s := s) line files m' (t ++ opened)
  -- the files are opened within an attempt, and the run goes on from there
  have hstart : (startSingle line).attempt h.kernel.traced ⟨s, (m, t)⟩ =
      (closing files.ids (start line.first (files.streams (line.wiring 0) false false))).attempt
        h.kernel.traced ⟨s, (m', t ++ opened)⟩ := by
    have hbind : startSingle line h.kernel.traced ⟨s, (m, t)⟩ =
        closing files.ids (start line.first (files.streams (line.wiring 0) false false))
          h.kernel.traced ⟨s, (m', t ++ opened)⟩ := by
      rw [startSingle, bind_run, hopen t]
    rw [attempt, attempt, hbind]
  refine ⟨o, s', m'', opened ++ es, ?_, ?_, ?_⟩
  · rw [runSingle_eq, bind_run, hstart, ← List.append_assoc, ← hrun, bind_run]
  · rw [Trace.attempts_append, attempts_of_aside hfiled.aside]
    exact attempts_ne_nil h (List.cons_ne_nil _ _) htried hfollows
  · have hpipe : line.isPipeline = false := by simp [CommandLine.isPipeline, hline]
    have hplans : [(⟨line.first, line.wiring 0, files⟩ : Plan)].map
        (fun plan => (plan.command, plan.wiring)) = line.commands.zip line.wirings := by
      simp [CommandLine.wirings, CommandLine.commands, hline]
    refine attached_of_tried hplans ?_ hfiled.aside ?_ ?_
    · intro plan hplan
      rw [List.mem_singleton.1 hplan]
      exact hfiles
    · rw [hpipe]
      exact htried
    · simp [hpipe]

theorem runPipeline_attaches (h : Host S) (hpipe : line.isPipeline = true)
    (hopens : Opens s m line.targets ids m') : Tries h (runPipeline line) line s m := by
  rw [← CommandLine.flatMap_targets] at hopens
  obtain ⟨plans, opened, -, hfiled, hopen⟩ := openStages_runs h hopens
  obtain ⟨hplans, hfiles⟩ := (hopen.ensured (openStages_ensures _)).2.2 _ rfl
  intro t
  obtain ⟨o, s', m'', es, hrun, hfollows, htried, hhands⟩ :=
    runOpened_tries (k := h.kernel) (s := s) line plans m' (t ++ opened)
  refine ⟨o, s', m'', opened ++ es, ?_, ?_, ?_⟩
  · rw [runPipeline_eq, bind_run, hopen t, ← List.append_assoc, ← hrun]
  · rw [Trace.attempts_append, attempts_of_aside hfiled.aside]
    refine attempts_ne_nil h ?_ htried hfollows
    rintro rfl
    exact line.commands_ne_nil (commands_of_plans (hplans rfl)).symm
  · refine attached_of_tried (hplans rfl) hfiles hfiled.aside ?_ ?_
    · rw [hpipe]
      exact htried
    · rw [hpipe]
      exact hhands

theorem execute_attaches (h : Host S) (hcd : line.isChangeDirectory = false)
    (hopens : Opens s m line.targets ids m') : Tries h (execute line) line s m := by
  simp only [execute, hcd, Bool.false_eq_true, if_false]
  by_cases hpipe : line.isPipeline = true
  · rw [if_pos hpipe]
    exact runPipeline_attaches h hpipe hopens
  · rw [if_neg hpipe]
    exact runSingle_attaches h (by simpa [CommandLine.isPipeline] using hpipe) hopens

end Host

open Host Shell

/-! ### Redirections as they are written -/

/-- What the last redirection of a stream names among some tokens, and what that is to be opened
for. -/
def Token.lastRedirection (ts : List Token) : Standard → Option Target
  | .input => ((redirections (body ts)).filterMap inputOf).getLast?.map (⟨·, .read⟩)
  | .output => ((redirections (body ts)).filterMap outputOf).getLast?.map fun w =>
      ⟨w.1, if w.2 then .append else .write⟩
  | .error => ((redirections (body ts)).filterMap errorOf).getLast?.map (⟨·, .write⟩)

/-- A line redirects its streams as the last redirections of its tokens say. -/
theorem Amounts.redirected {ts : List Token} {line : CommandLine} (h : Amounts ts line)
    (stream : Standard) : line.redirected stream = Token.lastRedirection ts stream := by
  cases stream with
  | input => rw [CommandLine.redirected, Token.lastRedirection, h.input]
  | output =>
    rw [CommandLine.redirected, Token.lastRedirection, ← h.output, Option.map_map]
    rfl
  | error => rw [CommandLine.redirected, Token.lastRedirection, h.error]

/-- What a line opens is named by a redirection of it. -/
theorem CommandLine.redirected_of_mem_targets {line : CommandLine} {t : Target}
    (h : t ∈ line.targets) : ∃ stream, line.redirected stream = some t := by
  have hmem : ∀ {operand : Option String} {mode : OpenMode}, t ∈ targetsOf (target? operand) mode →
      operand.map (⟨·, mode⟩) = some t := by
    intro operand mode hmem
    obtain ⟨name, hname, rfl⟩ := List.mem_map.1 hmem
    rw [Option.mem_toList, target?, Option.filter_eq_some_iff] at hname
    rw [hname.1]
    rfl
  rw [targets, List.mem_append, List.mem_append] at h
  rcases h with (h | h) | h
  · exact ⟨.input, hmem h⟩
  · exact ⟨.output, hmem h⟩
  · exact ⟨.error, hmem h⟩

/-- The record that is made of a line before it is run. -/
def CommandLine.note (line : CommandLine) : Event :=
  ⟨.log ⟨.debug, .prompt, "executing: " ++ line.text⟩, .returned ()⟩

/-- A text that is read as a line runs it, once that is recorded. -/
theorem handleLine_runs {m mid m' : σ} {s' : Session} {o : Outcome Result} {es : Trace}
    {text : String} {line : CommandLine} (hparse : CommandLine.parse text = .ok (some line))
    (hlog : k.answer line.note.request m = (line.note.outcome, mid))
    (hrun : execute line k.traced ⟨s, (mid, [line.note])⟩ = (o, ⟨s', (m', [line.note] ++ es)⟩)) :
    ∃ o', handleLine text k.traced ⟨s, (m, [])⟩ = (o', ⟨s', (m', line.note :: es)⟩) ∧
      (∀ r, o = .returned r → o' = .returned (some r)) ∧ ∀ f, o = .raised f → o' = .raised f := by
  have hnote : (debug .prompt ("executing: " ++ line.text) : Shell _ Unit) k.traced
      ⟨s, (m, [])⟩ = (.returned (), ⟨s, (mid, [line.note])⟩) := (RunsTo.ask hlog) []
  rw [handleLine, hparse]
  simp only [bind_run, hnote, map_eq_pure_bind, hrun]
  cases o with
  | returned r => exact ⟨_, rfl, by rintro _ ⟨⟩; rfl, by rintro _ ⟨⟩⟩
  | raised f => exact ⟨_, rfl, by rintro _ ⟨⟩, by rintro _ ⟨⟩; rfl⟩
  | never => exact ⟨_, rfl, by rintro _ ⟨⟩, by rintro _ ⟨⟩⟩

/-- **Redirections are attached unless they name nothing.** Take a text that is read as a line which
runs programs. Either some file of it cannot be opened: then the line is refused with a word about
it, or, if a path has a NUL, the run ends with that fault, and nothing is started. Or the line is
tried, and the last redirection of each stream is attached to the file that it names, as seen from
the working directory: but with an empty operand the stream is left to the interpreter. -/
theorem handleLine_attaches {S : Type} (h : Host S) {m : Machine S} {s : Session} {text : String}
    {ts : List Token} {line : CommandLine} (hscan : Token.scan (Text.trim text.toList) = .ok ts)
    (hparse : CommandLine.parse text = .ok (some line)) (hcd : line.isChangeDirectory = false) :
    ∃ o s' m' es, handleLine text h.kernel.traced ⟨s, (m, [])⟩ = (o, ⟨s', (m', es)⟩) ∧
      ((es.attempts = [] ∧ ∃ stream t, Token.lastRedirection ts stream = some t ∧
          ((o = .returned (some { exitCode := some 1, failure := some .io }) ∧
              ∃ reason, es.reports = ["cannot open " ++ t.operand ++ ": " ++ reason]) ∨
            (o = .raised .embeddedNul ∧ Machine.hasNul (t.path s) = true))) ∨
        (es.attempts ≠ [] ∧ ∀ stream t, Token.lastRedirection ts stream = some t →
          if t.operand = "" then Attached line none es stream
          else ∃ id, ⟨.openFile (t.path s) t.mode, .returned id⟩ ∈ es ∧
            Attached line (some id) es stream)) := by
  have hredirected := ((parse_judgement hscan).amounts line hparse).redirected
  obtain ⟨mid, hlog⟩ : ∃ mid, h.kernel.answer line.note.request m = (line.note.outcome, mid) :=
    ⟨_, rfl⟩
  rcases opens_or_stops s mid line.targets with ⟨ids, m₁, hopens⟩ | ⟨before, t, f, ids, m₁, hstops⟩
  · obtain ⟨o, s', m', es, hexecute, htried, hattached⟩ := execute_attaches h hcd hopens [line.note]
    obtain ⟨o', hline, -, -⟩ := handleLine_runs hparse hlog hexecute
    refine ⟨o', s', m', line.note :: es, hline, .inr ⟨htried, fun stream t ht => ?_⟩⟩
    obtain ⟨file, hfile, hstream⟩ := hattached stream t ((hredirected stream).trans ht)
    rw [Honoured] at hfile
    by_cases hempty : t.operand = ""
    · rw [if_pos hempty] at hfile ⊢
      exact hfile ▸ hstream.cons rfl rfl
    · rw [if_neg hempty] at hfile ⊢
      obtain ⟨id, hid, hopened⟩ := hfile
      exact ⟨id, List.mem_cons_of_mem _ hopened, hid ▸ hstream.cons rfl rfl⟩
  · obtain ⟨later, hsplit⟩ := hstops.split
    have hmem : t ∈ line.targets := by simp [hsplit]
    obtain ⟨stream, hstream⟩ := CommandLine.redirected_of_mem_targets hmem
    obtain ⟨m', es, -, hfiled, hexecute⟩ := execute_stops h hcd hstops
    obtain ⟨o', hline, hreturned, hraised⟩ :=
      handleLine_runs hparse hlog (hexecute [line.note])
    have hnone : Trace.attempts (line.note :: es) = [] := (attempts_of_aside hfiled.aside : es.attempts = [])
    refine ⟨o', s, m', line.note :: es, hline,
      .inl ⟨hnone, stream, t, (hredirected stream).symm.trans hstream, ?_⟩⟩
    rcases hstops.fault_cases with ⟨e, -, rfl⟩ | ⟨hnul, rfl⟩
    · exact .inl ⟨hreturned _ rfl, _, hfiled.reports⟩
    · exact .inr ⟨hraised _ rfl, hnul⟩

/-- The line `a < "" > kept`. -/
def keptLine : CommandLine := { first := ⟨"a", []⟩, input := some "", output := some "kept" }

/-- The text of that line, entered on a machine without files. -/
def keptRun : Outcome (Option Result) × World (Machine Scripted × Trace) :=
  handleLine "a < '' > kept" gapHost.kernel.traced ⟨gapSession, ({}, [])⟩

/-- Its output goes to the file that is named, and its input comes from where the interpreter's
does. -/
theorem handleLine_attaches_of_kept : ∃ id,
    ⟨.openFile "/kept" .write, .returned id⟩ ∈ keptRun.2.outside.2 ∧
      Attached keptLine (some id) keptRun.2.outside.2 .output ∧
        Attached keptLine none keptRun.2.outside.2 .input := by
  have hparse : CommandLine.parse "a < '' > kept" = .ok (some keptLine) := by rfl
  obtain ⟨ts, hscan, hinput, houtput⟩ : ∃ ts,
      Token.scan (Text.trim "a < '' > kept".toList) = .ok ts ∧
        Token.lastRedirection ts .input = some ⟨"", .read⟩ ∧
          Token.lastRedirection ts .output = some ⟨"kept", .write⟩ :=
    ⟨_, rfl, by decide, by decide⟩
  have hpath : Target.path gapSession ⟨"kept", .write⟩ = "/kept" := by decide
  -- the file can be made, so the line is not refused
  obtain ⟨opened, hopened⟩ : ∃ opened,
      Machine.openHandle ({} : Machine Scripted) "/kept" .write = (.returned (0 : Nat), opened) :=
    ⟨_, by cbv⟩
  have hopens : Opens gapSession {} keptLine.targets [0] opened :=
    .cons (hpath ▸ hopened) (.nil opened)
  obtain ⟨_, _, _, _, hexecute, htried, -⟩ :=
    execute_attaches gapHost rfl hopens [keptLine.note]
  have hlog : gapHost.kernel.answer keptLine.note.request ({} : Machine Scripted) =
    (keptLine.note.outcome, {}) := rfl
  obtain ⟨_, hrun, -⟩ := handleLine_runs hparse hlog hexecute
  obtain ⟨_, _, _, _, hrun', hcases⟩ :=
    handleLine_attaches gapHost (m := {}) (s := gapSession) hscan hparse rfl
  cases hrun.symm.trans hrun'
  obtain ⟨-, hall⟩ := hcases.resolve_left fun hnone => htried hnone.1
  obtain ⟨id, hmem, hattached⟩ := hall .output _ houtput
  rw [show keptRun = _ from hrun]
  exact ⟨id, hpath ▸ hmem, hattached, hall .input _ hinput⟩

/-- A host that knows the program `echo`. -/
def echoHost : Host Scripted where
  programs := Scripted.programs [("echo", { out := Text.encode "hi\n" })]
  patience := 40

/-- The text `echo hi > ""`, entered where processes write to the interpreter's console. -/
def emptyRun : Outcome (Option Result) × World (Machine Scripted × Trace) :=
  handleLine "echo hi > \"\"" echoHost.kernel.traced
    ⟨gapSession, ({ inherited := (.nothing, .console, .errors) }, [])⟩

/-- An output that is redirected to an empty operand goes to the console, and nothing is said. -/
theorem handleLine_ignores_empty :
    (∃ ts, Token.scan (Text.trim "echo hi > \"\"".toList) = .ok ts ∧
      Token.lastRedirection ts .output = some ⟨"", .write⟩) ∧
    emptyRun.1 = .returned (some { exitCode := some 0, pids := [1] }) ∧
    emptyRun.2.outside.2.openings = [] ∧ emptyRun.2.outside.2.reports = [] ∧
    emptyRun.2.outside.2.attempts.map (·.streams.stdout) = [.inherit] ∧
    emptyRun.2.outside.1.written.1 = Text.encode "hi\n" := by
  refine ⟨⟨_, rfl, by decide⟩, ?_, ?_, ?_, ?_, ?_⟩ <;> decide +kernel

end LineShell
