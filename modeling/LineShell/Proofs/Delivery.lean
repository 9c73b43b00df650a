import LineShell.Proofs.Drain

namespace LineShell

open Text (Bytes)

/-!
# What a pipeline delivers

* `Trace.handed`, `Trace.readings` — the bytes that are handed on to a file or to the console, and
  those that are read from processes;
* `Shell.Taps` — whatever is read from one process is handed on;
* `drain_drained` — that a drain does so until it has read the end, and then flushes.
-/

variable {σ : Type} {k : Kernel σ} {s : Session}

/-! ### Bytes that are handed on -/

namespace Event

/-- The bytes that are handed on to a file, or else to the console. -/
def handed (sink : Option FileId) : Event → Bytes
  | ⟨.writeFile id bytes, .returned _⟩ => if sink = some id then bytes else []
  | ⟨.writeConsole bytes, .returned _⟩ => if sink = none then bytes else []
  | _ => []

/-- The flushing of a file, or else of the console. -/
def flushed : Option FileId → Event
  | some file => ⟨.flushFile file, .returned ()⟩
  | none => ⟨.flushConsole, .returned ()⟩

/-- The bytes that are read from a process. -/
def reading : Event → Bytes
  | ⟨.readOutput _, .returned bytes⟩ => bytes
  | _ => []

theorem handed_of_isAside {e : Event} (h : e.request.isAside = true) (sink : Option FileId) :
    e.handed sink = [] := by
  obtain ⟨r, o⟩ := e
  cases r <;> first | rfl | cases h

theorem isAside_flushed (sink : Option FileId) : (flushed sink).request.isAside = true := by
  cases sink <;> rfl

end Event

namespace Trace

/-- The bytes that are handed on to a file, or else to the console. -/
def handed (sink : Option FileId) (es : Trace) : Bytes := es.flatMap (Event.handed sink)

/-- A file, or else the console, is flushed after the last bytes that are handed on to it. -/
def Flushed (sink : Option FileId) (es : Trace) : Prop :=
  ∃ pre post : Trace, es = pre ++ Event.flushed sink :: post ∧ post.handed sink = []

/-- The bytes that are read from processes. -/
def readings (es : Trace) : Bytes := es.flatMap Event.reading

@[simp] theorem handed_append (sink : Option FileId) (es es' : Trace) :
    handed sink (es ++ es') = es.handed sink ++ es'.handed sink := List.flatMap_append

@[simp] theorem readings_append (es es' : Trace) :
    readings (es ++ es') = es.readings ++ es'.readings := List.flatMap_append

theorem handed_of_only {p : Request → Bool} {es : Trace} (h : es.Only p) (sink : Option FileId)
    (hp : ∀ e : Event, p e.request = true → e.handed sink = []) : es.handed sink = [] :=
  List.flatMap_eq_nil_iff.2 fun e he => hp e (h e he)

theorem handed_of_aside {es : Trace} (h : es.Aside) (sink : Option FileId) : es.handed sink = [] :=
  handed_of_only h sink fun _ he => Event.handed_of_isAside he sink

theorem Flushed.prepend {sink : Option FileId} {es : Trace} (h : es.Flushed sink) (es' : Trace) :
    (es' ++ es).Flushed sink := by
  obtain ⟨pre, post, rfl, hpost⟩ := h
  exact ⟨es' ++ pre, post, (List.append_assoc ..).symm, hpost⟩

end Trace

namespace Shell

/-! ### Draining -/

/-- An event of a drain that reads from no other process than one. -/
def TapsFrom (pid : ProcessId) (e : Event) : Prop :=
  (∃ line, e = ⟨.readOutput pid, .returned line⟩) ∨
    e.request.isDrain = true ∧ ∀ q, e.request ≠ .readOutput q

/-- Whatever is read from one process is handed on. -/
structure Taps (pid : ProcessId) (sink : Option FileId) (es : Trace) : Prop where
  from_ : ∀ e ∈ es, TapsFrom pid e
  handed : es.handed sink = es.readings

variable {pid : ProcessId} {sink : Option FileId} {es es' : Trace}

theorem Taps.nil : Taps pid sink [] := ⟨fun _ he => absurd he List.not_mem_nil, rfl⟩

theorem Taps.append (h : Taps pid sink es) (h' : Taps pid sink es') :
    Taps pid sink (es ++ es') := by
  refine ⟨fun e he => (List.mem_append.1 he).elim (h.from_ e) (h'.from_ e), ?_⟩
  rw [Trace.handed_append, Trace.readings_append, h.handed, h'.handed]

/-- What is read from one process is handed on up to its end, and then flushed. -/
def Drained (pid : ProcessId) (sink : Option FileId) (es : Trace) : Prop :=
  ∃ pre : Trace, es = pre ++ [Event.endOf pid, Event.flushed sink] ∧ Taps pid sink pre

theorem drainTo_drained {put : Bytes → Shell (σ × Trace) Unit}
    (hput : ∀ line, Performs k Request.isDrain (put line) s fun _ es =>
      Taps pid sink (⟨.readOutput pid, .returned line⟩ :: es)) (rounds : Nat) :
    Performs k Request.isDrain (drainTo pid put rounds) s fun _ es =>
      ∃ pre, es = pre ++ [Event.endOf pid] ∧ Taps pid sink pre := by
  induction rounds with
  | zero => exact .never
  | succ rounds ih =>
    refine .ask_bind rfl fun line => ?_
    cases line with
    | nil => exact .pure ⟨[], rfl, .nil⟩
    | cons b bytes =>
      -- the line is handed on, and then the rest is drained
      refine (hput _).bind fun _ es hes => ih.weaken ?_
      rintro _ _ ⟨pre, rfl, hpre⟩
      exact ⟨_ :: es ++ pre, by simp, hes.append hpre⟩

/-- A line that is read and written has been handed on. -/
theorem taps_of_handed {line : Bytes} {e : Event} (he : e.request.isDrain = true)
    (hread : ∀ q, e.request ≠ .readOutput q) (hhanded : e.handed sink = line)
    (hreading : e.reading = []) : Taps pid sink [⟨.readOutput pid, .returned line⟩, e] := by
  refine ⟨List.forall_mem_cons.2 ⟨.inl ⟨line, rfl⟩, ?_⟩, ?_⟩
  · exact List.forall_mem_singleton.2 (.inr ⟨he, hread⟩)
  show ([] : Bytes) ++ (e.handed sink ++ []) = line ++ (e.reading ++ [])
  rw [hhanded, hreading]
  simp

/-- **Draining hands everything on.** What a drain reads from a process it writes to its file, or to
a console that takes bytes. -/
theorem drain_drained (pid : ProcessId) (sink : Option FileId) :
    Performs k Request.isDrain (drain pid sink) s fun _ es =>
      (sink = none → ⟨.consoleTakesBytes, .returned false⟩ ∉ es) → Drained pid sink es := by
  refine Ensures.bound_bind (f := fun rounds => _) ?_
  cases sink with
  | some file =>
    have hput : ∀ line, Performs k Request.isDrain (writeFile file line) s fun _ es =>
        Taps pid (some file) (⟨.readOutput pid, .returned line⟩ :: es) := fun line =>
      .ask rfl fun _ => taps_of_handed rfl (fun _ h => by cases h) (if_pos rfl) rfl
    refine (drainTo_drained hput _).bind ?_
    rintro _ _ ⟨pre, rfl, hpre⟩
    exact .ask rfl fun _ _ => ⟨pre, List.append_assoc .., hpre⟩
  | none =>
    refine Performs.ask_bind rfl fun takesBytes => ?_
    cases takesBytes with
    | true =>
      have hput : ∀ line, Performs k Request.isDrain (writeConsole line) s fun _ es =>
          Taps pid none (⟨.readOutput pid, .returned line⟩ :: es) := fun line =>
        .ask rfl fun _ => taps_of_handed rfl (fun _ h => by cases h) rfl rfl
      refine Performs.ask_bind rfl fun before => ?_
      refine (drainTo_drained hput _).bind ?_
      rintro _ _ ⟨pre, rfl, hpre⟩
      have hopening : Taps pid none
          [⟨.consoleTakesBytes, .returned true⟩, ⟨.flushConsole, .returned before⟩] :=
        ⟨by simp [TapsFrom, Request.isDrain], rfl⟩
      exact .ask rfl fun _ _ => ⟨_, List.append_assoc (_ :: _ :: pre) _ _, hopening.append hpre⟩
    | false =>
      -- what such a console is handed is text, of which nothing is promised
      refine ((drainTo_performs pid (fun _ => .ask rfl fun _ => trivial) _).weaken
        fun _ _ _ => trivial).bind (R := fun _ _ => True) fun _ es _ => ?_
      exact .ask rfl fun _ hbytes => absurd (.head _) (hbytes rfl)

end Shell

end LineShell
