import LineShell.Shell

namespace LineShell

/-!
# Traces

What the interpreter asked of its surroundings, and what came of each request.

* `Event` — a request and what came of it, `Trace` — events, the first one first;
* `Kernel.traced` — a kernel that writes down what it answers;
* `Kernel.Follows` — the events that a kernel's answers make, from one state to another;
* `Request.isAside` — the requests that concern no process, no relay and nothing handed on;
* `Trace.spawns`, `Trace.started`, `Trace.exits` — attempts to start processes, the processes that
  were started, and those that were seen to have exited;
* `Trace.Each` — each event is as it should be after those before it.

A kernel that writes down its answers gives the same answers, so what holds of the traces of all
kernels holds of all that the interpreter can do and meet.
-/

variable {σ : Type}

/-- A request, and what came of it. -/
structure Event where
  request : Request
  outcome : Outcome request.Reply

/-- Events, the first one first. -/
abbrev Trace := List Event

/-! ### Kernels and their traces -/

namespace Kernel

/-- A kernel that writes down what it answers. -/
def traced (k : Kernel σ) : Kernel (σ × Trace) where
  answer r w := ((k.answer r w.1).1, ((k.answer r w.1).2, w.2 ++ [⟨r, (k.answer r w.1).1⟩]))
  bound := k.bound

/-- The events lead from one state to another, with each outcome as the kernel answers. -/
def Follows (k : Kernel σ) : σ → Trace → σ → Prop
  | out, [], out' => out = out'
  | out, e :: es, out' => ∃ mid, k.answer e.request out = (e.outcome, mid) ∧ k.Follows mid es out'

theorem follows_append {k : Kernel σ} {out out' : σ} {es es' : Trace} :
    k.Follows out (es ++ es') out' ↔ ∃ mid, k.Follows out es mid ∧ k.Follows mid es' out' := by
  induction es generalizing out with
  | nil => simp [Follows]
  | cons e es ih =>
    simp only [List.cons_append, Follows, ih]
    constructor
    · rintro ⟨mid, ha, mid', h, h'⟩
      exact ⟨mid', ⟨mid, ha, h⟩, h'⟩
    · rintro ⟨mid', ⟨mid, ha, h⟩, h'⟩
      exact ⟨mid, ha, mid', h, h'⟩

end Kernel

/-- What a run has come to, by its parts. -/
theorem run_eta {α : Type} (r : Outcome α × World (σ × Trace)) :
    r = (r.1, ⟨r.2.session, (r.2.outside.1, r.2.outside.2)⟩) := rfl

/-! ### Kinds of requests and events -/

/-- Whether a request concerns neither a process nor a relay, nor hands on what a process has written
or what the user has entered. -/
def Request.isAside : Request → Bool
  | .spawn .. | .readOutput _ | .closeOutput _ | .wait _ | .waitBriefly _ | .poll _
  | .terminate _ | .survivors _ | .kill _ | .startRelay .. | .joinRelay _ | .readInput ..
  | .writeFile .. | .writeConsole _ => false
  | _ => true

namespace Event

/-- The fault that a request has met. -/
def fault? (e : Event) : Option Fault :=
  match e.outcome with
  | .raised f => some f
  | _ => none

/-- The process that an attempt to start one has brought, if it has brought one. -/
def spawned? : Event → Option (Option ProcessId)
  | ⟨.spawn .., .returned pid⟩ => some (some pid)
  | ⟨.spawn .., .raised _⟩ => some none
  | _ => none

/-- The process that a wait or a look has found to have exited. -/
def exited? : Event → Option ProcessId
  | ⟨.wait pid, .returned _⟩ => some pid
  | ⟨.waitBriefly pid, .returned (some _)⟩ => some pid
  | ⟨.poll pid, .returned (some _)⟩ => some pid
  | _ => none

/-- The process that a look has found running. -/
def running? : Event → Option ProcessId
  | ⟨.poll pid, .returned none⟩ => some pid
  | _ => none

theorem spawned?_of_isAside {e : Event} (h : e.request.isAside = true) : e.spawned? = none := by
  obtain ⟨r, o⟩ := e
  cases r <;> first | rfl | cases h

theorem exited?_of_isAside {e : Event} (h : e.request.isAside = true) : e.exited? = none := by
  obtain ⟨r, o⟩ := e
  cases r <;> first | rfl | cases h

end Event

namespace Trace

/-- All requests are of some kind. -/
def Only (p : Request → Bool) (es : Trace) : Prop := ∀ e ∈ es, p e.request = true

/-- All requests concern neither processes nor relays. -/
abbrev Aside (es : Trace) : Prop := es.Only Request.isAside

/-- All requests have returned. -/
def Smooth (es : Trace) : Prop := ∀ e ∈ es, ∃ a, e.outcome = .returned a

/-- What the attempts to start processes have brought, in order. -/
def spawns (es : Trace) : List (Option ProcessId) := es.filterMap Event.spawned?

/-- The processes that were started, in order. -/
def started (es : Trace) : List ProcessId := es.spawns.filterMap id

/-- The processes that were found to have exited, in order. -/
def exits (es : Trace) : List ProcessId := es.filterMap Event.exited?

/-! ### Traces in parts -/

@[simp] theorem only_nil (p : Request → Bool) : Only p [] := by simp [Only]

@[simp] theorem only_cons {p : Request → Bool} {e : Event} {es : Trace} :
    Only p (e :: es) ↔ p e.request = true ∧ es.Only p := by simp [Only]

@[simp] theorem only_append {p : Request → Bool} {es es' : Trace} :
    Only p (es ++ es') ↔ es.Only p ∧ es'.Only p := by
  simp only [Only, List.mem_append]
  exact ⟨fun h => ⟨fun e he => h e (.inl he), fun e he => h e (.inr he)⟩,
    fun h e he => he.elim (h.1 e) (h.2 e)⟩

theorem Only.mono {p q : Request → Bool} {es : Trace} (h : es.Only p)
    (hpq : ∀ r, p r = true → q r = true) : es.Only q := fun e he => hpq _ (h e he)

@[simp] theorem smooth_nil : Smooth [] := by simp [Smooth]

theorem smooth_cons {e : Event} {es : Trace} :
    Smooth (e :: es) ↔ (∃ a, e.outcome = .returned a) ∧ es.Smooth := by simp [Smooth]

@[simp] theorem spawns_nil : spawns [] = [] := rfl

@[simp] theorem exits_nil : exits [] = [] := rfl

@[simp] theorem spawns_append (es es' : Trace) : spawns (es ++ es') = es.spawns ++ es'.spawns :=
  List.filterMap_append

@[simp] theorem exits_append (es es' : Trace) : exits (es ++ es') = es.exits ++ es'.exits :=
  List.filterMap_append

@[simp] theorem started_append (es es' : Trace) :
    started (es ++ es') = es.started ++ es'.started := by
  simp [started]

theorem spawns_of_aside {es : Trace} (h : es.Aside) : es.spawns = [] :=
  List.filterMap_eq_nil_iff.2 fun e he => Event.spawned?_of_isAside (h e he)

theorem exits_of_aside {es : Trace} (h : es.Aside) : es.exits = [] :=
  List.filterMap_eq_nil_iff.2 fun e he => Event.exited?_of_isAside (h e he)

/-! ### Each event after those before it -/

/-- Each event is as it should be after those before it, of which `pre` come first. -/
def Each (P : Trace → Event → Prop) : Trace → Trace → Prop
  | _, [] => True
  | pre, e :: es => P pre e ∧ Each P (pre ++ [e]) es

variable {P : Trace → Event → Prop} {pre es : Trace}

theorem each_append {es' : Trace} :
    Each P pre (es ++ es') ↔ Each P pre es ∧ Each P (pre ++ es) es' := by
  induction es generalizing pre with
  | nil => simp [Each]
  | cons e es ih =>
    simp only [List.cons_append, Each, ih, and_assoc, List.append_assoc, List.nil_append]

theorem Each.of_only {p : Request → Bool} (h : es.Only p)
    (hp : ∀ pre (e : Event), p e.request = true → P pre e) : Each P pre es := by
  induction es generalizing pre with
  | nil => trivial
  | cons e es ih =>
    obtain ⟨he, hes⟩ := only_cons.1 h
    exact ⟨hp pre e he, ih hes⟩

theorem Each.at {a b : Trace} {e : Event} (h : Each P pre (a ++ e :: b)) : P (pre ++ a) e :=
  (each_append.1 h).2.1

/-- What holds of each event where it stands holds throughout. -/
theorem each_iff : Each P pre es ↔ ∀ a e b, es = a ++ e :: b → P (pre ++ a) e := by
  constructor
  · rintro h a e b rfl
    exact h.at
  · intro h
    induction es generalizing pre with
    | nil => trivial
    | cons e es ih =>
      refine ⟨by simpa using h [] e es rfl, ih fun a v b hes => ?_⟩
      have := h (e :: a) v b (by rw [hes, List.cons_append])
      rwa [List.append_assoc]

instance [∀ pre e, Decidable (P pre e)] : ∀ pre es, Decidable (Each P pre es)
  | _, [] => isTrue trivial
  | pre, e :: es =>
    have : Decidable (Each P (pre ++ [e]) es) := instDecidableEach (pre ++ [e]) es
    inferInstanceAs (Decidable (P pre e ∧ Each P (pre ++ [e]) es))

end Trace

end LineShell
