import LineShell.Proofs.StageFiles
import LineShell.Shell.ChangeDirectory

namespace LineShell

open Shell

/-!
# How faults carry a run along

What the events so far make of a run: some faults are caught, some are caught only the first time,
and some end the interpreter.

* `Footing` — where a run stands: firm, or recovering from a fault that it has caught, or lost;
* `Footing.after`, `Footing.run` — how an event, and a trace, change it;
* `Trace.Ordinary` — each request is answered, and fails only in ways that it can fail in;
* `Walks` — where a run leads from footings of some kind, and with what answers and faults;
* `Walks.bind`, `Walks.attempt_bind`, `Walks.handle` — one rule for each way in which runs are put
  together;
* `Safe` — a run that raises no fault, and stands at its end where it stood before.

An event moves the footing, and a kind of footing is an assertion about where a run stands. The
rules are those of a logic of such assertions, with one for answers and one for faults.
-/

variable {σ α β : Type} {k : Kernel σ}

/-! ### Footings -/

/-- Where a run stands by the faults that it has met. -/
inductive Footing
  | firm
  /-- A fault of input or output was caught, and an interrupt would not be. -/
  | recovering
  /-- A fault was met that nothing catches. -/
  | lost
  deriving DecidableEq, Repr

/-- Whether a request asks what the user enters. -/
def Request.isInput : Request → Bool
  | .readInput .. => true
  | _ => false

/-- Whether a request belongs to the prompt: it asks what the user enters, or notes what is executed
of it. -/
def Request.isPrompt : Request → Bool
  | .readInput .. | .log ⟨_, .prompt, _⟩ => true
  | _ => false

theorem Request.isInput_of_not_isPrompt {r : Request} (h : r.isPrompt = false) :
    r.isInput = false := by
  cases r <;> first | rfl | cases h

/-- Whether a request never fails: it concerns the console, the log or what is there to be looked at,
or it is a signal. -/
def Request.isSure : Request → Bool
  | .log _ | .report _ | .warn _ | .print _ | .poll _ | .waitBriefly _ | .terminate _
  | .survivors _ | .kill _ | .startRelay .. | .relayFault _ | .readInput .. | .editorAvailable
  | .isTerminal | .exists _ | .historyLength => true
  | _ => false

/-- Where a run stands after a request has met a fault. -/
def Footing.meets (w : Footing) (f : Fault) : Request → Footing
  | .openFile .. | .spawn .. | .readHistory _ | .limitHistory _ | .writeHistory _ =>
    if f.isIo then w else .lost
  | .canonical _ => if isUnreachable f then w else .lost
  | .closeFile _ | .isDirectory _ => .lost
  | .readOutput _ | .writeFile .. | .flushFile _ | .consoleTakesBytes | .writeConsole _
  | .flushConsole | .closeOutput _ | .joinRelay _ =>
    if f.isIo then .recovering else if f = .interrupt then w else .lost
  | .wait _ => if w = .recovering then .lost else w
  | .bindKey _ => if f = .interrupt then .lost else w
  | _ => w

/-- Where a run stands after an event. The next input starts anew. -/
def Footing.after (w : Footing) (e : Event) : Footing :=
  match w, e.fault? with
  | .lost, _ => .lost
  | w, some f => w.meets f e.request
  | w, none => if e.request.isInput then .firm else w

/-- Where a run stands after a trace. -/
def Footing.run (w : Footing) (es : Trace) : Footing := es.foldl Footing.after w

namespace Footing

@[simp] theorem run_nil (w : Footing) : w.run [] = w := rfl

@[simp] theorem run_cons (w : Footing) (e : Event) (es : Trace) :
    w.run (e :: es) = (w.after e).run es := rfl

@[simp] theorem run_append (w : Footing) (es es' : Trace) :
    w.run (es ++ es') = (w.run es).run es' := List.foldl_append

/-- What is lost stays lost. -/
@[simp] theorem run_lost (es : Trace) : run .lost es = .lost := by
  induction es with
  | nil => rfl
  | cons e es ih => exact ih

theorem after_returned (w : Footing) {r : Request} (h : r.isInput = false) (a : r.Reply) :
    w.after ⟨r, .returned a⟩ = w := by
  cases w <;> simp [after, Event.fault?, h]

theorem after_raised {w : Footing} (h : w ≠ .lost) (r : Request) (f : Fault) :
    w.after ⟨r, .raised f⟩ = w.meets f r := by
  cases w with
  | lost => exact absurd rfl h
  | firm => rfl
  | recovering => rfl

theorem after_input {w : Footing} (h : w ≠ .lost) (text : String) (b : Bool) (i : Input) :
    w.after ⟨.readInput text b, .returned i⟩ = .firm := by
  cases w with
  | lost => exact absurd rfl h
  | firm => rfl
  | recovering => rfl

@[simp] theorem after_lost (e : Event) : after .lost e = .lost := rfl

end Footing

/-! ### Ordinary traces -/

/-- Whether a request was answered, and fails in no way that it cannot fail in: those that never
fail do not, a wait is only interrupted, and nothing but the interpreter itself complains of a file
that it cannot open. -/
def Event.isOrdinary (e : Event) : Bool :=
  match e.outcome with
  | .returned _ => true
  | .never => false
  | .raised f => !f.isCannotOpen && match e.request with
    | .wait _ => f == .interrupt
    | r => !r.isSure

theorem Event.not_isCannotOpen {r : Request} {f : Fault}
    (h : Event.isOrdinary ⟨r, .raised f⟩ = true) : f.isCannotOpen = false := by
  cases hf : f.isCannotOpen with
  | false => rfl
  | true => simp [Event.isOrdinary, hf] at h

/-- A request that never fails meets no fault. -/
theorem Event.isOrdinary_raised_of_isSure {r : Request} (h : r.isSure = true) (f : Fault) :
    Event.isOrdinary ⟨r, .raised f⟩ = false := by
  cases r <;> first | (cases h; done) | simp [Event.isOrdinary, Request.isSure]

/-- All events are ordinary. -/
def Trace.Ordinary (es : Trace) : Prop := ∀ e ∈ es, e.isOrdinary = true

instance (es : Trace) : Decidable es.Ordinary :=
  inferInstanceAs (Decidable (∀ e ∈ es, e.isOrdinary = true))

namespace Trace

@[simp] theorem ordinary_nil : Ordinary [] := by simp [Ordinary]

@[simp] theorem ordinary_cons {e : Event} {es : Trace} :
    Ordinary (e :: es) ↔ e.isOrdinary = true ∧ es.Ordinary := by simp [Ordinary]

theorem ordinary_append {es es' : Trace} : Ordinary (es ++ es') ↔ es.Ordinary ∧ es'.Ordinary := by
  simp only [Ordinary, List.mem_append]
  exact ⟨fun h => ⟨fun e he => h e (.inl he), fun e he => h e (.inr he)⟩,
    fun h e he => he.elim (h.1 e) (h.2 e)⟩

end Trace

/-! ### Where runs lead -/

/-- How a run ends that is left alone by its surroundings, and where it stands then. One that does
not end has taken some number of events at least. -/
def Arrives (rounds : Nat) (w : Footing) (R : α → Footing → Prop) (E : Fault → Footing → Prop) :
    Outcome α → Trace → Prop
  | .returned a, es => R a (w.run es)
  | .raised f, es => E f (w.run es)
  | .never, es => rounds ≤ es.length

/-- From footings of some kind the run leads to answers and faults with footings of some kind, or
it takes too long. It makes no requests that belong to the prompt. -/
def Walks (k : Kernel σ) (rounds : Nat) (C : Footing → Prop) (x : Shell (σ × Trace) α)
    (R : α → Footing → Prop) (E : Fault → Footing → Prop) : Prop :=
  ∀ s, Ensures k x s fun o _ es => es.Only (fun r => !r.isPrompt) ∧
    (es.Ordinary → ∀ w, C w → Arrives rounds w R E o es)

theorem Arrives.append {rounds : Nat} {w : Footing} {R : α → Footing → Prop}
    {E : Fault → Footing → Prop} {o : Outcome α} {es' : Trace} (es : Trace)
    (h : Arrives rounds (w.run es) R E o es') : Arrives rounds w R E o (es ++ es') := by
  cases o with
  | returned a => simpa [Arrives] using h
  | raised f => simpa [Arrives] using h
  | never =>
    rw [Arrives, List.length_append]
    exact Nat.le_add_left_of_le h

theorem Arrives.mono {rounds : Nat} {w : Footing} {R R' : α → Footing → Prop}
    {E E' : Fault → Footing → Prop} {o : Outcome α} {es : Trace} (h : Arrives rounds w R E o es)
    (hR : ∀ a w, R a w → R' a w) (hE : ∀ f w, E f w → E' f w) : Arrives rounds w R' E' o es := by
  cases o with
  | returned a => exact hR _ _ h
  | raised f => exact hE _ _ h
  | never => exact h

namespace Walks

variable {rounds : Nat} {C C' : Footing → Prop} {x : Shell (σ × Trace) α}
  {f : α → Shell (σ × Trace) β} {R P : α → Footing → Prop} {R' : β → Footing → Prop}
  {E F : Fault → Footing → Prop}

theorem mono (h : Walks k rounds C x P F) (hC : ∀ w, C' w → C w) (hR : ∀ a w, P a w → R a w)
    (hE : ∀ f w, F f w → E f w) : Walks k rounds C' x R E :=
  fun s => (h s).mono fun _ _ _ h => ⟨h.1, fun ho w hw => (h.2 ho w (hC w hw)).mono hR hE⟩

theorem of (h : Walks k rounds C x R E) (hC : ∀ w, C' w → C w) : Walks k rounds C' x R E :=
  h.mono hC (fun _ _ h => h) fun _ _ h => h

theorem pure {a : α} (h : ∀ w, C w → R a w) : Walks k rounds C (Pure.pure a) R E :=
  fun _ => .pure ⟨Trace.only_nil _, fun _ => h⟩

theorem raise {e : Fault} (h : ∀ w, C w → E e w) : Walks k rounds C (Shell.raise e) R E :=
  fun _ => .raise ⟨Trace.only_nil _, fun _ => h⟩

theorem session_bind {f : Session → Shell (σ × Trace) β}
    (h : ∀ s, Walks k rounds C (f s) R' E) : Walks k rounds C (Shell.session >>= f) R' E :=
  fun s => .session_bind (h s s)

theorem bound_bind {f : Nat → Shell (σ × Trace) β} (h : Walks k rounds C (f k.bound) R' E) :
    Walks k rounds C (Shell.bound >>= f) R' E := fun s => .bound_bind (h s)

theorem ask {r : Request} {R : r.Reply → Footing → Prop} (hp : r.isPrompt = false)
    (hR : ∀ a w, C w → R a w) (hE : ∀ e w, Event.isOrdinary ⟨r, .raised e⟩ = true → C w →
      E e (w.after ⟨r, .raised e⟩)) : Walks k rounds C (Shell.ask r) R E := by
  refine fun s => .ask fun o => ⟨by simpa using hp, fun ho w hw => ?_⟩
  have he := ho _ (List.mem_singleton_self _)
  cases o with
  | returned a =>
    show R a (w.after ⟨r, .returned a⟩)
    rw [w.after_returned (Request.isInput_of_not_isPrompt hp)]
    exact hR a w hw
  | raised e => exact hE e w he hw
  | never => cases he

theorem bind (hx : Walks k rounds C x P F) (hf : ∀ a, Walks k rounds (P a) (f a) R' E)
    (he : ∀ e w, F e w → E e w) : Walks k rounds C (x >>= f) R' E := by
  refine fun s => (hx s).bind ?_ ?_ fun s' es h => h
  · rintro a s' es ⟨hes, hw⟩
    refine (hf a s').mono ?_
    rintro o s'' es' ⟨hes', hw'⟩
    refine ⟨Trace.only_append.2 ⟨hes, hes'⟩, fun ho w hC => ?_⟩
    obtain ⟨ho, ho'⟩ := Trace.ordinary_append.1 ho
    exact (hw' ho' _ (hw ho w hC)).append es
  · rintro e s' es ⟨hes, hw⟩
    exact ⟨hes, fun ho w hC => he _ _ (hw ho w hC)⟩

theorem map {g : α → β} (hx : Walks k rounds C x (fun a => R' (g a)) E) :
    Walks k rounds C (g <$> x) R' E := by
  rw [map_eq_pure_bind]
  exact hx.bind (fun _ => pure fun _ h => h) fun _ _ h => h

theorem attempt {R : Except Fault α → Footing → Prop}
    (hx : Walks k rounds C x (fun a => R (.ok a)) fun e => R (.error e)) :
    Walks k rounds C x.attempt R E :=
  fun s => (hx s).attempt (fun _ _ _ h => h) (fun _ _ _ h => h) fun _ _ h => h

/-- What a run leaves, read off the result that was kept of it. -/
def Kept (P : α → Footing → Prop) (F : Fault → Footing → Prop) : Except Fault α → Footing → Prop
  | .ok a => P a
  | .error e => F e

theorem attempt_bind {f : Except Fault α → Shell (σ × Trace) β}
    (hx : Walks k rounds C x P F) (hr : ∀ a, Walks k rounds (P a) (f (.ok a)) R' E)
    (he : ∀ e, Walks k rounds (F e) (f (.error e)) R' E) :
    Walks k rounds C (x.attempt >>= f) R' E := by
  refine (attempt (R := Kept P F) (E := fun _ _ => False) hx).bind ?_ fun _ _ h => h.elim
  rintro (e | a)
  · exact he e
  · exact hr a

/-- A fault that is not handled is raised again. -/
theorem handle {p : Fault → Bool} {g : Fault → Shell (σ × Trace) α} (hx : Walks k rounds C x R F)
    (hh : ∀ e, p e = true → Walks k rounds (F e) (g e) R E)
    (he : ∀ e w, p e = false → F e w → E e w) : Walks k rounds C (x.handle p g) R E := by
  refine hx.attempt_bind (fun a => pure fun _ h => h) fun e => ?_
  show Walks k rounds (F e) (if p e then g e else Shell.raise e) R E
  cases hp : p e with
  | true => exact hh e hp
  | false => exact raise fun w => he e w hp

theorem forM {l : List α} {g : α → Shell (σ × Trace) Unit}
    (hg : ∀ a, Walks k rounds C (g a) (fun _ => C) E) :
    Walks k rounds C (l.forM g) (fun _ => C) E := by
  induction l with
  | nil => exact pure fun _ h => h
  | cons a l ih => exact (hg a).bind (fun _ => ih) fun _ _ h => h

/-- The request itself counts as a round. -/
theorem ask_bind_succ {r : Request} {f : r.Reply → Shell (σ × Trace) β}
    {R : r.Reply → Footing → Prop} (hx : ∀ n, Walks k n C (Shell.ask r) R F)
    (hf : ∀ a, Walks k rounds (R a) (f a) R' E) (he : ∀ e w, F e w → E e w) :
    Walks k (rounds + 1) C (Shell.ask r >>= f) R' E := by
  refine fun s => ((hx (rounds + 1) s).and (.ask (Q := fun o _ es => es = [⟨r, o⟩])
    fun _ => rfl)).bind ?_ ?_ fun s' es h => h.1
  · rintro a s' _ ⟨⟨hes, hw⟩, rfl⟩
    refine (hf a s').mono ?_
    rintro o s'' es' ⟨hes', hw'⟩
    refine ⟨Trace.only_append.2 ⟨hes, hes'⟩, fun ho w hC => ?_⟩
    obtain ⟨ho, ho'⟩ := Trace.ordinary_append.1 ho
    have harr := hw' ho' _ (hw ho w hC)
    cases o with
    | returned b => exact harr.append [_]
    | raised e => exact harr.append [_]
    | never => exact Nat.succ_le_succ harr
  · rintro e s' _ ⟨⟨hes, hw⟩, rfl⟩
    exact ⟨hes, fun ho w hC => he _ _ (hw ho w hC)⟩

end Walks

/-! ### Runs that raise nothing -/

/-- The run raises no fault and stands at its end where it stood before. -/
def Safe (k : Kernel σ) (x : Shell (σ × Trace) α) : Prop :=
  ∀ rounds C, Walks k rounds C x (fun _ => C) fun _ _ => False

namespace Safe

variable {rounds : Nat} {C : Footing → Prop} {x : Shell (σ × Trace) α}
  {f : α → Shell (σ × Trace) β} {R : β → Footing → Prop} {E : Fault → Footing → Prop}

theorem walks (h : Safe k x) : Walks k rounds C x (fun _ => C) E :=
  (h rounds C).mono (fun _ h => h) (fun _ _ h => h) fun _ _ h => h.elim

theorem bind_walks (h : Safe k x) (hf : ∀ a, Walks k rounds C (f a) R E) :
    Walks k rounds C (x >>= f) R E := h.walks.bind hf fun _ _ h => h

theorem pure (a : α) : Safe k (Pure.pure a) := fun _ _ => .pure fun _ h => h

theorem bind (h : Safe k x) (hf : ∀ a, Safe k (f a)) : Safe k (x >>= f) :=
  fun rounds C => h.bind_walks fun a => hf a rounds C

theorem session_bind {f : Session → Shell (σ × Trace) β} (h : ∀ s, Safe k (f s)) :
    Safe k (Shell.session >>= f) := fun rounds C => .session_bind fun s => h s rounds C

theorem modifySession (g : Session → Session) : Safe k (Shell.modifySession g) :=
  fun _ _ _ => .modifySession ⟨Trace.only_nil _, fun _ _ h => h⟩

/-- A request that never fails is safe. -/
theorem ask {r : Request} (hs : r.isSure = true) (hp : r.isPrompt = false) :
    Safe k (Shell.ask r) := by
  refine fun rounds C => .ask hp (fun _ _ h => h) fun e w he => ?_
  rw [Event.isOrdinary_raised_of_isSure hs] at he
  cases he

theorem forM {l : List α} {g : α → Shell (σ × Trace) Unit} (hg : ∀ a, Safe k (g a)) :
    Safe k (l.forM g) := by
  induction l with
  | nil => exact pure ()
  | cons a l ih => exact (hg a).bind fun _ => ih

theorem mapM {l : List α} {g : α → Shell (σ × Trace) β} (hg : ∀ a, Safe k (g a)) :
    Safe k (l.mapM g) := by
  induction l with
  | nil => exact pure []
  | cons a l ih =>
    rw [List.mapM_cons]
    exact (hg a).bind fun b => ih.bind fun bs => pure _

end Safe

end LineShell
