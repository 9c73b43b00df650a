import LineShell.Proofs.Trace

namespace LineShell

/-!
# What a run ensures

* `Ensures` — whatever the state of the surroundings is, a run from a session ends in such a way,
  with such a session, and has such a trace;
* `Ensures.bind`, `Ensures.ask_bind`, `Ensures.attempt_bind` — one rule for each way in which runs
  are put together;
* `Ensures.run` — what a run ensures, read off the trace that it has left;
* `Asks` — a run that makes requests of some kind only, and leaves the session as it is;
* `Performs` — such a run, with the traces that it has when it returns. A fault that it raises is
  one that a request of it has met.

A postcondition speaks of all three outcomes. For a run that goes on after a first part, the events
of the first part stand before those of the rest.
-/

variable {σ α β : Type} {k : Kernel σ} {s : Session}

/-- What is to hold of an outcome, the session then, and the trace so far. -/
abbrev Post (α : Type) := Outcome α → Session → Trace → Prop

/-- Whatever the state of the surroundings is, the run ends as the postcondition says, and its trace
is one of the kernel's answers. -/
def Ensures (k : Kernel σ) (x : Shell (σ × Trace) α) (s : Session) (Q : Post α) : Prop :=
  ∀ out t, ∃ o s' out' es, x k.traced ⟨s, (out, t)⟩ = (o, ⟨s', (out', t ++ es)⟩) ∧
    k.Follows out es out' ∧ Q o s' es

namespace Ensures

variable {x : Shell (σ × Trace) α} {f : α → Shell (σ × Trace) β} {Q Q₁ : Post α} {R : Post β}

/-- **Reading a trace.** What a run ensures holds of the trace that it has left. -/
theorem run (h : Ensures k x s Q) {out : σ} {o : Outcome α} {s' : Session} {out' : σ} {es : Trace}
    (hrun : x k.traced ⟨s, (out, [])⟩ = (o, ⟨s', (out', es)⟩)) :
    k.Follows out es out' ∧ Q o s' es := by
  obtain ⟨o₁, s₁, out₁, es₁, h₁, hf, hq⟩ := h out []
  rw [hrun] at h₁
  cases h₁
  exact ⟨hf, hq⟩

/-- The same of a run that goes on where others have left a trace. -/
theorem run_from {w w' : World (σ × Trace)} {o : Outcome α} (h : Ensures k x w.session Q)
    (hrun : x k.traced w = (o, w')) :
    ∃ es, w'.outside.2 = w.outside.2 ++ es ∧ Q o w'.session es := by
  obtain ⟨o₁, s₁, out₁, es, h₁, -, hq⟩ := h w.outside.1 w.outside.2
  have hsame : (o₁, (⟨s₁, (out₁, w.outside.2 ++ es)⟩ : World (σ × Trace))) = (o, w') :=
    h₁.symm.trans hrun
  cases hsame
  exact ⟨es, rfl, hq⟩

theorem and (h : Ensures k x s Q) (h₁ : Ensures k x s Q₁) :
    Ensures k x s fun o s' es => Q o s' es ∧ Q₁ o s' es := by
  intro out t
  obtain ⟨o, s', out', es, hx, hf, hq⟩ := h out t
  obtain ⟨o₁, s₁, out₁, es₁, hx₁, -, hq₁⟩ := h₁ out t
  rw [hx] at hx₁
  simp only [Prod.mk.injEq, World.mk.injEq, List.append_cancel_left_eq] at hx₁
  obtain ⟨rfl, rfl, rfl, rfl⟩ := hx₁
  exact ⟨o, s', out', es, hx, hf, hq, hq₁⟩

theorem mono (h : Ensures k x s Q₁) (hq : ∀ o s' es, Q₁ o s' es → Q o s' es) :
    Ensures k x s Q := by
  intro out t
  obtain ⟨o, s', out', es, hx, hf, h₁⟩ := h out t
  exact ⟨o, s', out', es, hx, hf, hq _ _ _ h₁⟩

/-! ### Runs that ask nothing -/

theorem pure {a : α} (h : Q (.returned a) s []) : Ensures k (Pure.pure a) s Q :=
  fun out t => ⟨_, s, out, [], by rw [List.append_nil]; rfl, rfl, h⟩

theorem raise {e : Fault} (h : Q (.raised e) s []) : Ensures k (Shell.raise e) s Q :=
  fun out t => ⟨_, s, out, [], by rw [List.append_nil]; rfl, rfl, h⟩

theorem never (h : Q .never s []) : Ensures k Shell.never s Q :=
  fun out t => ⟨_, s, out, [], by rw [List.append_nil]; rfl, rfl, h⟩

theorem session_bind {f : Session → Shell (σ × Trace) β} (h : Ensures k (f s) s R) :
    Ensures k (Shell.session >>= f) s R := h

theorem bound_bind {f : Nat → Shell (σ × Trace) β} (h : Ensures k (f k.bound) s R) :
    Ensures k (Shell.bound >>= f) s R := h

theorem modifySession {g : Session → Session} {Q : Post Unit} (h : Q (.returned ()) (g s) []) :
    Ensures k (Shell.modifySession g) s Q :=
  fun out t => ⟨_, g s, out, [], by rw [List.append_nil]; rfl, rfl, h⟩

theorem modifySession_bind {g : Session → Session} {f : Unit → Shell (σ × Trace) β}
    (h : Ensures k (f ()) (g s) R) : Ensures k (Shell.modifySession g >>= f) s R := h

/-! ### Requests -/

theorem ask {r : Request} {Q : Post r.Reply} (h : ∀ o, Q o s [⟨r, o⟩]) :
    Ensures k (Shell.ask r) s Q :=
  fun out _ =>
    ⟨_, s, (k.answer r out).2, [⟨r, (k.answer r out).1⟩], rfl, ⟨_, rfl, rfl⟩, h _⟩

/-! ### Runs put together -/

/-- A run goes on only after a first part that returns. -/
theorem bind (hx : Ensures k x s Q)
    (hr : ∀ a s' es, Q (.returned a) s' es →
      Ensures k (f a) s' fun o s'' es' => R o s'' (es ++ es'))
    (he : ∀ e s' es, Q (.raised e) s' es → R (.raised e) s' es)
    (hn : ∀ s' es, Q .never s' es → R .never s' es) : Ensures k (x >>= f) s R := by
  intro out t
  obtain ⟨o, s₁, out₁, es, hrun, hf, hq⟩ := hx out t
  cases o with
  | returned a =>
    obtain ⟨o', s₂, out₂, es', hrun', hf', hR⟩ := hr a s₁ es hq out₁ (t ++ es)
    refine ⟨o', s₂, out₂, es ++ es', ?_, Kernel.follows_append.2 ⟨_, hf, hf'⟩, hR⟩
    rw [Shell.bind_run, hrun, ← List.append_assoc]
    exact hrun'
  | raised e => exact ⟨_, s₁, out₁, es, by rw [Shell.bind_run, hrun], hf, he e s₁ es hq⟩
  | never => exact ⟨_, s₁, out₁, es, by rw [Shell.bind_run, hrun], hf, hn s₁ es hq⟩

theorem ask_bind {r : Request} {f : r.Reply → Shell (σ × Trace) β}
    (hr : ∀ a, Ensures k (f a) s fun o s' es => R o s' (⟨r, .returned a⟩ :: es))
    (he : ∀ e, R (.raised e) s [⟨r, .raised e⟩]) (hn : R .never s [⟨r, .never⟩]) :
    Ensures k (Shell.ask r >>= f) s R := by
  refine bind (Q := fun o s' es => s' = s ∧ es = [⟨r, o⟩]) (ask fun o => ⟨rfl, rfl⟩) ?_ ?_ ?_
  · rintro a s' es ⟨rfl, rfl⟩
    exact hr a
  · rintro e s' es ⟨rfl, rfl⟩
    exact he e
  · rintro s' es ⟨rfl, rfl⟩
    exact hn

theorem map {g : α → β} (hx : Ensures k x s Q)
    (hr : ∀ a s' es, Q (.returned a) s' es → R (.returned (g a)) s' es)
    (he : ∀ e s' es, Q (.raised e) s' es → R (.raised e) s' es)
    (hn : ∀ s' es, Q .never s' es → R .never s' es) : Ensures k (g <$> x) s R := by
  rw [map_eq_pure_bind]
  refine bind hx (fun a s' es hq => pure ?_) he hn
  rw [List.append_nil]
  exact hr a s' es hq

/-! ### Faults that become answers -/

theorem attempt {Q' : Post (Except Fault α)} (hx : Ensures k x s Q)
    (hr : ∀ a s' es, Q (.returned a) s' es → Q' (.returned (.ok a)) s' es)
    (he : ∀ e s' es, Q (.raised e) s' es → Q' (.returned (.error e)) s' es)
    (hn : ∀ s' es, Q .never s' es → Q' .never s' es) : Ensures k x.attempt s Q' := by
  intro out t
  obtain ⟨o, s₁, out₁, es, hrun, hf, hq⟩ := hx out t
  cases o with
  | returned a => exact ⟨_, s₁, out₁, es, by rw [Shell.attempt, hrun], hf, hr a s₁ es hq⟩
  | raised e => exact ⟨_, s₁, out₁, es, by rw [Shell.attempt, hrun], hf, he e s₁ es hq⟩
  | never => exact ⟨_, s₁, out₁, es, by rw [Shell.attempt, hrun], hf, hn s₁ es hq⟩

/-- After an attempt a run goes on with the answer or the fault. -/
theorem attempt_bind {f : Except Fault α → Shell (σ × Trace) β} (hx : Ensures k x s Q)
    (hr : ∀ a s' es, Q (.returned a) s' es →
      Ensures k (f (.ok a)) s' fun o s'' es' => R o s'' (es ++ es'))
    (he : ∀ e s' es, Q (.raised e) s' es →
      Ensures k (f (.error e)) s' fun o s'' es' => R o s'' (es ++ es'))
    (hn : ∀ s' es, Q .never s' es → R .never s' es) : Ensures k (x.attempt >>= f) s R := by
  intro out t
  obtain ⟨o, s₁, out₁, es, hrun, hf, hq⟩ := hx out t
  cases o with
  | returned a =>
    obtain ⟨o', s₂, out₂, es', hrun', hf', hR⟩ := hr a s₁ es hq out₁ (t ++ es)
    refine ⟨o', s₂, out₂, es ++ es', ?_, Kernel.follows_append.2 ⟨_, hf, hf'⟩, hR⟩
    rw [Shell.bind_run, Shell.attempt, hrun, ← List.append_assoc]
    exact hrun'
  | raised e =>
    obtain ⟨o', s₂, out₂, es', hrun', hf', hR⟩ := he e s₁ es hq out₁ (t ++ es)
    refine ⟨o', s₂, out₂, es ++ es', ?_, Kernel.follows_append.2 ⟨_, hf, hf'⟩, hR⟩
    rw [Shell.bind_run, Shell.attempt, hrun, ← List.append_assoc]
    exact hrun'
  | never =>
    exact ⟨_, s₁, out₁, es, by rw [Shell.bind_run, Shell.attempt, hrun], hf, hn s₁ es hq⟩

/-- A fault is handled where the handler takes faults of its kind. -/
theorem handle {p : Fault → Bool} {g : Fault → Shell (σ × Trace) α} {R : Post α}
    (hx : Ensures k x s Q)
    (hr : ∀ a s' es, Q (.returned a) s' es → R (.returned a) s' es)
    (hh : ∀ e s' es, p e = true → Q (.raised e) s' es →
      Ensures k (g e) s' fun o s'' es' => R o s'' (es ++ es'))
    (he : ∀ e s' es, p e = false → Q (.raised e) s' es → R (.raised e) s' es)
    (hn : ∀ s' es, Q .never s' es → R .never s' es) : Ensures k (x.handle p g) s R := by
  refine attempt_bind hx (fun a s' es hq => pure ?_) (fun e s' es hq => ?_) hn
  · rw [List.append_nil]
    exact hr a s' es hq
  · show Ensures k (if p e then g e else Shell.raise e) s' _
    cases hp : p e with
    | true =>
      rw [if_pos rfl]
      exact hh e s' es hp hq
    | false =>
      rw [if_neg (by simp)]
      refine raise ?_
      rw [List.append_nil]
      exact he e s' es hp hq

/-! ### Each event after those before it -/

variable {P : Trace → Event → Prop} {pre : Trace}

theorem each_bind (hx : Ensures k x s fun _ _ es => Trace.Each P pre es)
    (hf : ∀ a s' es, Ensures k (f a) s' fun _ _ es' => Trace.Each P (pre ++ es) es') :
    Ensures k (x >>= f) s fun _ _ es => Trace.Each P pre es :=
  hx.bind (fun a s' es hes => (hf a s' es).mono fun _ _ _ h => Trace.each_append.2 ⟨hes, h⟩)
    (fun _ _ _ h => h) fun _ _ h => h

end Ensures

/-! ### Runs that ask only so much -/

/-- The run makes requests of some kind only, and leaves the session as it is. -/
def Asks (k : Kernel σ) (p : Request → Bool) (x : Shell (σ × Trace) α) : Prop :=
  ∀ s, Ensures k x s fun _ s' es => s' = s ∧ es.Only p

namespace Asks

variable {p : Request → Bool} {x : Shell (σ × Trace) α} {f : α → Shell (σ × Trace) β}

theorem mono {q : Request → Bool} (h : Asks k p x) (hpq : ∀ r, p r = true → q r = true) :
    Asks k q x := fun s => (h s).mono fun _ _ _ h => ⟨h.1, h.2.mono hpq⟩

theorem pure (a : α) : Asks k p (Pure.pure a) := fun _ => .pure ⟨rfl, Trace.only_nil p⟩

theorem raise (e : Fault) : Asks k p (Shell.raise e : Shell (σ × Trace) α) :=
  fun _ => .raise ⟨rfl, Trace.only_nil p⟩

theorem ask {r : Request} (h : p r = true) : Asks k p (Shell.ask r) :=
  fun _ => .ask fun _ => ⟨rfl, by simpa using h⟩

theorem bind (hx : Asks k p x) (hf : ∀ a, Asks k p (f a)) : Asks k p (x >>= f) := by
  refine fun s => (hx s).bind ?_ (fun _ _ _ h => h) fun _ _ h => h
  rintro a s' es ⟨rfl, hes⟩
  refine (hf a s').mono ?_
  rintro o s' es' ⟨rfl, hes'⟩
  exact ⟨rfl, Trace.only_append.2 ⟨hes, hes'⟩⟩

theorem attempt (hx : Asks k p x) : Asks k p x.attempt :=
  fun s => .attempt (hx s) (fun _ _ _ h => h) (fun _ _ _ h => h) fun _ _ h => h

theorem handle {handles : Fault → Bool} {g : Fault → Shell (σ × Trace) α} (hx : Asks k p x)
    (hg : ∀ e, Asks k p (g e)) : Asks k p (x.handle handles g) := by
  refine hx.attempt.bind ?_
  rintro (e | a)
  · show Asks k p (if handles e then g e else Shell.raise e)
    split
    · exact hg e
    · exact raise e
  · exact pure a

theorem forM {l : List α} {g : α → Shell (σ × Trace) Unit} (hg : ∀ a, Asks k p (g a)) :
    Asks k p (l.forM g) := by
  induction l with
  | nil => exact pure ()
  | cons a l ih => exact (hg a).bind fun _ => ih

end Asks

/-! ### Runs that return with traces of some kind -/

/-- A run that returns has such a trace, and one that raises a fault has met it with a request. -/
def Yields (R : α → Trace → Prop) : Outcome α → Trace → Prop
  | .returned a, es => R a es
  | .raised f, es => ∃ e ∈ es, e.fault? = some f
  | .never, _ => True

theorem Yields.append {R R' : α → Trace → Prop} {o : Outcome α} {es' : Trace} (es : Trace)
    (h : Yields R o es') (hR : ∀ a, R a es' → R' a (es ++ es')) : Yields R' o (es ++ es') := by
  cases o with
  | returned a => exact hR a h
  | raised f =>
    obtain ⟨e, he, hf⟩ := h
    exact ⟨e, List.mem_append_right es he, hf⟩
  | never => trivial

/-- The run leaves the session as it is, and makes requests of some kind only. If it returns, its
trace is of some kind, and if it raises a fault, a request of it has met that. -/
def Performs (k : Kernel σ) (p : Request → Bool) (x : Shell (σ × Trace) α) (s : Session)
    (R : α → Trace → Prop) : Prop :=
  Ensures k x s fun o s' es => s' = s ∧ es.Only p ∧ Yields R o es

namespace Performs

variable {p : Request → Bool} {x : Shell (σ × Trace) α} {f : α → Shell (σ × Trace) β}
  {R : α → Trace → Prop} {R' : β → Trace → Prop}

theorem mono {q : Request → Bool} {R' : α → Trace → Prop} (h : Performs k p x s R)
    (hpq : ∀ r, p r = true → q r = true) (hR : ∀ a es, es.Only p → R a es → R' a es) :
    Performs k q x s R' := by
  refine Ensures.mono h ?_
  rintro o s' es ⟨hs, hes, hy⟩
  exact ⟨hs, hes.mono hpq, hy.append [] fun a => hR a es hes⟩

theorem weaken {R' : α → Trace → Prop} (h : Performs k p x s R)
    (hR : ∀ a es, R a es → R' a es) : Performs k p x s R' :=
  h.mono (fun _ h => h) fun a es _ => hR a es

theorem asks (h : ∀ s, ∃ R, Performs k p x s R) : Asks k p x := by
  intro s
  obtain ⟨R, hR⟩ := h s
  exact Ensures.mono hR fun _ _ _ h => ⟨h.1, h.2.1⟩

theorem pure {a : α} (h : R a []) : Performs k p (Pure.pure a) s R :=
  Ensures.pure ⟨rfl, Trace.only_nil p, h⟩

theorem never : Performs k p Shell.never s R := Ensures.never ⟨rfl, Trace.only_nil p, trivial⟩

theorem ask {r : Request} {R : r.Reply → Trace → Prop} (hp : p r = true)
    (h : ∀ a, R a [⟨r, .returned a⟩]) : Performs k p (Shell.ask r) s R := by
  refine Ensures.ask fun o => ⟨rfl, by simpa using hp, ?_⟩
  cases o with
  | returned a => exact h a
  | raised f => exact ⟨_, .head _, rfl⟩
  | never => trivial

theorem bind (hx : Performs k p x s R)
    (hf : ∀ a es, R a es → Performs k p (f a) s fun b es' => R' b (es ++ es')) :
    Performs k p (x >>= f) s R' := by
  refine Ensures.bind hx ?_ (fun _ _ _ h => h) fun _ _ h => h
  rintro a s' es ⟨rfl, hes, hR⟩
  refine Ensures.mono (hf a es hR) ?_
  rintro o s' es' ⟨rfl, hes', hy⟩
  exact ⟨rfl, Trace.only_append.2 ⟨hes, hes'⟩, hy.append es fun _ h => h⟩

theorem ask_bind {r : Request} {f : r.Reply → Shell (σ × Trace) β} (hp : p r = true)
    (h : ∀ a, Performs k p (f a) s fun b es => R' b (⟨r, .returned a⟩ :: es)) :
    Performs k p (Shell.ask r >>= f) s R' := by
  refine (ask (R := fun a es => es = [⟨r, .returned a⟩]) hp fun _ => rfl).bind ?_
  rintro a es rfl
  exact h a

/-- After a fault a run goes on with the requests that have met it. -/
theorem attempt_bind {f : Except Fault α → Shell (σ × Trace) β} (hx : Performs k p x s R)
    (hr : ∀ a es, R a es → Performs k p (f (.ok a)) s fun b es' => R' b (es ++ es'))
    (he : ∀ e es, es.Only p → (∃ v ∈ es, v.fault? = some e) →
      Ensures k (f (.error e)) s fun o s' es' =>
        s' = s ∧ es'.Only p ∧ Yields R' o (es ++ es')) :
    Performs k p (x.attempt >>= f) s R' := by
  refine Ensures.attempt_bind hx ?_ ?_ fun _ _ h => h
  · rintro a s' es ⟨rfl, hes, hR⟩
    refine Ensures.mono (hr a es hR) ?_
    rintro o s' es' ⟨rfl, hes', hy⟩
    exact ⟨rfl, Trace.only_append.2 ⟨hes, hes'⟩, hy.append es fun _ h => h⟩
  · rintro e s' es ⟨rfl, hes, hv⟩
    refine Ensures.mono (he e es hes hv) ?_
    rintro o s' es' ⟨rfl, hes', hy⟩
    exact ⟨rfl, Trace.only_append.2 ⟨hes, hes'⟩, hy⟩

theorem attempt_ask_bind {r : Request} {f : Except Fault r.Reply → Shell (σ × Trace) β}
    (hp : p r = true)
    (hr : ∀ a, Performs k p (f (.ok a)) s fun b es => R' b (⟨r, .returned a⟩ :: es))
    (he : ∀ e, Ensures k (f (.error e)) s fun o s' es =>
      s' = s ∧ es.Only p ∧ Yields R' o (⟨r, .raised e⟩ :: es)) :
    Performs k p ((Shell.ask r).attempt >>= f) s R' := by
  refine Ensures.attempt_bind (.ask (Q := fun o s' es => s' = s ∧ es = [⟨r, o⟩])
    fun o => ⟨rfl, rfl⟩) ?_ ?_ ?_
  · rintro a s' es ⟨rfl, rfl⟩
    exact Ensures.mono (hr a) fun o s'' es h => ⟨h.1, Trace.only_cons.2 ⟨hp, h.2.1⟩,
      h.2.2.append [⟨r, .returned a⟩] fun _ h => h⟩
  · rintro e s' es ⟨rfl, rfl⟩
    exact Ensures.mono (he e) fun o s'' es h => ⟨h.1, Trace.only_cons.2 ⟨hp, h.2.1⟩, h.2.2⟩
  · rintro s' es ⟨rfl, rfl⟩
    exact ⟨rfl, by simpa using hp, trivial⟩

/-- A run for each element of a list has the traces of all of them, one after another. -/
theorem forM {l : List α} {g : α → Shell (σ × Trace) Unit} {Q : List α → Trace → Prop}
    (h₀ : Q [] []) (hg : ∀ a l, Performs k p (g a) s fun _ es => ∀ es', Q l es' →
      Q (a :: l) (es ++ es')) : Performs k p (l.forM g) s fun _ es => Q l es := by
  induction l with
  | nil => exact pure h₀
  | cons a l ih => exact (hg a l).bind fun _ es h => ih.weaken fun _ es' => h es'

end Performs

end LineShell
