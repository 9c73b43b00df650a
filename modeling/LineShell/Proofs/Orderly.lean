import LineShell.Proofs.Trace

namespace LineShell

/-!
# What the interpreter takes for granted of the system

* `Trace.fresh` — the number of a process is not that of another one whose exit has not been seen;
* `Trace.steady` — a process whose exit has been seen is not found running;
* `Orderly` — both, and that nothing but the interpreter itself complains of a redirection's file;
* `Trace.nodup_started_of_fresh`, `Trace.not_mem_exits_of_steady` — what follows for parts of a
  trace.
-/

namespace Trace

/-- Whether each process that is started has a number that no other one has whose exit has not
been seen. Of these there are `children` before. -/
def fresh (children : List ProcessId) : Trace → Bool
  | [] => true
  | e :: es =>
    match e.spawned?, e.exited? with
    | some (some pid), _ => !children.contains pid && fresh (pid :: children) es
    | _, some pid => fresh (children.filter (· != pid)) es
    | _, none => fresh children es

/-- Whether no process is found running whose exit has been seen. Of these there are `gone`
before, unless their numbers are taken anew. -/
def steady (gone : List ProcessId) : Trace → Bool
  | [] => true
  | e :: es =>
    match e.running?, e.spawned?, e.exited? with
    | some pid, _, _ => !gone.contains pid && steady gone es
    | _, some (some pid), _ => steady (gone.filter (· != pid)) es
    | _, _, some pid => steady (pid :: gone) es
    | _, _, none => steady gone es

end Trace

/-- What the interpreter takes for granted of the system: the number of a process is not that of
another one until its exit has been seen, an exit that has been seen stays so, and nothing but the
interpreter itself complains of a file that it cannot open. -/
structure Orderly (jobs : Jobs) (es : Trace) : Prop where
  fresh : es.fresh jobs.pids = true
  steady : es.steady [] = true
  own : ∀ e ∈ es, ∀ f ∈ e.fault?, f.isCannotOpen = false

instance (jobs : Jobs) (es : Trace) : Decidable (Orderly jobs es) :=
  decidable_of_iff (es.fresh jobs.pids = true ∧ es.steady [] = true ∧
    ∀ e ∈ es, ∀ f ∈ e.fault?, f.isCannotOpen = false)
    ⟨fun ⟨hf, hs, ho⟩ => ⟨hf, hs, ho⟩, fun h => ⟨h.fresh, h.steady, h.own⟩⟩

namespace Event

theorem running?_eq_none_of_exited? {e : Event} {pid : ProcessId} (h : e.exited? = some pid) :
    e.running? = none := by
  obtain ⟨r, o⟩ := e
  cases r with
  | poll =>
    cases o with
    | returned code => cases code <;> first | rfl | cases h
    | raised => rfl
    | never => rfl
  | _ => rfl

end Event

namespace Trace

/-- Processes that are started before any exit is seen have numbers of their own. -/
theorem nodup_started_of_fresh {children : List ProcessId} {es es' : Trace}
    (h : (es ++ es').fresh children = true) (hexits : es.exits = []) :
    es.started.Nodup ∧ ∀ pid ∈ es.started, pid ∉ children := by
  induction es generalizing children with
  | nil => simp [started]
  | cons e es ih =>
    simp only [exits, List.filterMap_cons] at hexits
    cases hx : e.exited? with
    | some pid => simp [hx] at hexits
    | none =>
      simp only [hx] at hexits
      simp only [List.cons_append, fresh, hx] at h
      rcases hs : e.spawned? with _ | _ | pid
      · simp only [hs] at h
        simpa [started, spawns, hs] using ih h hexits
      · simp only [hs] at h
        simpa [started, spawns, hs] using ih h hexits
      · simp only [hs, Bool.and_eq_true, Bool.not_eq_true', List.contains_eq_mem,
          decide_eq_false_iff_not] at h
        obtain ⟨hnodup, hdisjoint⟩ := ih h.2 hexits
        have hstarted : started (e :: es) = pid :: started es := by simp [started, spawns, hs]
        rw [hstarted]
        refine ⟨List.nodup_cons.2 ⟨fun hmem => hdisjoint pid hmem List.mem_cons_self, hnodup⟩, ?_⟩
        rintro q hq hchild
        rcases List.mem_cons.1 hq with rfl | hq
        · exact h.1 hchild
        · exact hdisjoint q hq (List.mem_cons_of_mem _ hchild)

theorem steady_right {gone : List ProcessId} {es es' : Trace}
    (h : (es ++ es').steady gone = true) : ∃ gone', es'.steady gone' = true := by
  induction es generalizing gone with
  | nil => exact ⟨gone, h⟩
  | cons e es ih =>
    simp only [List.cons_append, steady] at h
    split at h
    · exact ih (Bool.and_eq_true_iff.1 h).2
    all_goals exact ih h

/-- A process that is found running has not been seen to exit, if none was started since. -/
theorem not_mem_exits_of_steady {gone : List ProcessId} {es es' : Trace} {e : Event}
    {pid : ProcessId} (h : (es ++ e :: es').steady gone = true) (hspawns : es.spawns = [])
    (hpid : e.running? = some pid) : pid ∉ gone ∧ pid ∉ es.exits := by
  induction es generalizing gone with
  | nil =>
    simp only [List.nil_append, steady, hpid, Bool.and_eq_true, Bool.not_eq_true',
      List.contains_eq_mem, decide_eq_false_iff_not] at h
    exact ⟨h.1, by simp⟩
  | cons a es ih =>
    simp only [spawns, List.filterMap_cons] at hspawns
    have hs : a.spawned? = none := by
      cases hs : a.spawned? with
      | none => rfl
      | some p => simp [hs] at hspawns
    simp only [hs] at hspawns
    simp only [List.cons_append, steady, hs] at h
    cases hx : a.exited? with
    | none =>
      have hexits : exits (a :: es) = exits es := by simp [exits, hx]
      rw [hexits]
      cases hr : a.running? with
      | none =>
        simp only [hr, hx] at h
        exact ih h hspawns
      | some q =>
        simp only [hr, Bool.and_eq_true] at h
        exact ih h.2 hspawns
    | some q =>
      have hexits : exits (a :: es) = q :: exits es := by simp [exits, hx]
      rw [hexits]
      simp only [Event.running?_eq_none_of_exited? hx, hx] at h
      obtain ⟨hgone, hes⟩ := ih h hspawns
      simp only [List.mem_cons, not_or] at hgone ⊢
      exact ⟨hgone.2, hgone.1, hes⟩

end Trace

end LineShell
