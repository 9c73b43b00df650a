import LineShell.Proofs.Drain

namespace LineShell

/-!
# Leaving processes to the registry

* `Detached` — the events of leaving the processes that still run to the registry;
* `detach_ensures` — that a run of `Shell.detach` has just these events;
* `Detached.list_eq` — the registry grows at its end only, `Detached.either` — each process has been
  seen to exit, or else is a job.
-/

variable {σ : Type} {k : Kernel σ} {s : Session}

namespace Shell

/-! ### Registering -/

theorem register_ensures (job : Job) (announce : Bool) :
    Ensures k (register job announce) s fun _ s' es =>
      s' = { s with jobs := s.jobs.register job } ∧ es.Aside := by
  refine .modifySession_bind (.ask_bind (fun _ => ?_) (fun f => ?_) ?_)
  · show Ensures k (if announce then _ else _) _ _
    cases announce with
    | true => exact .ask fun _ => ⟨rfl, by simp [Request.isAside]⟩
    | false => exact .pure ⟨rfl, by simp [Request.isAside]⟩
  · exact ⟨rfl, by simp [Request.isAside]⟩
  · exact ⟨rfl, by simp [Request.isAside]⟩

/-- The events of leaving the processes that still run to the registry. -/
inductive Detached : List Stage → Jobs → Jobs → Trace → Prop
  | nil (jobs : Jobs) : Detached [] jobs jobs []
  | missing {command : Command} {stages : List Stage} {jobs jobs' : Jobs} {es : Trace} :
    Detached stages jobs jobs' es → Detached (⟨command, none⟩ :: stages) jobs jobs' es
  | exited {command : Command} {pid : ProcessId} {code : Int} {stages : List Stage}
      {jobs jobs' : Jobs} {es : Trace} : Detached stages jobs jobs' es →
    Detached (⟨command, some pid⟩ :: stages) jobs jobs' (⟨.poll pid, .returned (some code)⟩ :: es)
  | left {command : Command} {pid : ProcessId} {stages : List Stage} {jobs jobs' : Jobs}
      {es es' : Trace} : es.Aside →
    Detached stages (jobs.register ⟨pid, command.text, false⟩) jobs' es' →
    Detached (⟨command, some pid⟩ :: stages) jobs jobs'
      (⟨.poll pid, .returned none⟩ :: (es ++ es'))

theorem detach_ensures (stages : List Stage) :
    Ensures k (detach stages) s fun o s' es =>
      ∀ a, o = .returned a → Detached stages s.jobs s'.jobs es := by
  induction stages generalizing s with
  | nil => exact .pure fun _ _ => .nil _
  | cons stage stages ih =>
    obtain ⟨command, pid⟩ := stage
    cases pid with
    | none => exact (ih (s := s)).mono fun o s' es h a ha => .missing (h a ha)
    | some pid =>
      refine Ensures.bind (Q := fun o s' es => o ≠ .returned () ∨
        (s' = s ∧ ∃ code, es = [⟨.poll pid, .returned (some code)⟩]) ∨
        ∃ es' : Trace, es = ⟨.poll pid, .returned none⟩ :: es' ∧ es'.Aside ∧
          s' = { s with jobs := s.jobs.register ⟨pid, command.text, false⟩ }) ?_ ?_
        (fun _ _ _ _ => nofun) fun _ _ _ => nofun
      · refine .ask_bind (fun code => ?_) (fun _ => .inl nofun) (.inl nofun)
        cases code with
        | some code => exact .pure (.inr (.inl ⟨rfl, code, rfl⟩))
        | none =>
          exact (register_ensures _ _).mono fun o s' es h => .inr (.inr ⟨es, rfl, h.2, h.1⟩)
      · rintro _ s' es (h | ⟨rfl, code, rfl⟩ | ⟨es', rfl, haside, rfl⟩)
        · exact absurd rfl h
        · exact (ih (s := s')).mono fun o s'' es h a ha => .exited (h a ha)
        · exact ih.mono fun o s'' es h a ha => .left haside (h a ha)

theorem Detached.spawns {stages : List Stage} {jobs jobs' : Jobs} {es : Trace}
    (h : Detached stages jobs jobs' es) : es.spawns = [] := by
  induction h with
  | nil => rfl
  | missing _ ih => exact ih
  | exited _ ih => exact ih
  | left haside _ ih =>
    show Trace.spawns (_ ++ _) = []
    rw [Trace.spawns_append, Trace.spawns_of_aside haside, ih, List.nil_append]

theorem Detached.exits_subset {stages : List Stage} {jobs jobs' : Jobs} {es : Trace}
    (h : Detached stages jobs jobs' es) : ∀ pid ∈ es.exits, pid ∈ pidsOf stages := by
  induction h with
  | nil => simp
  | missing _ ih => exact ih
  | exited _ ih =>
    intro q hq
    rcases List.mem_cons.1 (hq : q ∈ _ :: Trace.exits _) with rfl | hq
    · exact List.mem_cons_self
    · exact List.mem_cons_of_mem _ (ih q hq)
  | left haside _ ih =>
    intro q hq
    have hq : q ∈ Trace.exits (_ ++ _) := hq
    rw [Trace.exits_append, Trace.exits_of_aside haside, List.nil_append] at hq
    exact List.mem_cons_of_mem _ (ih q hq)

/-- Of a process that is not a job, nothing is changed by registering another. -/
theorem contains_register_of_ne {jobs : Jobs} {job : Job} {pid : ProcessId} (h : pid ≠ job.pid)
    (hpid : jobs.contains pid = false) : (jobs.register job).contains pid = false := by
  rw [Jobs.contains_register, hpid, Bool.or_false, beq_eq_false_iff_ne]
  exact h

/-- The registry grows at its end only, and by processes of the stages. -/
theorem Detached.list_eq {stages : List Stage} {jobs jobs' : Jobs} {es : Trace}
    (h : Detached stages jobs jobs' es) (hnodup : (pidsOf stages).Nodup)
    (hnew : ∀ pid ∈ pidsOf stages, jobs.contains pid = false) :
    ∃ new, jobs'.list = jobs.list ++ new ∧ ∀ j ∈ new, j.pid ∈ pidsOf stages := by
  induction h with
  | nil => exact ⟨[], by simp⟩
  | missing _ ih => exact ih hnodup hnew
  | exited _ ih =>
    obtain ⟨new, hlist, hmem⟩ := ih (List.nodup_cons.1 hnodup).2
      fun pid hpid => hnew pid (List.mem_cons_of_mem _ hpid)
    exact ⟨new, hlist, fun j hj => List.mem_cons_of_mem _ (hmem j hj)⟩
  | @left command pid _ jobs _ _ _ _ _ ih =>
    obtain ⟨hpid, hnodup⟩ := List.nodup_cons.1 hnodup
    obtain ⟨new, hlist, hmem⟩ := ih hnodup fun q hq => contains_register_of_ne
      (by rintro rfl; exact hpid hq) (hnew q (List.mem_cons_of_mem _ hq))
    refine ⟨⟨pid, command.text, false⟩ :: new, ?_, ?_⟩
    · rw [hlist, Jobs.list_register_of_not_contains (hnew pid List.mem_cons_self),
        List.append_assoc, List.singleton_append]
    · rintro j hj
      rcases List.mem_cons.1 hj with rfl | hj
      · exact List.mem_cons_self
      · exact List.mem_cons_of_mem _ (hmem j hj)

/-- **Detaching.** Each process of the stages has been seen to exit, or else has been found
running and is a job. -/
theorem Detached.either {stages : List Stage} {jobs jobs' : Jobs} {es : Trace}
    (h : Detached stages jobs jobs' es) (hnodup : (pidsOf stages).Nodup)
    (hnew : ∀ pid ∈ pidsOf stages, jobs.contains pid = false) :
    ∀ pid ∈ pidsOf stages, (pid ∈ es.exits ∧ jobs'.contains pid = false) ∨
      (pid ∉ es.exits ∧ jobs'.contains pid = true ∧
        ∃ pre e post, es = pre ++ e :: post ∧ e.running? = some pid) := by
  induction h with
  | nil => simp [pidsOf]
  | missing _ ih => exact ih hnodup hnew
  | @exited command pid code stages jobs jobs' es hd ih =>
    obtain ⟨hpid, hnd⟩ := List.nodup_cons.1 hnodup
    have hnew' : ∀ q ∈ pidsOf stages, jobs.contains q = false :=
      fun q hq => hnew q (List.mem_cons_of_mem _ hq)
    intro q hq
    rcases List.mem_cons.1 hq with rfl | hq
    · -- nobody has registered the process, since its number is no other's
      obtain ⟨new, hlist, hmem⟩ := hd.list_eq hnd hnew'
      refine .inl ⟨List.mem_cons_self, ?_⟩
      rw [Bool.eq_false_iff, ne_eq, Jobs.contains_iff, hlist]
      rintro ⟨j, hj, rfl⟩
      rcases List.mem_append.1 hj with hj | hj
      · have := hnew j.pid List.mem_cons_self
        rw [Bool.eq_false_iff, ne_eq, Jobs.contains_iff] at this
        exact this ⟨j, hj, rfl⟩
      · exact hpid (hmem j hj)
    · have hne : q ≠ pid := fun h => hpid (h ▸ hq)
      rcases ih hnd hnew' q hq with ⟨hx, hj⟩ | ⟨hx, hj, pre, e, post, rfl, hr⟩
      · exact .inl ⟨List.mem_cons_of_mem _ hx, hj⟩
      · refine .inr ⟨fun h => ?_, hj, _ :: pre, e, post, rfl, hr⟩
        exact (List.mem_cons.1 (h : q ∈ pid :: Trace.exits _)).elim hne hx
  | @left command pid stages jobs jobs' es es' haside hd ih =>
    obtain ⟨hpid, hnd⟩ := List.nodup_cons.1 hnodup
    have hnew' : ∀ q ∈ pidsOf stages,
        (jobs.register ⟨pid, command.text, false⟩).contains q = false := fun q hq =>
      contains_register_of_ne (by rintro rfl; exact hpid hq) (hnew q (List.mem_cons_of_mem _ hq))
    have hexits : Trace.exits (⟨.poll pid, .returned none⟩ :: (es ++ es')) = es'.exits := by
      show Trace.exits (es ++ es') = es'.exits
      rw [Trace.exits_append, Trace.exits_of_aside haside, List.nil_append]
    intro q hq
    rw [hexits]
    rcases List.mem_cons.1 hq with rfl | hq
    · obtain ⟨new, hlist, -⟩ := hd.list_eq hnd hnew'
      refine .inr ⟨fun h => hpid (hd.exits_subset _ h), ?_, [], _, _, rfl, rfl⟩
      rw [Jobs.contains_iff, hlist, Jobs.list_register_of_not_contains
        (hnew _ List.mem_cons_self)]
      exact ⟨⟨q, command.text, false⟩, by simp, rfl⟩
    · rcases ih hnd hnew' q hq with h | ⟨hx, hj, pre, e, post, rfl, hr⟩
      · exact .inl h
      · exact .inr ⟨hx, hj, ⟨.poll pid, .returned none⟩ :: (es ++ pre), e, post, by simp, hr⟩

end Shell

end LineShell
