import LineShell.Proofs.Containment
import LineShell.Proofs.Orphans

namespace LineShell

/-!
# Looking after jobs

* `Looks` — looks at processes, `Looks.finished`, `Looks.running` — what they tell of jobs;
* `Trace.doneLines` — the lines that tell of the end of a job;
* `Looked`, `Scanned`, `Reaps` — the events of taking out the jobs that have ended: of one job, as
  far as it has come, and as a whole;
* `reap_scans`, `terminateAll_clears`, `register_discreet` — what is done to jobs, and what is told;
* `reap_faithful`, `terminateAll_faithful` — that it returns just where all its requests do.
-/

variable {σ α β : Type} {k : Kernel σ} {s : Session}

/-! ### Looks and lines -/

/-- Looks at processes, each one with the code that the process had exited with by then. -/
abbrev Looks := List (ProcessId × Option Int)

/-- The process that a request has looked at, and the code that it had exited with by then. -/
def Event.look? : Event → Option (ProcessId × Option Int)
  | ⟨.poll pid, .returned code⟩ => some (pid, code)
  | _ => none

/-- The text that a request has written to the console. -/
def Event.printed? : Event → Option String
  | ⟨.print text, _⟩ => some text
  | _ => none

/-- Whether a text starts with a number in brackets that is said to be done. -/
def isDoneLine (text : String) : Bool :=
  "] done: ".toList.isPrefixOf (text.toList.dropWhile (· != ']'))

/-- The line that tells of the end of a job. -/
def doneLine (f : Job × Int) : String :=
  "[" ++ toString f.1.pid ++ "] done: " ++ f.1.text ++ " (exit " ++ toString f.2 ++ ")" ++ "\n"

/-- What is told of jobs that have ended: nothing, if nobody listens or the job is a quiet one. -/
def announcements (announce : Bool) (ended : List (Job × Int)) : List String :=
  (ended.filter fun f => announce && !f.1.quiet).map doneLine

namespace Trace

/-- The looks at processes that have been answered, in order. -/
def looks (es : Trace) : Looks := es.filterMap Event.look?

/-- What was written to the console as text, in order. -/
def printed (es : Trace) : List String := es.filterMap Event.printed?

/-- The lines among that that tell of the end of a job. -/
def doneLines (es : Trace) : List String := es.printed.filter isDoneLine

variable {es es' : Trace}

theorem looks_append : looks (es ++ es') = es.looks ++ es'.looks := List.filterMap_append

theorem printed_append : printed (es ++ es') = es.printed ++ es'.printed := List.filterMap_append

theorem doneLines_append : doneLines (es ++ es') = es.doneLines ++ es'.doneLines := by
  rw [doneLines, printed_append, List.filter_append]
  rfl

/-- What was seen of a process was seen at some moment. -/
theorem moment_of_mem_looks {out out' : σ} (h : k.Follows out es out') {pid : ProcessId}
    {code : Option Int} (hlook : (pid, code) ∈ es.looks) :
    ∃ (before after : Trace) (mid mid' : σ), es = before ++ ⟨.poll pid, .returned code⟩ :: after ∧
      k.Follows out before mid ∧ k.answer (.poll pid) mid = (.returned code, mid') := by
  obtain ⟨e, he, hsome⟩ := List.mem_filterMap.1 hlook
  have heq : e = ⟨.poll pid, .returned code⟩ := by
    obtain ⟨r, o⟩ := e
    cases r with
    | poll pid' =>
      cases o with
      | returned code' =>
        cases hsome
        rfl
      | _ => cases hsome
    | _ => cases hsome
  subst heq
  obtain ⟨before, after, rfl⟩ := List.append_of_mem he
  obtain ⟨mid, hbefore, mid', hanswer, -⟩ := Kernel.follows_append.1 h
  exact ⟨before, after, mid, mid', rfl, hbefore, hanswer⟩

end Trace

/-- No number has a bracket in it, so a text is judged by what follows the number. -/
theorem isDoneLine_numbered {lead : String} (hlead : lead.toList.all (· != ']') = true)
    (pid : Int) (rest : String) :
    isDoneLine (lead ++ (toString pid ++ rest)) = isDoneLine rest := by
  have hdigits : ∀ n : Nat, ']' ∉ (Nat.repr n).toList := by
    intro n hmem
    rw [Nat.repr_eq_ofList_toDigits, String.toList_ofList] at hmem
    exact absurd (Nat.isDigit_of_mem_toDigits (by decide) (by decide) hmem) (by decide)
  have hnumber : ∀ c ∈ (toString pid).toList, (c != ']') = true := by
    refine fun c hc => bne_iff_ne.2 ?_
    rintro rfl
    change ']' ∈ (Int.repr pid).toList at hc
    rw [Int.repr_eq_if] at hc
    split at hc
    · exact hdigits _ hc
    · rw [String.toList_append, List.mem_append] at hc
      exact hc.elim (by decide) (hdigits _)
  rw [isDoneLine, String.toList_append, String.toList_append,
    List.dropWhile_append_of_pos (List.all_eq_true.1 hlead), List.dropWhile_append_of_pos hnumber]
  rfl

theorem isDoneLine_doneLine (f : Job × Int) : isDoneLine (doneLine f) = true := by
  simp only [doneLine, String.append_assoc]
  rw [isDoneLine_numbered (by decide), isDoneLine, String.toList_append]
  rfl

/-- What is said of a job that is put in tells of no end. -/
theorem not_isDoneLine_started (job : Job) : isDoneLine
    ("[" ++ toString job.pid ++ "] started in background: " ++ job.text ++ "\n") = false := by
  simp only [String.append_assoc]
  rw [isDoneLine_numbered (by decide), isDoneLine, String.toList_append]
  rfl

/-- What is said of a job that is asked to end tells of no end. -/
theorem not_isDoneLine_terminated (job : Job) : isDoneLine
    ("Terminated background job [" ++ toString job.pid ++ "]" ++ "\n") = false := by
  rw [String.append_assoc, String.append_assoc, isDoneLine_numbered (by decide)]
  rfl

/-! ### What looks tell of jobs -/

namespace Looks

variable {looks looks' : Looks} {job : Job} {jobs : List Job}

/-- The code of a process that had exited when it was first looked at. -/
def found (looks : Looks) (pid : ProcessId) : Option Int :=
  (looks.lookup pid).join

/-- The jobs whose processes had exited, with the codes. -/
def finished (looks : Looks) (jobs : List Job) : List (Job × Int) :=
  jobs.filterMap fun job => (looks.found job.pid).map (job, ·)

/-- The jobs whose processes had not exited, as far as anybody has looked. -/
def running (looks : Looks) (jobs : List Job) : List Job :=
  jobs.filter fun job => (looks.found job.pid).isNone

theorem found_cons_self (pid : ProcessId) (code : Option Int) :
    found ((pid, code) :: looks) pid = code := by simp [found]

theorem found_cons_of_ne {pid other : ProcessId} (h : other ≠ pid) (code : Option Int) :
    found ((pid, code) :: looks) other = looks.found other := by
  have hne : (other == pid) = false := beq_eq_false_iff_ne.2 h
  rw [found, List.lookup_cons, hne]
  rfl

theorem found_of_not_mem {pid : ProcessId} (h : pid ∉ looks.map Prod.fst) :
    looks.found pid = none := by
  induction looks with
  | nil => rfl
  | cons look looks ih =>
    rw [List.map_cons, List.mem_cons, not_or] at h
    exact (found_cons_of_ne h.1 look.2).trans (ih h.2)

/-- Later looks change nothing of what the first one has found. -/
theorem found_append_of_mem {pid : ProcessId} (h : pid ∈ looks.map Prod.fst) :
    found (looks ++ looks') pid = looks.found pid := by
  induction looks with
  | nil => cases h
  | cons look looks ih =>
    by_cases heq : pid = look.1
    · subst heq
      rw [List.cons_append, found_cons_self look.1 look.2, found_cons_self look.1 look.2]
    · rw [List.cons_append, found_cons_of_ne heq look.2, found_cons_of_ne heq look.2]
      exact ih ((List.mem_cons.1 h).resolve_left heq)

theorem running_nil (jobs : List Job) : running [] jobs = jobs :=
  List.filter_eq_self.2 fun _ _ => rfl

/-- Jobs whose processes are looked at one after another are told apart by their numbers. -/
theorem finished_cons (h : job.pid ∉ jobs.map Job.pid) (code : Option Int) :
    finished ((job.pid, code) :: looks) (job :: jobs) =
      (code.map (job, ·)).toList ++ looks.finished jobs := by
  have hrest : finished ((job.pid, code) :: looks) jobs = looks.finished jobs := by
    refine List.filterMap_congr fun other hother => ?_
    rw [found_cons_of_ne]
    rintro heq
    exact h (heq ▸ List.mem_map_of_mem hother)
  have hsplit : finished ((job.pid, code) :: looks) (job :: jobs) =
      ((found ((job.pid, code) :: looks) job.pid).map (job, ·)).toList ++
        finished ((job.pid, code) :: looks) jobs := by
    rw [finished, List.filterMap_cons]
    cases (found ((job.pid, code) :: looks) job.pid) <;> rfl
  rw [hsplit, hrest, found_cons_self]

theorem running_cons (h : job.pid ∉ looks.map Prod.fst) (code : Option Int) :
    running ((job.pid, code) :: looks) jobs =
      looks.running (running [(job.pid, code)] jobs) := by
  rw [running, running, running, List.filter_filter]
  refine List.filter_congr fun other _ => ?_
  by_cases heq : other.pid = job.pid
  · rw [heq, found_cons_self, found_cons_self, found_of_not_mem h]
    rfl
  · rw [found_cons_of_ne heq, found_cons_of_ne heq]
    simp [found]

theorem running_append (h : ∀ job ∈ jobs, job.pid ∈ looks.map Prod.fst) :
    running (looks ++ looks') jobs = looks.running jobs :=
  List.filter_congr fun job hjob => by rw [found_append_of_mem (h job hjob)]

/-- Each job has either ended or not. -/
theorem finished_append_running_perm (looks : Looks) (jobs : List Job) :
    ((looks.finished jobs).map Prod.fst ++ looks.running jobs).Perm jobs := by
  have hended : (looks.finished jobs).map Prod.fst =
      jobs.filter fun job => (looks.found job.pid).isSome := by
    rw [finished, List.map_filterMap, ← List.filterMap_eq_filter]
    refine List.filterMap_congr fun job _ => ?_
    cases hfound : looks.found job.pid <;> simp [Option.guard, hfound]
  have hleft : looks.running jobs = jobs.filter fun job => !(looks.found job.pid).isSome :=
    List.filter_congr fun job _ => by cases looks.found job.pid <;> rfl
  rw [hended, hleft]
  exact List.filter_append_perm _ _

end Looks

/-! ### Taking out the jobs that have ended -/

/-- What is answered of a job that has ended. -/
def Reaped.of (f : Job × Int) : Reaped := ⟨f.1.pid, f.1.text, f.2⟩

/-- A job has been looked at, and taken out if its process had exited. Nothing has been told of
others. -/
structure Looked (announce : Bool) (job : Job) (code : Option Int) (jobs jobs' : Jobs)
    (es : Trace) : Prop where
  looks : es.looks = [(job.pid, code)]
  jobs : jobs'.list = Looks.running [(job.pid, code)] jobs.list
  printed : es.printed <+: announcements announce (code.map (job, ·)).toList

/-- Jobs have been looked at one after another, perhaps not all of them. Those that had ended have
been taken out, and nothing has been told of others. -/
structure Scanned (announce : Bool) (scanned : List Job) (jobs jobs' : Jobs) (es : Trace) :
    Prop where
  looks : es.looks.map Prod.fst <+: scanned.map Job.pid
  jobs : jobs'.list = es.looks.running jobs.list
  printed : es.printed <+: announcements announce (es.looks.finished scanned)

/-- All jobs have been looked at, and those that had ended are the answer. All that was to be told
of them has been told. -/
structure Reaps (announce : Bool) (scanned : List Job) (es : Trace) (answer : List Reaped) :
    Prop where
  looks : es.looks.map Prod.fst = scanned.map Job.pid
  answer : answer = (es.looks.finished scanned).map Reaped.of
  told : es.doneLines = announcements announce (es.looks.finished scanned)

theorem announcements_append (announce : Bool) (l l' : List (Job × Int)) :
    announcements announce (l ++ l') = announcements announce l ++ announcements announce l' := by
  rw [announcements, List.filter_append, List.map_append]
  rfl

/-- Where nobody listens nothing is told. -/
theorem announcements_false (l : List (Job × Int)) : announcements false l = [] := by
  simp [announcements]

/-- All that is told of jobs that have ended are lines that tell of an end. -/
theorem filter_announcements (announce : Bool) (l : List (Job × Int)) :
    (announcements announce l).filter isDoneLine = announcements announce l := by
  refine List.filter_eq_self.2 fun t ht => ?_
  obtain ⟨f, -, rfl⟩ := List.mem_map.1 ht
  exact isDoneLine_doneLine f

section Scans

variable {announce : Bool} {job : Job} {list : List Job} {jobs jobs₁ jobs' : Jobs} {es es' : Trace}
  {code : Option Int}

theorem announcements_cons (announce : Bool) (h : job.pid ∉ list.map Job.pid) (code : Option Int)
    (looks : Looks) :
    announcements announce (Looks.finished ((job.pid, code) :: looks) (job :: list)) =
      announcements announce (code.map (job, ·)).toList ++
        announcements announce (looks.finished list) := by
  rw [Looks.finished_cons h, announcements_append]

/-- Nothing has been looked at. -/
theorem Scanned.unseen (hlooks : es.looks = []) (hprinted : es.printed = []) :
    Scanned announce list jobs jobs es := by
  refine ⟨?_, ?_, ?_⟩
  · rw [hlooks]
    exact List.nil_prefix
  · rw [hlooks, Looks.running_nil]
  · rw [hprinted]
    exact List.nil_prefix

/-- The first job has been looked at, and no other one. -/
theorem Looked.scanned (h : Looked announce job code jobs jobs' es)
    (hpid : job.pid ∉ list.map Job.pid) : Scanned announce (job :: list) jobs jobs' es := by
  refine ⟨?_, ?_, ?_⟩
  · rw [h.looks]
    exact List.cons_prefix_cons.2 ⟨rfl, List.nil_prefix⟩
  · rw [h.looks, h.jobs]
  · rw [h.looks, announcements_cons announce hpid]
    exact h.printed.trans (List.prefix_append _ _)

theorem Looked.looks_append (h : Looked announce job code jobs jobs' es) (es' : Trace) :
    Trace.looks (es ++ es') = (job.pid, code) :: es'.looks := by
  rw [Trace.looks_append, h.looks]
  rfl

/-- The first job has been looked at and told of, and then others. -/
theorem Scanned.cons (h' : Scanned announce list jobs₁ jobs' es')
    (h : Looked announce job code jobs jobs₁ es) (hpid : job.pid ∉ list.map Job.pid)
    (hprinted : es.printed = announcements announce (code.map (job, ·)).toList) :
    Scanned announce (job :: list) jobs jobs' (es ++ es') := by
  have hnot : job.pid ∉ es'.looks.map Prod.fst := fun hmem => hpid (h'.looks.subset hmem)
  refine ⟨?_, ?_, ?_⟩
  · rw [h.looks_append]
    exact List.cons_prefix_cons.2 ⟨rfl, h'.looks⟩
  · rw [h.looks_append, Looks.running_cons hnot, ← h.jobs]
    exact h'.jobs
  · rw [h.looks_append, announcements_cons announce hpid, Trace.printed_append, hprinted]
    exact (List.prefix_append_right_inj _).2 h'.printed

theorem Reaps.cons {rest : List (Option Reaped)} (h' : Reaps announce list es' (rest.filterMap id))
    (h : Looked announce job code jobs jobs₁ es) (hpid : job.pid ∉ list.map Job.pid)
    (hprinted : es.printed = announcements announce (code.map (job, ·)).toList) :
    Reaps announce (job :: list) (es ++ es')
      (((code.map (job, ·)).map Reaped.of :: rest).filterMap id) := by
  refine ⟨?_, ?_, ?_⟩
  · rw [h.looks_append, List.map_cons, h'.looks]
    rfl
  · rw [h.looks_append, Looks.finished_cons hpid, List.map_append, ← h'.answer]
    cases code <;> rfl
  · rw [h.looks_append, announcements_cons announce hpid, Trace.doneLines_append, h'.told,
      Trace.doneLines, hprinted, filter_announcements]

end Scans

namespace Shell

/-- A job is looked at once. If its process has exited, it is taken out and told of. -/
theorem reapJob_scans (announce : Bool) (job : Job) :
    Ensures k (reapJob announce job) s fun o s' es =>
      (es.looks = [] ∧ es.printed = [] ∧ s' = s ∧ ∀ r, o ≠ .returned r) ∨
      ∃ code : Option Int, Looked announce job code s.jobs s'.jobs es ∧
        ∀ r, o = .returned r → r = (code.map (job, ·)).map Reaped.of ∧
          es.printed = announcements announce (code.map (job, ·)).toList := by
  refine .ask_bind (fun code => ?_) (fun _ => .inl ⟨rfl, rfl, rfl, nofun⟩)
    (.inl ⟨rfl, rfl, rfl, nofun⟩)
  cases code with
  | none =>
    refine .pure (.inr ⟨none, ⟨rfl, ?_, List.nil_prefix⟩, fun r hr => ?_⟩)
    · refine (List.filter_eq_self.2 fun other _ => ?_).symm
      by_cases heq : other.pid = job.pid
      · rw [heq, Looks.found_cons_self]
        rfl
      · rw [Looks.found_cons_of_ne heq]
        rfl
    · cases hr
      exact ⟨rfl, rfl⟩
  | some code =>
    have hjobs : (s.jobs.remove job.pid).list =
        Looks.running [(job.pid, some code)] s.jobs.list := by
      refine List.filter_congr fun other _ => ?_
      by_cases heq : other.pid = job.pid
      · rw [heq, Looks.found_cons_self]
        simp
      · rw [Looks.found_cons_of_ne heq]
        simpa [Looks.found] using heq
    refine .modifySession_bind (.ask_bind (fun _ => ?_) (fun _ => ?_) ?_)
    · show Ensures k (if announce && !job.quiet then printLine _ >>= fun _ => pure _ else pure _) _
        _
      have hline : announcements announce [(job, code)] =
          if announce && !job.quiet then [doneLine (job, code)] else [] := by
        rw [announcements, List.filter_cons]
        split <;> rfl
      cases hloud : announce && !job.quiet with
      | true =>
        rw [hloud, if_pos rfl] at hline
        have hprinted : [doneLine (job, code)] <+: announcements announce [(job, code)] :=
          hline ▸ List.prefix_rfl
        refine .ask_bind (fun _ => .pure (.inr ⟨some code, ⟨rfl, hjobs, hprinted⟩, fun r hr => ?_⟩))
          (fun _ => .inr ⟨some code, ⟨rfl, hjobs, hprinted⟩, nofun⟩)
          (.inr ⟨some code, ⟨rfl, hjobs, hprinted⟩, nofun⟩)
        cases hr
        exact ⟨rfl, hline.symm⟩
      | false =>
        rw [hloud, if_neg (by simp)] at hline
        refine .pure (.inr ⟨some code, ⟨rfl, hjobs, List.nil_prefix⟩, fun r hr => ?_⟩)
        cases hr
        exact ⟨rfl, hline.symm⟩
    · exact .inr ⟨some code, ⟨rfl, hjobs, List.nil_prefix⟩, nofun⟩
    · exact .inr ⟨some code, ⟨rfl, hjobs, List.nil_prefix⟩, nofun⟩

/-- Jobs of different processes are looked at one after another. -/
theorem reapJobs_scans (announce : Bool) (list : List Job) (hnodup : (list.map Job.pid).Nodup) :
    Ensures k (list.mapM (reapJob announce)) s fun o s' es =>
      Scanned announce list s.jobs s'.jobs es ∧
        ∀ r, o = .returned r → Reaps announce list es (r.filterMap id) := by
  induction list generalizing s with
  | nil =>
    refine .pure ⟨⟨List.nil_prefix, (Looks.running_nil _).symm, List.nil_prefix⟩, fun r hr => ?_⟩
    cases hr
    exact ⟨rfl, rfl, rfl⟩
  | cons job list ih =>
    obtain ⟨hpid, hnodup⟩ := List.nodup_cons.1 hnodup
    rw [List.mapM_cons]
    refine (reapJob_scans announce job).bind ?_ ?_ ?_
    · rintro reaped s₁ es (⟨-, -, -, hnot⟩ | ⟨code, hlooked, hreturned⟩)
      · exact absurd rfl (hnot reaped)
      · obtain ⟨rfl, hprinted⟩ := hreturned _ rfl
        have hcons : ∀ {jobs' : Jobs} {es' : Trace}, Scanned announce list s₁.jobs jobs' es' →
            Scanned announce (job :: list) s.jobs jobs' (es ++ es') := fun h =>
          h.cons hlooked hpid hprinted
        refine (ih hnodup).bind (fun rest s' es' h => .pure ⟨?_, ?_⟩)
          (fun _ _ _ h => ⟨hcons h.1, fun _ => nofun⟩) fun _ _ h => ⟨hcons h.1, fun _ => nofun⟩
        · rw [List.append_nil]
          exact hcons h.1
        · rintro _ ⟨⟩
          rw [List.append_nil]
          exact (h.2 rest rfl).cons hlooked hpid hprinted
    · rintro f s' es (⟨hlooks, hprinted, rfl, -⟩ | ⟨code, hlooked, -⟩)
      · exact ⟨.unseen hlooks hprinted, fun _ => nofun⟩
      · exact ⟨hlooked.scanned hpid, fun _ => nofun⟩
    · rintro s' es (⟨hlooks, hprinted, rfl, -⟩ | ⟨code, hlooked, -⟩)
      · exact ⟨.unseen hlooks hprinted, fun _ => nofun⟩
      · exact ⟨hlooked.scanned hpid, fun _ => nofun⟩

theorem reap_scans (announce : Bool) (hnodup : s.jobs.pids.Nodup) :
    Ensures k (reap announce) s fun o s' es => Scanned announce s.jobs.list s.jobs s'.jobs es ∧
      ∀ r, o = .returned r → Reaps announce s.jobs.list es r := by
  refine .session_bind ((reapJobs_scans announce s.jobs.list hnodup).bind
    (fun reaped s' es h => .pure ⟨?_, ?_⟩)
    (fun _ _ _ h => ⟨h.1, fun _ => nofun⟩) fun _ _ h => ⟨h.1, fun _ => nofun⟩)
  · rw [List.append_nil]
    exact h.1
  · rintro _ ⟨⟩
    rw [List.append_nil]
    exact h.2 reaped rfl

end Shell

/-! ### Ending all jobs -/

/-- Whether a request tells of no end of a job. -/
def Request.isDiscreet : Request → Bool
  | .print text => !isDoneLine text
  | _ => true

theorem Trace.doneLines_of_discreet {es : Trace} (h : es.Only Request.isDiscreet) :
    es.doneLines = [] := by
  refine List.filter_eq_nil_iff.2 fun text htext => ?_
  obtain ⟨e, he, hprinted⟩ := List.mem_filterMap.1 htext
  have hdiscreet := h e he
  obtain ⟨r, o⟩ := e
  cases r with
  | print text' =>
    cases hprinted
    simpa [Request.isDiscreet] using hdiscreet
  | _ => cases hprinted

theorem Asks.mapM {p : Request → Bool} {l : List α} {g : α → Shell (σ × Trace) β}
    (hg : ∀ a, Asks k p (g a)) : Asks k p (l.mapM g) := by
  induction l with
  | nil => exact .pure []
  | cons a l ih =>
    rw [List.mapM_cons]
    exact (hg a).bind fun _ => ih.bind fun _ => .pure _

/-- A discreet run that gives up all jobs if it returns, and else leaves the session as it is. -/
def GivesUp (k : Kernel σ) (x : Shell (σ × Trace) α) : Prop :=
  ∀ s, Ensures k x s fun o s' es => es.Only Request.isDiscreet ∧
    (∀ a, o = .returned a → s'.jobs = {}) ∧ ((∀ a, o ≠ .returned a) → s' = s)

namespace GivesUp

theorem asks_bind {x : Shell (σ × Trace) α} {f : α → Shell (σ × Trace) β}
    (hx : Asks k Request.isDiscreet x) (hf : ∀ a, GivesUp k (f a)) : GivesUp k (x >>= f) := by
  refine fun s => (hx s).bind ?_ (fun _ _ _ h => ⟨h.2, fun _ => nofun, fun _ => h.1⟩)
    fun _ _ h => ⟨h.2, fun _ => nofun, fun _ => h.1⟩
  rintro a s' es ⟨rfl, hes⟩
  exact (hf a s').mono fun _ _ _ h => ⟨Trace.only_append.2 ⟨hes, h.1⟩, h.2⟩

theorem session_bind {f : Session → Shell (σ × Trace) β} (h : ∀ s, GivesUp k (f s)) :
    GivesUp k (Shell.session >>= f) := fun s => .session_bind (h s s)

end GivesUp

namespace Shell

/-- Asking a job to end looks at its process first, and may be told or noted. -/
theorem terminateJob_asks {p : Request → Bool} {job : Job} (announce : Bool)
    (hpoll : p (.poll job.pid) = true) (hsignal : p (.terminate job.pid) = true)
    (htold : p (.print ("Terminated background job [" ++ toString job.pid ++ "]" ++ "\n")) = true)
    (hlog : ∀ record, p (.log record) = true) : Asks k p (terminateJob announce job) := by
  refine (Asks.ask hpoll).bind fun code => ?_
  cases code with
  | some code => exact .pure none
  | none =>
    refine (Asks.ask hsignal).bind fun delivery => ?_
    cases delivery with
    | delivered =>
      cases announce with
      | true => exact (Asks.ask htold).bind fun _ => .pure _
      | false => exact .pure _
    | gone => exact .pure none
    | denied => exact (Asks.ask (hlog _)).bind fun _ => .pure none

theorem modifyJobs_givesUp : GivesUp k (modifyJobs fun _ => {}) :=
  fun _ => .modifySession ⟨Trace.only_nil _, fun _ _ => rfl, fun h => absurd rfl (h ())⟩

/-- Ending all jobs tells of no end. The registry is empty afterwards, or else some of the jobs that
had ended have been taken out. -/
theorem terminateAll_clears (announce : Bool) (hnodup : s.jobs.pids.Nodup) :
    Ensures k (terminateAll announce) s fun o s' es => es.doneLines = [] ∧
      (∀ a, o = .returned a → s'.jobs = {}) ∧
        ((∀ a, o ≠ .returned a) → s'.jobs.list = es.looks.running s.jobs.list) := by
  have hquiet : ∀ {jobs' : Jobs} {es : Trace}, Scanned false s.jobs.list s.jobs jobs' es →
      es.doneLines = [] := fun h => by
    have hprinted := h.printed
    rw [announcements_false, List.prefix_nil] at hprinted
    rw [Trace.doneLines, hprinted]
    rfl
  refine (reap_scans false hnodup).bind ?_
    (fun _ _ _ h => ⟨hquiet h.1, fun _ => nofun, fun _ => h.1.jobs⟩)
    fun _ _ h => ⟨hquiet h.1, fun _ => nofun, fun _ => h.1.jobs⟩
  rintro reaped s₁ es ⟨hscanned, hreaps⟩
  have hjob : ∀ job, Asks k Request.isDiscreet (terminateJob announce job) := fun job =>
    terminateJob_asks announce rfl rfl
      (by rw [Request.isDiscreet, not_isDoneLine_terminated]; rfl) fun _ => rfl
  have hawait : ∀ job, Asks k Request.isDiscreet (awaitJob job) := fun job =>
    awaitJob_asks rfl fun _ => rfl
  refine Ensures.mono (GivesUp.session_bind (fun s =>
    .asks_bind (.mapM hjob) fun asked => .asks_bind (.ask rfl) fun alive =>
      .asks_bind (.forM fun _ => .ask rfl) fun _ => .session_bind fun s =>
        .asks_bind (.forM hawait) fun _ => modifyJobs_givesUp) s₁) ?_
  rintro o s' es' ⟨hdiscreet, hgone, hstays⟩
  refine ⟨?_, hgone, fun hnot => ?_⟩
  · rw [Trace.doneLines_append, hquiet hscanned, Trace.doneLines_of_discreet hdiscreet]
    rfl
  · -- all jobs had been looked at before the signals, so later looks are not the first ones
    have hall : ∀ job ∈ s.jobs.list, job.pid ∈ es.looks.map Prod.fst := fun job hjob => by
      rw [(hreaps reaped rfl).looks]
      exact List.mem_map_of_mem hjob
    rw [hstays hnot, Trace.looks_append, Looks.running_append hall]
    exact hscanned.jobs

/-- What is said of a job that is put in tells of no end. -/
theorem register_discreet (job : Job) (announce : Bool) :
    Ensures k (register job announce) s fun _ _ es => es.Only Request.isDiscreet := by
  have hlog : ∀ o, Trace.Only Request.isDiscreet [⟨.log ⟨.debug, .jobs,
      "background job " ++ toString job.pid ++ " registered: " ++ job.text⟩, o⟩] :=
    fun _ => Trace.only_cons.2 ⟨rfl, Trace.only_nil _⟩
  refine .modifySession_bind (.ask_bind (fun _ => ?_) (fun _ => hlog _) (hlog _))
  cases announce with
  | true =>
    refine .ask fun _ => Trace.only_cons.2 ⟨rfl, Trace.only_cons.2 ⟨?_, Trace.only_nil _⟩⟩
    rw [Request.isDiscreet, not_isDoneLine_started]
    rfl
  | false => exact .pure (hlog _)

/-! ### Calls return just where their requests do -/

theorem reapJob_faithful (announce : Bool) (job : Job) : Faithful k (reapJob announce job) := by
  refine .bind (.ask _) fun code => ?_
  cases code with
  | none => exact .pure none
  | some code =>
    refine .modifySession_bind (.bind (.ask _) fun _ => ?_)
    show Faithful k (if announce && !job.quiet then printLine _ >>= fun _ => pure _ else pure _)
    split
    · exact .bind (.ask _) fun _ => .pure _
    · exact .pure _

theorem reap_faithful (announce : Bool) : Faithful k (reap announce) :=
  .session_bind fun _ => .bind (.mapM (reapJob_faithful announce)) fun _ => .pure _

theorem terminateJob_faithful (announce : Bool) (job : Job) :
    Faithful k (terminateJob announce job) := by
  refine .bind (.ask _) fun code => ?_
  cases code with
  | some code => exact .pure none
  | none =>
    refine .bind (.ask _) fun delivery => ?_
    cases delivery with
    | delivered =>
      cases announce with
      | true => exact .bind (.ask _) fun _ => .pure _
      | false => exact .pure _
    | gone => exact .pure none
    | denied => exact .bind (.ask _) fun _ => .pure none

theorem awaitJob_faithful (job : Job) : Faithful k (awaitJob job) := by
  refine .bind (.ask _) fun code => ?_
  cases code with
  | none => exact .ask _
  | some code => exact .pure ()

theorem terminateAll_faithful (announce : Bool) : Faithful k (terminateAll announce) :=
  .bind (reap_faithful false) fun _ => .session_bind fun _ =>
    .bind (.mapM (terminateJob_faithful announce)) fun _ => .bind (.ask _) fun _ =>
      .bind (.forM fun _ => .ask _) fun _ => .session_bind fun _ =>
        .bind (.forM awaitJob_faithful) fun _ => .modifySession _

end Shell

end LineShell
