import LineShell.Proofs.Kept
import LineShell.Proofs.Reaping

namespace LineShell

/-!
# Conservation of jobs

* `JobOp`, `Call` — what can be done with the registry, and what has come of it;
* `Chronicle` — calls one after another. In between the surroundings do as they like;
* `Book` — what is known of the jobs by whoever sees the calls and their looks only;
* `Conserves`, `Conserved` — a call, and a registry after calls, as the book says;
* `Host.kernel_truthful` — that looks at the processes of a host tell the truth;
* `Chronicle.conserved` — the registry holds the jobs that were added and have not been taken out,
  and each job is taken out and told of once.
-/

variable {σ : Type} {k : Kernel σ} {s : Session}

/-! ### Calls -/

/-- What can be done with the registry. -/
inductive JobOp
  | add (job : Job) (announce : Bool)
  | reap (announce : Bool)
  | terminateAll (announce : Bool)
  deriving DecidableEq, Repr

/-- Does it. The answer is the jobs that have been taken out by reaping. -/
def JobOp.run : JobOp → Shell σ (List Reaped)
  | .add job announce => do
    Shell.register job announce
    return []
  | .reap announce => Shell.reap announce
  | .terminateAll announce => do
    Shell.terminateAll announce
    return []

/-- A call: what was done, when, and what came of it. -/
structure Call (σ : Type) where
  op : JobOp
  start : σ
  outcome : Outcome (List Reaped)
  trace : Trace

namespace Call

/-- The job that a call adds. -/
def added? (c : Call σ) : Option Job :=
  match c.op with
  | .add job _ => some job
  | _ => none

/-- The jobs that a call has answered with. -/
def answer (c : Call σ) : List Reaped :=
  match c.outcome with
  | .returned r => r
  | _ => []

/-- The jobs that are registered after a call. Who has ended is told by its looks at processes. -/
def keeps (c : Call σ) (held : List Job) : List Job :=
  match c.op with
  | .add job _ => held ++ [job]
  | .reap _ => c.trace.looks.running held
  | .terminateAll _ =>
    match c.outcome with
    | .returned _ => []
    | _ => c.trace.looks.running held

/-- The jobs that a call takes out by reaping, with the codes of their processes. -/
def reaped (c : Call σ) (held : List Job) : List (Job × Int) :=
  match c.op with
  | .reap _ => c.trace.looks.finished held
  | _ => []

/-- The jobs that a call takes out by ending all of them. -/
def cleared (c : Call σ) (held : List Job) : List Job :=
  match c.op with
  | .terminateAll _ =>
    match c.outcome with
    | .returned _ => held
    | _ => (c.trace.looks.finished held).map Prod.fst
  | _ => []

/-- Each job that was registered, or is added, is kept or taken out. -/
theorem balance (c : Call σ) (held : List Job) :
    ((c.reaped held).map Prod.fst ++ c.cleared held ++ c.keeps held).Perm
      (held ++ c.added?.toList) := by
  obtain ⟨op, out, o, es⟩ := c
  cases op with
  | add job announce => exact .refl _
  | reap announce =>
    simp only [reaped, cleared, keeps, added?, List.append_nil, Option.toList_none]
    exact Looks.finished_append_running_perm _ _
  | terminateAll announce =>
    cases o with
    | returned r =>
      simp only [reaped, cleared, keeps, added?, List.append_nil, Option.toList_none]
      exact .refl _
    | _ =>
      simp only [reaped, cleared, keeps, added?, List.append_nil, Option.toList_none]
      exact Looks.finished_append_running_perm _ _

end Call

/-- What comes of doing something when the surroundings are in some state. -/
def JobOp.call (op : JobOp) (k : Kernel σ) (s : Session) (out : σ) : Call σ :=
  let run := op.run k.traced ⟨s, (out, [])⟩
  ⟨op, out, run.1, run.2.outside.2⟩

/-- The session afterwards. -/
def JobOp.after (op : JobOp) (k : Kernel σ) (s : Session) (out : σ) : Session :=
  (op.run k.traced ⟨s, (out, [])⟩).2.session

/-- What is known of the jobs: those that are registered, those that reaping has taken out, and
those that were taken out because all were ended. -/
structure Book where
  held : List Job := []
  ended : List (Job × Int) := []
  cleared : List Job := []

/-- What is known after one more call. -/
def Book.enter (b : Book) (c : Call σ) : Book where
  held := c.keeps b.held
  ended := b.ended ++ c.reaped b.held
  cleared := b.cleared ++ c.cleared b.held

/-- What is known after calls. -/
def Book.of (cs : List (Call σ)) : Book := cs.foldl Book.enter {}

/-- Calls one after another, from an empty registry. Each one may end in any way. Between two of
them the surroundings go on as they like: processes exit, others start. The process of an added job
is not that of a job that is registered then. -/
inductive Chronicle (k : Kernel σ) : List (Call σ) → Jobs → Prop
  | start : Chronicle k [] {}
  | next {cs : List (Call σ)} {s : Session} (op : JobOp) (out : σ) : Chronicle k cs s.jobs →
    (∀ job announce, op = .add job announce → s.jobs.contains job.pid = false) →
    Chronicle k (cs ++ [op.call k s out]) (op.after k s out).jobs

/-! ### What one call does -/

/-- What a call does to the registry, what it answers, and what it tells. -/
def JobOp.Does (jobs jobs' : Jobs) (o : Outcome (List Reaped)) (es : Trace) : JobOp → Prop
  | .add job _ => jobs' = jobs.register job ∧ es.doneLines = [] ∧ ∀ r, o = .returned r → r = []
  | .reap announce => Scanned announce jobs.list jobs jobs' es ∧
    ∀ r, o = .returned r → Reaps announce jobs.list es r
  | .terminateAll _ => es.doneLines = [] ∧ (∀ r, o = .returned r → r = [] ∧ jobs' = {}) ∧
    ((∀ r, o ≠ .returned r) → jobs'.list = es.looks.running jobs.list)

theorem JobOp.run_does (op : JobOp) (hnodup : s.jobs.pids.Nodup) :
    Ensures k op.run s fun o s' es => op.Does s.jobs s'.jobs o es := by
  cases op with
  | reap announce => exact Shell.reap_scans announce hnodup
  | add job announce =>
    refine ((Shell.register_ensures job announce).and (Shell.register_discreet job announce)).bind
      ?_ ?_ ?_
    · rintro _ s' es ⟨⟨rfl, -⟩, hes⟩
      refine .pure ⟨rfl, ?_, ?_⟩
      · rw [List.append_nil]
        exact Trace.doneLines_of_discreet hes
      · rintro _ ⟨⟩
        rfl
    · rintro f s' es ⟨⟨rfl, -⟩, hes⟩
      exact ⟨rfl, Trace.doneLines_of_discreet hes, fun _ => nofun⟩
    · rintro s' es ⟨⟨rfl, -⟩, hes⟩
      exact ⟨rfl, Trace.doneLines_of_discreet hes, fun _ => nofun⟩
  | terminateAll announce =>
    refine (Shell.terminateAll_clears announce hnodup).bind ?_ ?_ ?_
    · rintro _ s' es ⟨hsilent, hgone, -⟩
      refine .pure ⟨?_, ?_, fun h => absurd rfl (h [])⟩
      · rwa [List.append_nil]
      · rintro _ ⟨⟩
        exact ⟨rfl, hgone () rfl⟩
    · exact fun _ _ _ h => ⟨h.1, fun _ => nofun, fun _ => h.2.2 fun _ => nofun⟩
    · exact fun _ _ h => ⟨h.1, fun _ => nofun, fun _ => h.2.2 fun _ => nofun⟩

/-- A call returns just where each of its requests does. -/
theorem JobOp.run_faithful (op : JobOp) : Faithful k op.run := by
  cases op with
  | add job announce => exact (Shell.register_faithful job announce).bind fun _ => .pure _
  | reap announce => exact Shell.reap_faithful announce
  | terminateAll announce =>
    exact (Shell.terminateAll_faithful announce).bind fun _ => .pure _

/-! ### Calls and the book -/

/-- Looks at processes tell the truth: a code, just where the process has exited, and its own. -/
def Truthful (k : Kernel σ) (status : σ → ProcessId → Option Int) : Prop :=
  ∀ (pid : ProcessId) (code : Option Int) (out out' : σ),
    k.answer (.poll pid) out = (.returned code, out') → status out' pid = code

/-- One call has gone as the book says that holds before it. -/
structure Conserves (k : Kernel σ) (status : σ → ProcessId → Option Int) (held : List Job)
    (c : Call σ) : Prop where
  /-- The call returns just where each of its requests does. -/
  returns : (∃ r, c.outcome = .returned r) ↔ c.trace.Smooth
  /-- What a look has found was so at that moment. -/
  truthful : ∀ pid code, (pid, code) ∈ c.trace.looks → ∃ (before after : Trace) (out : σ),
    c.trace = before ++ after ∧ k.Follows c.start before out ∧ status out pid = code
  /-- Reaping looks at each job once, in order. The answer is those whose processes had exited, and
  what is told is their ends. -/
  reaps : ∀ announce r, c.op = .reap announce → c.outcome = .returned r →
    Reaps announce held c.trace r
  /-- Where reaping is cut short, what was told is true. -/
  told : ∀ announce, c.op = .reap announce →
    c.trace.doneLines <+: announcements announce (c.trace.looks.finished held)
  /-- Nothing else tells of an end, or answers with a job. -/
  silent : (∀ announce, c.op ≠ .reap announce) → c.trace.doneLines = [] ∧ c.answer = []

/-- A registry after calls. -/
structure Conserved (k : Kernel σ) (status : σ → ProcessId → Option Int) (cs : List (Call σ))
    (jobs : Jobs) : Prop where
  /-- The jobs are those that were added and have not been taken out, in order. -/
  registry : jobs.list = (Book.of cs).held
  /-- Each process is registered once. -/
  nodup : jobs.pids.Nodup
  /-- Each call has gone as the book says that holds before it. -/
  calls : ∀ before c after, cs = before ++ c :: after → Conserves k status (Book.of before).held c
  /-- Each job that was added is registered, or has been taken out once. -/
  balance : ((Book.of cs).ended.map Prod.fst ++ (Book.of cs).cleared ++ jobs.list).Perm
    (cs.filterMap Call.added?)
  /-- All jobs that have been answered with have ended, each one in its turn. -/
  answers : (cs.flatMap Call.answer).Sublist ((Book.of cs).ended.map Reaped.of)
  /-- All ends that have been told of are ends of jobs that are not quiet, each one in its turn. -/
  lines : (cs.flatMap (·.trace.doneLines)).Sublist
    (((Book.of cs).ended.filter fun f => !f.1.quiet).map doneLine)

theorem Book.of_append (cs : List (Call σ)) (c : Call σ) :
    Book.of (cs ++ [c]) = (Book.of cs).enter c :=
  List.foldl_concat ..

section Step

variable {op : JobOp} {jobs jobs' : Jobs} {o : Outcome (List Reaped)} {es : Trace} {b : Book}
  {out : σ}

/-- The registry goes on as the book does. -/
theorem JobOp.Does.enter (h : op.Does jobs jobs' o es) (out : σ) (hheld : jobs.list = b.held)
    (hnew : ∀ job announce, op = .add job announce → jobs.contains job.pid = false) :
    jobs'.list = (b.enter ⟨op, out, o, es⟩).held := by
  cases op with
  | add job announce =>
    obtain ⟨rfl, -⟩ := h
    rw [Jobs.list_register_of_not_contains (hnew job announce rfl), hheld]
    rfl
  | reap announce =>
    rw [h.1.jobs, hheld]
    rfl
  | terminateAll announce =>
    obtain ⟨-, hgone, hleft⟩ := h
    cases o with
    | returned r =>
      rw [(hgone r rfl).2]
      rfl
    | raised f =>
      rw [hleft fun _ => nofun, hheld]
      rfl
    | never =>
      rw [hleft fun _ => nofun, hheld]
      rfl

theorem JobOp.Does.nodup (h : op.Does jobs jobs' o es) (hnodup : jobs.pids.Nodup)
    (hnew : ∀ job announce, op = .add job announce → jobs.contains job.pid = false) :
    jobs'.pids.Nodup := by
  have hheld := h.enter () (b := ⟨jobs.list, [], []⟩) rfl hnew
  have hrunning : ∀ looks : Looks, ((looks.running jobs.list).map Job.pid).Nodup := fun looks =>
    hnodup.sublist (List.filter_sublist.map _)
  rw [Jobs.pids, hheld]
  cases op with
  | add job announce =>
    have hnot : job.pid ∉ jobs.pids := fun hmem => by
      have := hnew job announce rfl
      rw [Jobs.contains, List.contains_iff_mem.2 hmem] at this
      cases this
    show ((jobs.list ++ [job]).map Job.pid).Nodup
    rw [List.map_append]
    refine List.nodup_append.2 ⟨hnodup, by simp, fun pid hpid other hother => ?_⟩
    rw [List.mem_singleton.1 hother]
    rintro rfl
    exact hnot hpid
  | reap announce => exact hrunning _
  | terminateAll announce =>
    cases o with
    | returned r => exact List.nodup_nil
    | _ => exact hrunning _

/-- A call goes as the book says. -/
theorem JobOp.conserves {status : σ → ProcessId → Option Int} (htruth : Truthful k status)
    {s s' : Session} {out' : σ} (hnodup : s.jobs.pids.Nodup) (hheld : s.jobs.list = b.held)
    (hrun : op.run k.traced ⟨s, (out, [])⟩ = (o, ⟨s', (out', es)⟩)) :
    Conserves k status b.held ⟨op, out, o, es⟩ := by
  obtain ⟨hfollows, hdoes, hfaithful⟩ := ((op.run_does hnodup).and (op.run_faithful s)).run hrun
  refine ⟨hfaithful, fun pid code hlook => ?_, ?_, ?_, fun hop => ?_⟩
  · obtain ⟨before, after, mid, mid', hes, hbefore, hanswer⟩ :=
      Trace.moment_of_mem_looks hfollows hlook
    refine ⟨before ++ [⟨.poll pid, .returned code⟩], after, mid', ?_, ?_,
      htruth pid code mid mid' hanswer⟩
    · rw [List.append_assoc]
      exact hes
    · exact Kernel.follows_append.2 ⟨mid, hbefore, mid', hanswer, rfl⟩
  · rintro announce r rfl rfl
    exact hheld ▸ hdoes.2 r rfl
  · rintro announce rfl
    have htold := hdoes.1.printed.filter isDoneLine
    rw [filter_announcements, hheld] at htold
    exact htold
  · cases op with
    | reap announce => exact absurd rfl (hop announce)
    | add job announce =>
      refine ⟨hdoes.2.1, ?_⟩
      cases o with
      | returned r => exact hdoes.2.2 r rfl
      | _ => rfl
    | terminateAll announce =>
      refine ⟨hdoes.1, ?_⟩
      cases o with
      | returned r => exact (hdoes.2.1 r rfl).1
      | _ => rfl

variable {c : Call σ}

/-- No job is lost, and none comes from nowhere. -/
theorem Book.enter_balance {added : List Job} (c : Call σ)
    (h : (b.ended.map Prod.fst ++ b.cleared ++ b.held).Perm added) :
    ((b.enter c).ended.map Prod.fst ++ (b.enter c).cleared ++ (b.enter c).held).Perm
      (added ++ c.added?.toList) := by
  refine List.perm_iff_count.2 fun job => ?_
  have hbefore := List.perm_iff_count.1 h job
  have hcall := List.perm_iff_count.1 (c.balance b.held) job
  simp only [enter, List.map_append, List.count_append] at hbefore hcall ⊢
  omega

theorem Conserves.answer_sublist {status : σ → ProcessId → Option Int} {held : List Job}
    (h : Conserves k status held c) : c.answer.Sublist ((c.reaped held).map Reaped.of) := by
  obtain ⟨op, out, o, es⟩ := c
  cases op with
  | reap announce =>
    cases o with
    | returned r =>
      have hr : r = _ := (h.reaps announce r rfl rfl).answer
      exact hr ▸ List.Sublist.refl _
    | _ => exact List.nil_sublist _
  | _ => exact (h.silent fun _ => nofun).2 ▸ List.nil_sublist _

theorem Conserves.doneLines_sublist {status : σ → ProcessId → Option Int} {held : List Job}
    (h : Conserves k status held c) : c.trace.doneLines.Sublist
      (((c.reaped held).filter fun f => !f.1.quiet).map doneLine) := by
  obtain ⟨op, out, o, es⟩ := c
  cases op with
  | reap announce =>
    refine (h.told announce rfl).sublist.trans ?_
    cases announce with
    | true => exact List.Sublist.refl _
    | false =>
      rw [announcements_false]
      exact List.nil_sublist _
  | _ => exact (h.silent fun _ => nofun).1 ▸ List.nil_sublist _

end Step

/-! ### Hosts -/

namespace Host

variable {S : Type}

/-- The code that a process has exited with, if it has. -/
def Process.code? (p : Process S) : Option Int :=
  match p.observed, p.life with
  | some status, _ => some status
  | none, .exited status => some status
  | none, _ => none

namespace Machine

variable {m : Machine S} {i : Nat} {pid : ProcessId} {p : Process S}

/-- The code that the process of a number has exited with, if it has. -/
def code? (m : Machine S) (pid : ProcessId) : Option Int := (m.process? pid).bind Process.code?

/-- A process that changes keeps its number, and so its place. -/
theorem indexOf?_modifyProcess {f : Process S → Process S} (hf : ∀ p, (f p).pid = p.pid)
    (hi : m.indexOf? pid = some i) : (m.modifyProcess i f).indexOf? pid = some i := by
  obtain ⟨hlt, hpid, hbefore⟩ := Array.findIdx?_eq_some_iff_getElem.1 hi
  refine Array.findIdx?_eq_some_iff_getElem.2 ⟨by simpa [modifyProcess] using hlt, ?_, ?_⟩
  · simpa [modifyProcess, Array.getElem_modify, hf] using hpid
  · intro j hj
    have hne : i ≠ j := by omega
    simpa [modifyProcess, Array.getElem_modify, hne] using hbefore j hj

theorem process?_modifyProcess {f : Process S → Process S} (hf : ∀ p, (f p).pid = p.pid)
    (hi : m.indexOf? pid = some i) (hp : m.process? pid = some p) :
    (m.modifyProcess i f).process? pid = some (f p) := by
  rw [process?, hi, Option.bind_some] at hp
  rw [process?, indexOf?_modifyProcess hf hi, Option.bind_some, processes_modifyProcess_self hp]

theorem code?_of_process? (hp : m.process? pid = some p) : m.code? pid = p.code? := by
  rw [code?, hp]
  rfl

theorem code?_observe (hi : m.indexOf? pid = some i) (hp : m.process? pid = some p)
    (status : Int) : (m.observe i status).code? pid = some status :=
  code?_of_process? (process?_modifyProcess (f := fun p => { p with observed := some status })
    (fun _ => rfl) hi hp)

/-- A process that lets go of all still has its number and its place. -/
theorem find_retire (hi : m.indexOf? pid = some i) (hp : m.process? pid = some p) (life : Life) :
    (m.retire i life).indexOf? pid = some i ∧
      (m.retire i life).process? pid = some { p with life, descriptors := [] } := by
  have hget : m.processes[i]? = some p := by rwa [process?, hi] at hp
  obtain ⟨m₁, hretire, hsame⟩ : ∃ m₁ : Machine S, m.retire i life =
      m₁.modifyProcess i (fun p => { p with life, descriptors := [] }) ∧
        m₁.processes = m.processes := by
    rw [retire, hget]
    exact ⟨_, rfl, (releaseAll_kept (K := fun _ => True) (R := fun _ => True) (J := fun _ => True)
      p.descriptors m p fun _ _ _ => trivial).2⟩
  have hi₁ : m₁.indexOf? pid = some i := by rwa [indexOf?, hsame]
  have hp₁ : m₁.process? pid = some p := by rw [process?, hi₁, hsame]; exact hget
  rw [hretire]
  exact ⟨indexOf?_modifyProcess (fun _ => rfl) hi₁, process?_modifyProcess (fun _ => rfl) hi₁ hp₁⟩

end Machine

/-- A host's looks at processes tell the truth. -/
theorem kernel_truthful (h : Host S) : Truthful h.kernel Machine.code? := by
  intro pid code m m' hlook
  change h.look m pid = _ at hlook
  simp only [look] at hlook
  generalize h.settle h.patience m = m₁ at hlook
  split at hlook
  · rename_i i p hi hp
    split at hlook
    case h_1 status life hobserved =>
      cases hlook
      rw [Machine.code?_of_process? hp, Process.code?, hobserved]
    case h_2 status hobserved hlife =>
      cases hlook
      exact Machine.code?_observe hi hp _
    case h_3 status hobserved hlife =>
      cases hlook
      obtain ⟨hi', hp'⟩ := Machine.find_retire hi hp (.exited status)
      exact Machine.code?_observe hi' hp' _
    case h_4 looks status hobserved hlife =>
      cases hlook
      have hp' := Machine.process?_modifyProcess
        (f := fun p => { p with life := .leaving looks status }) (fun _ => rfl) hi hp
      rw [Machine.code?_of_process? hp', Process.code?, hobserved]
    case h_5 life hobserved hexited _ _ =>
      cases hlook
      rw [Machine.code?_of_process? hp, Process.code?, hobserved]
      cases hlife : p.life with
      | exited status => exact absurd hlife (hexited status)
      | _ => rfl
  · cases hlook

end Host

/-! ### Conservation -/

/-- **Conservation of jobs.** Whatever is done with the registry, and whenever processes exit, the
registry holds the jobs that were added and have not been taken out. Reaping answers with those
whose processes have exited, with their codes. No job is answered with twice, or told of twice, or
told of at all if it is quiet. -/
theorem Chronicle.conserved {status : σ → ProcessId → Option Int} (htruth : Truthful k status)
    {cs : List (Call σ)} {jobs : Jobs} (h : Chronicle k cs jobs) : Conserved k status cs jobs := by
  induction h with
  | start => exact ⟨rfl, List.nodup_nil, by simp, .refl _, .slnil, .slnil⟩
  | @next cs s op out _ hnew ih =>
    obtain ⟨o, s', out', es, hrun⟩ : ∃ o s' out' es,
        op.run k.traced ⟨s, (out, [])⟩ = (o, ⟨s', (out', es)⟩) := ⟨_, _, _, _, rfl⟩
    have hdoes := ((op.run_does ih.nodup).run hrun).2
    have hconserves := op.conserves htruth ih.nodup ih.registry hrun
    have hregistry := hdoes.enter out ih.registry hnew
    simp only [JobOp.call, JobOp.after, hrun]
    refine ⟨?_, hdoes.nodup ih.nodup hnew, fun before c after hcs => ?_, ?_, ?_, ?_⟩
    · rw [Book.of_append]
      exact hregistry
    · rcases List.eq_nil_or_concat after with rfl | ⟨after, last, rfl⟩
      · obtain ⟨rfl, hc⟩ := List.append_inj' hcs rfl
        cases hc
        exact hconserves
      · rw [List.concat_eq_append, ← List.cons_append, ← List.append_assoc] at hcs
        exact ih.calls before c after (List.append_inj' hcs rfl).1
    · rw [Book.of_append, hregistry, List.filterMap_append]
      exact Book.enter_balance _ (ih.registry ▸ ih.balance)
    · rw [Book.of_append, List.flatMap_append, List.flatMap_singleton]
      show List.Sublist _ (((Book.of cs).ended ++ _).map Reaped.of)
      rw [List.map_append]
      exact ih.answers.append hconserves.answer_sublist
    · rw [Book.of_append, List.flatMap_append, List.flatMap_singleton]
      show List.Sublist _ ((((Book.of cs).ended ++ _).filter _).map doneLine)
      rw [List.filter_append, List.map_append]
      exact ih.lines.append hconserves.doneLines_sublist

/-- A host whose program `a` exits with the code 3, and whose program `b` runs on when all is
done. -/
def workingHost : Host Host.Scripted where
  programs := Host.Scripted.programs [("a", { status := 3 }), ("b", { lingers := true })]
  patience := 40

/-- That host with a process of each program. -/
def workingMachine : Host.Machine Host.Scripted :=
  ["a", "b"].foldl (fun m name => (workingHost.spawn m [name] rootSession.cwd {}).2) {}

/-- Both processes are added, and then the jobs that have ended are taken out. -/
def workingCalls : List (Call (Host.Machine Host.Scripted)) × Session :=
  [JobOp.add ⟨1, "a", false⟩ true, .add ⟨2, "b", false⟩ true, .reap true].foldl
    (fun (cs, s) op => (cs ++ [op.call workingHost.kernel s workingMachine],
      op.after workingHost.kernel s workingMachine)) ([], rootSession)

/-- One of two jobs is answered with and told of, and the other one stays. -/
theorem Chronicle.conserved_of_working :
    workingCalls.1.map Call.answer = [[], [], [⟨1, "a", 3⟩]] ∧
    workingCalls.1.flatMap (·.trace.doneLines) = ["[1] done: a (exit 3)\n"] ∧
    workingCalls.2.jobs.list = [⟨2, "b", false⟩] ∧
    Conserved workingHost.kernel Host.Machine.code? workingCalls.1 workingCalls.2.jobs := by
  refine ⟨by decide +kernel, by decide +kernel, by decide +kernel, ?_⟩
  refine Chronicle.conserved (Host.kernel_truthful _) ?_
  refine .next _ _ (.next _ _ (.next (s := rootSession) _ _ .start ?_) ?_) ?_
  · rintro _ _ ⟨⟩
    rfl
  · rintro _ _ ⟨⟩
    decide +kernel
  · rintro _ _ ⟨⟩

end LineShell
