import LineShell.Proofs.Conservation
import Mathlib.Data.List.Nodup

namespace LineShell

open Shell

/-!
# How jobs are made to end

* `Trace.about` — what was done about one process, `Trace.asked` — the processes asked to end;
* `Escalation` — the ways in which the job of a process can be dealt with;
* `Dealt`, `mapM_deals` — jobs of different processes are dealt with each on its own;
* `Watchful` — a kernel whose grace waits tell which processes have not ended;
* `Escalates` — what comes of all jobs, and `terminateAll_escalates` — that it does so.

What is done about a process is read off the trace by leaving out all that concerns others. So a
loop over jobs of different processes does about each of them just what its own round does.
-/

variable {σ α β : Type} {k : Kernel σ} {s : Session}

/-! ### What is done about a process -/

/-- Whether a request looks at a process, signals it or waits for it. -/
def Request.isAbout (pid : ProcessId) : Request → Bool
  | .poll other | .waitBriefly other | .terminate other | .kill other => other == pid
  | .survivors others => others.contains pid
  | _ => false

/-- The process that a request has asked to end. -/
def Event.asked? : Event → Option ProcessId
  | ⟨.terminate pid, .returned .delivered⟩ => some pid
  | _ => none

/-- Whether a request neither writes text to the console nor asks a process to end. -/
def Request.isMute : Request → Bool
  | .print _ | .terminate _ => false
  | _ => true

/-- The line that tells of a process that was asked to end. -/
def terminatedLine (pid : ProcessId) : String :=
  "Terminated background job [" ++ toString pid ++ "]" ++ "\n"

namespace Trace

/-- What was done about a process, in order. -/
def about (es : Trace) (pid : ProcessId) : Trace := es.filter (·.request.isAbout pid)

/-- The processes that were asked to end, in order. -/
def asked (es : Trace) : List ProcessId := es.filterMap Event.asked?

/-- All that was told is which processes were asked to end, if anybody listens. -/
def TellsAsked (announce : Bool) (es : Trace) : Prop :=
  es.printed = if announce then es.asked.map terminatedLine else []

variable {es es' : Trace} {pid : ProcessId}

@[simp] theorem about_nil (pid : ProcessId) : about [] pid = [] := rfl

@[simp] theorem about_append (es es' : Trace) (pid : ProcessId) :
    about (es ++ es') pid = es.about pid ++ es'.about pid := List.filter_append ..

theorem about_cons (e : Event) (es : Trace) (pid : ProcessId) :
    about (e :: es) pid = if e.request.isAbout pid then e :: es.about pid else es.about pid :=
  List.filter_cons

theorem mem_about {e : Event} : e ∈ es.about pid ↔ e ∈ es ∧ e.request.isAbout pid = true :=
  List.mem_filter

/-- What holds of requests that are not about a process leaves nothing about it. -/
theorem about_of_only {p : Request → Bool} (hp : ∀ r, p r = true → r.isAbout pid = false)
    (h : es.Only p) : es.about pid = [] := by
  refine List.filter_eq_nil_iff.2 fun e he => ?_
  simp [hp _ (h e he)]

@[simp] theorem asked_nil : asked [] = [] := rfl

@[simp] theorem asked_append (es es' : Trace) : asked (es ++ es') = es.asked ++ es'.asked :=
  List.filterMap_append

theorem mem_asked :
    pid ∈ es.asked ↔ (⟨.terminate pid, .returned .delivered⟩ : Event) ∈ es.about pid := by
  rw [mem_about, asked, List.mem_filterMap]
  constructor
  · rintro ⟨e, he, hpid⟩
    have heq : e = ⟨.terminate pid, .returned .delivered⟩ := by
      unfold Event.asked? at hpid
      split at hpid
      · cases hpid
        rfl
      · cases hpid
    exact ⟨heq ▸ he, by simp [Request.isAbout]⟩
  · intro h
    exact ⟨_, h.1, rfl⟩

theorem TellsAsked.append {announce : Bool} (h : es.TellsAsked announce)
    (h' : es'.TellsAsked announce) : TellsAsked announce (es ++ es') := by
  rw [TellsAsked, printed_append, h, h', asked_append]
  split <;> simp

theorem asked_of_mute (h : es.Only Request.isMute) : es.asked = [] := by
  refine List.filterMap_eq_nil_iff.2 fun e he => ?_
  have hmute := h e he
  obtain ⟨r, o⟩ := e
  cases r <;> first | rfl | cases hmute

theorem printed_of_mute (h : es.Only Request.isMute) : es.printed = [] := by
  refine List.filterMap_eq_nil_iff.2 fun e he => ?_
  have hmute := h e he
  obtain ⟨r, o⟩ := e
  cases r <;> first | rfl | cases hmute

theorem tellsAsked_of_mute {announce : Bool} (h : es.Only Request.isMute) :
    es.TellsAsked announce := by
  rw [TellsAsked, printed_of_mute h, asked_of_mute h]
  simp

/-- The first look at a process is the first one of those about it. -/
theorem found_about (es : Trace) (pid : ProcessId) :
    (es.about pid).looks.found pid = es.looks.found pid := by
  induction es with
  | nil => rfl
  | cons e es ih =>
    have hcons : ∀ es : Trace, looks (e :: es) = e.look?.toList ++ es.looks := fun es => by
      rw [looks, List.filterMap_cons]
      cases e.look? <;> rfl
    have hlook : ∀ look : ProcessId × Option Int, e.look? = some look →
        e.request.isAbout pid = (look.1 == pid) := by
      intro look h
      unfold Event.look? at h
      split at h
      · cases h
        rfl
      · cases h
    rw [about_cons, hcons es]
    cases hsome : e.look? with
    | none =>
      split
      · rw [hcons, hsome]
        exact ih
      · exact ih
    | some look =>
      obtain ⟨other, code⟩ := look
      have habout := hlook _ hsome
      by_cases heq : other = pid
      · subst heq
        rw [if_pos (by simpa using habout), hcons, hsome]
        exact (Looks.found_cons_self _ _).trans (Looks.found_cons_self _ _).symm
      · rw [if_neg (by simpa [habout] using heq)]
        exact ih.trans (Looks.found_cons_of_ne (Ne.symm heq) _).symm

end Trace

/-! ### The ways in which a job is dealt with -/

/-- The process was found running twice. -/
def stillRuns (pid : ProcessId) : Trace :=
  [⟨.poll pid, .returned none⟩, ⟨.poll pid, .returned none⟩]

/-- What is done about the process of a job, from the first look at it to the last wait for it, if the
grace wait for the processes that were asked to end leaves some of them alive. -/
inductive Escalation (asked alive : List ProcessId) (pid : ProcessId) : Trace → Prop
  /-- It had exited by the first look. -/
  | reaped {code : Int} : Escalation asked alive pid [⟨.poll pid, .returned (some code)⟩]
  /-- It had exited by the second look. -/
  | exited {code : Int} {last : Option Int} : Escalation asked alive pid
      [⟨.poll pid, .returned none⟩, ⟨.poll pid, .returned (some code)⟩,
        ⟨.waitBriefly pid, .returned last⟩]
  /-- It still ran, but was gone or would not let itself be asked to end. -/
  | unreached {delivery : Delivery} {last : Option Int} (h : delivery ≠ .delivered) :
      Escalation asked alive pid (stillRuns pid ++
        [⟨.terminate pid, .returned delivery⟩, ⟨.waitBriefly pid, .returned last⟩])
  /-- It was asked to end, and had done so when the grace wait ended. -/
  | ended {last : Option Int} (h : pid ∉ alive) : Escalation asked alive pid (stillRuns pid ++
      [⟨.terminate pid, .returned .delivered⟩, ⟨.survivors asked, .returned alive⟩,
        ⟨.waitBriefly pid, .returned last⟩])
  /-- It was asked to end, had not done so when the grace wait ended, and was ended then. -/
  | killed {last : Option Int} (h : pid ∈ alive) : Escalation asked alive pid (stillRuns pid ++
      [⟨.terminate pid, .returned .delivered⟩, ⟨.survivors asked, .returned alive⟩,
        ⟨.kill pid, .returned ()⟩, ⟨.waitBriefly pid, .returned last⟩])

/-- In the end the process has been seen to exit, unless the last wait for it was in vain. -/
theorem Escalation.observed {asked alive : List ProcessId} {pid : ProcessId} {es : Trace}
    (h : Escalation asked alive pid es) :
    pid ∈ es.exits ∨ (⟨.waitBriefly pid, .returned none⟩ : Event) ∈ es := by
  have hlast : ∀ (last : Option Int) (before : Trace),
      pid ∈ Trace.exits (before ++ [⟨.waitBriefly pid, .returned last⟩]) ∨
        (⟨.waitBriefly pid, .returned none⟩ : Event) ∈
          before ++ [⟨.waitBriefly pid, .returned last⟩] := by
    intro last before
    cases last with
    | none => exact .inr (by simp)
    | some code =>
      left
      rw [Trace.exits_append]
      exact List.mem_append_right _ (List.mem_singleton_self _)
  cases h with
  | reaped => exact .inl (List.mem_singleton_self _)
  | exited => exact .inl (List.mem_cons_self ..)
  | unreached => exact hlast _ (stillRuns pid ++ [_])
  | ended => exact hlast _ (stillRuns pid ++ [_, _])
  | killed => exact hlast _ (stillRuns pid ++ [_, _, _])

/-! ### One process after another -/

/-- Different processes have been dealt with one after another, and no other process. -/
structure Dealt (key : α → ProcessId) (P : α → Trace → Prop) (list : List α) (es : Trace) :
    Prop where
  each : ∀ a ∈ list, P a (es.about (key a))
  others : ∀ pid, pid ∉ list.map key → es.about pid = []

/-- One process has been dealt with, and no other one. -/
abbrev DealtAlone (key : α → ProcessId) (P : α → Trace → Prop) (a : α) (es : Trace) : Prop :=
  (∀ pid, pid ≠ key a → es.about pid = []) ∧ P a (es.about (key a))

section Loops

variable {key : α → ProcessId} {P : α → Trace → Prop} {list : List α}

theorem Dealt.cons {a : α} {es es' : Trace} (h : DealtAlone key P a es)
    (h' : Dealt key P list es') (hkey : key a ∉ list.map key) :
    Dealt key P (a :: list) (es ++ es') := by
  constructor
  · intro b hb
    rw [Trace.about_append]
    rcases List.mem_cons.1 hb with rfl | hb
    · rw [h'.others _ hkey, List.append_nil]
      exact h.2
    · have hne : key b ≠ key a := by
        intro heq
        exact hkey (heq ▸ List.mem_map_of_mem hb)
      rw [h.1 _ hne, List.nil_append]
      exact h'.each b hb
  · intro pid hpid
    rw [List.map_cons, List.mem_cons, not_or] at hpid
    rw [Trace.about_append, h.1 _ hpid.1, h'.others _ hpid.2, List.nil_append]

/-- Each round deals with a process of its own. -/
theorem mapM_deals {g : α → Shell (σ × Trace) β} (hnodup : (list.map key).Nodup)
    (hg : ∀ a s, Ensures k (g a) s fun o _ es => ∀ b, o = .returned b → DealtAlone key P a es) :
    Ensures k (list.mapM g) s fun o _ es => ∀ bs, o = .returned bs → Dealt key P list es := by
  induction list generalizing s with
  | nil =>
    refine .pure fun _ _ => ⟨?_, ?_⟩
    · intro a ha
      cases ha
    · intro pid _
      rfl
  | cons a list ih =>
    obtain ⟨hkey, hnodup⟩ := List.nodup_cons.1 hnodup
    rw [List.mapM_cons]
    refine (hg a s).bind ?_ (fun _ _ _ _ => nofun) fun _ _ _ => nofun
    intro b s₁ es hfirst
    refine (ih hnodup).bind ?_ (fun _ _ _ _ => nofun) fun _ _ _ => nofun
    intro bs s₂ es' hrest
    refine .pure fun _ _ => ?_
    rw [List.append_nil]
    exact (hrest bs rfl).cons (hfirst b rfl) hkey

theorem forM_eq_mapM (list : List α) (g : α → Shell (σ × Trace) Unit) :
    list.forM g = list.mapM g >>= fun _ => pure () := by
  induction list with
  | nil => rfl
  | cons a list ih =>
    show (g a >>= fun _ => list.forM g) = _
    simp only [List.mapM_cons, ih, bind_assoc, pure_bind]

theorem forM_deals {g : α → Shell (σ × Trace) Unit} (hnodup : (list.map key).Nodup)
    (hg : ∀ a s, Ensures k (g a) s fun o _ es => ∀ b, o = .returned b → DealtAlone key P a es) :
    Ensures k (list.forM g) s fun o _ es => ∀ b, o = .returned b → Dealt key P list es := by
  rw [forM_eq_mapM]
  refine (mapM_deals hnodup hg).bind ?_ (fun _ _ _ _ => nofun) fun _ _ _ => nofun
  intro bs s' es h
  refine .pure fun _ _ => ?_
  rw [List.append_nil]
  exact h bs rfl

end Loops

/-! ### What each step does about a job -/

namespace Shell

/-- A job was looked at once. -/
def LookedAt (job : Job) (es : Trace) : Prop :=
  ∃ code : Option Int, es = [⟨.poll job.pid, .returned code⟩]

/-- A job was looked at, and asked to end if its process still ran. -/
def AskedToEnd (job : Job) (es : Trace) : Prop :=
  (∃ code : Int, es = [⟨.poll job.pid, .returned (some code)⟩]) ∨
    ∃ delivery, es = [⟨.poll job.pid, .returned none⟩, ⟨.terminate job.pid, .returned delivery⟩]

/-- A job was waited for. -/
def WaitedFor (job : Job) (es : Trace) : Prop :=
  ∃ last : Option Int, es = [⟨.waitBriefly job.pid, .returned last⟩]

/-- The requests of a trace that are about one process are the first ones. -/
theorem dealtAlone_of {key : α → ProcessId} {P : α → Trace → Prop} {a : α} (first rest : Trace)
    (hfirst : ∀ e ∈ first, ∀ pid, e.request.isAbout pid = (key a == pid))
    (hrest : ∀ pid, rest.about pid = []) (h : P a first) : DealtAlone key P a (first ++ rest) := by
  constructor
  · intro pid hne
    rw [Trace.about_append, hrest, List.append_nil]
    refine List.filter_eq_nil_iff.2 fun e he => ?_
    simp [hfirst e he, Ne.symm hne]
  · have hself : Trace.about first (key a) = first :=
      List.filter_eq_self.2 fun e he => by simp [hfirst e he]
    rwa [Trace.about_append, hrest, List.append_nil, hself]

theorem not_isAbout_of_isAside {pid : ProcessId} (r : Request) (h : r.isAside = true) :
    r.isAbout pid = false := by
  cases r <;> first | rfl | cases h

theorem about_of_aside {es : Trace} (h : es.Aside) (pid : ProcessId) : es.about pid = [] :=
  Trace.about_of_only not_isAbout_of_isAside h

theorem reapJob_alone (announce : Bool) (job : Job) :
    Ensures k (reapJob announce job) s fun o _ es =>
      ∀ r, o = .returned r → DealtAlone Job.pid LookedAt job es := by
  have halone : ∀ {code : Option Int} {rest : Trace}, rest.Aside →
      DealtAlone Job.pid LookedAt job (⟨.poll job.pid, .returned code⟩ :: rest) := by
    intro code rest hrest
    refine dealtAlone_of [_] _ ?_ (about_of_aside hrest) ⟨code, rfl⟩
    simp [Request.isAbout]
  refine .ask_bind (fun code => ?_) (fun _ => nofun) nofun
  cases code with
  | none => exact .pure fun _ _ => halone (Trace.only_nil _)
  | some code =>
    refine .modifySession_bind ?_
    have hrest : Asks k Request.isAside (do
        debug .jobs ("background job " ++ toString job.pid ++ " reaped with status " ++
          toString code)
        if announce && !job.quiet then
          printLine ("[" ++ toString job.pid ++ "] done: " ++ job.text ++
            " (exit " ++ toString code ++ ")")
        return some (⟨job.pid, job.text, code⟩ : Reaped) : Shell (σ × Trace) (Option Reaped)) := by
      refine (Asks.ask rfl).bind fun _ => ?_
      show Asks k _ (if announce && !job.quiet then printLine _ >>= fun _ => pure _ else pure _)
      split
      · exact (Asks.ask rfl).bind fun _ => .pure _
      · exact .pure _
    exact (hrest _).mono fun o s' es h _ _ => halone h.2

theorem terminateJob_alone (announce : Bool) (job : Job) :
    Ensures k (terminateJob announce job) s fun o _ es =>
      ∀ r, o = .returned r → DealtAlone Job.pid AskedToEnd job es := by
  have halone : ∀ {delivery : Delivery} {rest : Trace}, rest.Aside →
      DealtAlone Job.pid AskedToEnd job
        (⟨.poll job.pid, .returned none⟩ :: ⟨.terminate job.pid, .returned delivery⟩ :: rest) := by
    intro delivery rest hrest
    refine dealtAlone_of [_, _] _ ?_ (about_of_aside hrest) (.inr ⟨delivery, rfl⟩)
    simp [Request.isAbout]
  refine .ask_bind (fun code => ?_) (fun _ => nofun) nofun
  cases code with
  | some code =>
    refine .pure fun _ _ => dealtAlone_of [_] [] ?_ (fun _ => rfl)
      (.inl ⟨code, rfl⟩)
    simp [Request.isAbout]
  | none =>
    refine .ask_bind (fun delivery => ?_) (fun _ => nofun) nofun
    cases delivery with
    | delivered =>
      cases announce with
      | true =>
        have hrest : Asks k Request.isAside (printLine ("Terminated background job [" ++
            toString job.pid ++ "]") >>= fun _ => pure (some job.pid)) :=
          (Asks.ask rfl).bind fun _ => .pure _
        exact (hrest s).mono fun _ _ _ h _ _ => halone h.2
      | false => exact .pure fun _ _ => halone (Trace.only_nil _)
    | gone => exact .pure fun _ _ => halone (Trace.only_nil _)
    | denied =>
      have hrest : Asks k Request.isAside (warning .jobs ("could not terminate job " ++
          toString job.pid ++ ": (pid=" ++ toString job.pid ++ ")") >>= fun _ =>
            pure (none : Option ProcessId)) := (Asks.ask rfl).bind fun _ => .pure _
      exact (hrest s).mono fun _ _ _ h _ _ => halone h.2

theorem kill_alone (pid : ProcessId) : Ensures k (kill pid) s fun o _ es =>
    ∀ a, o = .returned a → DealtAlone id (fun pid es => es = [⟨.kill pid, .returned ()⟩]) pid es := by
  refine .ask fun o a ha => ?_
  cases ha
  refine dealtAlone_of [_] [] ?_ (fun _ => rfl) rfl
  simp [Request.isAbout]

theorem awaitJob_alone (job : Job) : Ensures k (awaitJob job) s fun o _ es =>
    ∀ a, o = .returned a → DealtAlone Job.pid WaitedFor job es := by
  have halone : ∀ {last : Option Int} {rest : Trace}, rest.Aside →
      DealtAlone Job.pid WaitedFor job (⟨.waitBriefly job.pid, .returned last⟩ :: rest) := by
    intro last rest hrest
    refine dealtAlone_of [_] _ ?_ (about_of_aside hrest) ⟨last, rfl⟩
    simp [Request.isAbout]
  refine .ask_bind (fun last => ?_) (fun _ => nofun) nofun
  cases last with
  | none =>
    have hrest : Asks k Request.isAside
        (warning .jobs ("job " ++ toString job.pid ++ " did not exit")) := .ask rfl
    exact (hrest s).mono fun _ _ _ h _ _ => halone h.2
  | some code => exact .pure fun _ _ => halone (Trace.only_nil _)

/-! ### What is told -/

/-- A job's process is asked to end at most once, and told of then if anybody listens. -/
def TellsOf (announce : Bool) (jobs : List Job) (es : Trace) : Prop :=
  es.TellsAsked announce ∧ es.asked.Sublist (jobs.map Job.pid)

theorem TellsOf.append {announce : Bool} {jobs jobs' : List Job} {es es' : Trace}
    (h : TellsOf announce jobs es) (h' : TellsOf announce jobs' es') :
    TellsOf announce (jobs ++ jobs') (es ++ es') := by
  refine ⟨h.1.append h'.1, ?_⟩
  rw [Trace.asked_append, List.map_append]
  exact h.2.append h'.2

theorem tellsOf_of_mute {announce : Bool} (jobs : List Job) {es : Trace}
    (h : es.Only Request.isMute) : TellsOf announce jobs es := by
  refine ⟨Trace.tellsAsked_of_mute h, ?_⟩
  rw [Trace.asked_of_mute h]
  exact List.nil_sublist _

theorem terminateJob_tells (announce : Bool) (job : Job) :
    Ensures k (terminateJob announce job) s fun o _ es =>
      TellsOf announce [job] es ∧ ∀ r, o = .returned r → r.toList = es.asked := by
  have hpoll : ∀ o, TellsOf announce [job] [⟨.poll job.pid, o⟩] :=
    fun o => tellsOf_of_mute _ (by simp [Request.isMute])
  refine .ask_bind (fun code => ?_) (fun _ => ⟨hpoll _, nofun⟩) ⟨hpoll _, nofun⟩
  cases code with
  | some code =>
    refine .pure ⟨hpoll _, ?_⟩
    rintro _ ⟨⟩
    rfl
  | none =>
    have hsignal : ∀ o : Outcome Delivery, o ≠ .returned .delivered →
        Trace.asked [⟨.poll job.pid, .returned none⟩, ⟨.terminate job.pid, o⟩] = [] ∧
          TellsOf announce [job] [⟨.poll job.pid, .returned none⟩, ⟨.terminate job.pid, o⟩] := by
      intro o ho
      have hasked : Event.asked? ⟨.terminate job.pid, o⟩ = none := by
        unfold Event.asked?
        split
        · rename_i heq
          cases heq
          exact absurd rfl ho
        · rfl
      have hnil : Trace.asked [⟨.poll job.pid, .returned none⟩, ⟨.terminate job.pid, o⟩] = [] := by
        rw [Trace.asked, List.filterMap_cons_none rfl, List.filterMap_cons_none hasked]
        rfl
      refine ⟨hnil, ?_, by simp [hnil]⟩
      rw [Trace.TellsAsked, hnil]
      cases announce <;> rfl
    refine .ask_bind (fun delivery => ?_) (fun f => ⟨(hsignal (.raised f) nofun).2, nofun⟩)
      ⟨(hsignal .never nofun).2, nofun⟩
    cases delivery with
    | delivered =>
      have honce : [job.pid].Sublist ([job].map Job.pid) := List.Sublist.refl _
      cases announce with
      | true =>
        refine .ask_bind (fun _ => .pure ⟨⟨rfl, honce⟩, ?_⟩) (fun _ => ⟨⟨rfl, honce⟩, nofun⟩)
          ⟨⟨rfl, honce⟩, nofun⟩
        rintro _ ⟨⟩
        rfl
      | false =>
        refine .pure ⟨⟨rfl, honce⟩, ?_⟩
        rintro _ ⟨⟩
        rfl
    | gone =>
      have hgone := hsignal (.returned .gone) nofun
      refine .pure ⟨hgone.2, ?_⟩
      rintro _ ⟨⟩
      exact hgone.1.symm
    | denied =>
      have hdenied := hsignal (.returned .denied) nofun
      have hwarned : ∀ e : Event, e.request.isMute = true → TellsOf announce [job]
          ([⟨.poll job.pid, .returned none⟩, ⟨.terminate job.pid, .returned .denied⟩] ++ [e]) :=
        fun e he => hdenied.2.append (tellsOf_of_mute [] (by simpa using he))
      refine .ask_bind (fun _ => .pure ⟨hwarned _ rfl, ?_⟩) (fun _ => ⟨hwarned _ rfl, nofun⟩)
        ⟨hwarned _ rfl, nofun⟩
      rintro _ ⟨⟩
      rfl

theorem terminateJobs_tell (announce : Bool) (list : List Job) :
    Ensures k (list.mapM (terminateJob announce)) s fun o _ es =>
      TellsOf announce list es ∧ ∀ bs, o = .returned bs → bs.filterMap id = es.asked := by
  induction list generalizing s with
  | nil =>
    refine .pure ⟨tellsOf_of_mute _ (Trace.only_nil _), ?_⟩
    rintro _ ⟨⟩
    rfl
  | cons job list ih =>
    -- a loop that is cut short has told of fewer jobs
    have hshort : ∀ {es : Trace}, TellsOf announce [job] es → TellsOf announce (job :: list) es :=
      fun h => ⟨h.1, h.2.trans (by simp)⟩
    rw [List.mapM_cons]
    refine (terminateJob_tells announce job).bind ?_ (fun _ _ _ h => ⟨hshort h.1, nofun⟩)
      fun _ _ h => ⟨hshort h.1, nofun⟩
    intro b s₁ es hfirst
    refine ih.bind ?_ (fun _ _ _ h => ⟨hfirst.1.append h.1, nofun⟩)
      fun _ _ h => ⟨hfirst.1.append h.1, nofun⟩
    intro bs s₂ es' hrest
    refine .pure ?_
    rw [List.append_nil]
    refine ⟨hfirst.1.append hrest.1, ?_⟩
    rintro _ ⟨⟩
    rw [Trace.asked_append, ← hfirst.2 b rfl, ← hrest.2 bs rfl]
    cases b <;> rfl

/-! ### All jobs -/

/-- A process was ended. -/
def Killed (pid : ProcessId) (es : Trace) : Prop := es = [⟨.kill pid, .returned ()⟩]

/-- The jobs that are left when those that have ended have been taken out. -/
def leftBy (reaping : Trace) (jobs : List Job) : List Job := reaping.looks.running jobs

/-- Ending all jobs step by step: taking out those that have ended, asking the others to end, ending
those that the grace wait has left alive, and waiting for all. -/
structure Steps (announce : Bool) (jobs : List Job) (reaping asking : Trace)
    (alive : List ProcessId) (killing waiting : Trace) : Prop where
  reaped : Dealt Job.pid LookedAt jobs reaping
  silent : reaping.printed = []
  asked : Dealt Job.pid AskedToEnd (leftBy reaping jobs) asking
  told : TellsOf announce (leftBy reaping jobs) asking
  killed : alive.Nodup → Dealt id Killed alive killing
  awaited : Dealt Job.pid WaitedFor (leftBy reaping jobs) waiting
  mute : Trace.Only Request.isMute (killing ++ waiting)

theorem reap_deals (hnodup : s.jobs.pids.Nodup) : Ensures k (reap false) s fun o s' es =>
    ∀ r, o = .returned r → Dealt Job.pid LookedAt s.jobs.list es ∧ es.printed = [] ∧
      s'.jobs.list = leftBy es s.jobs.list := by
  have hdeals : Ensures k (reap false) s fun o _ es =>
      ∀ r, o = .returned r → Dealt Job.pid LookedAt s.jobs.list es := by
    refine .session_bind ((mapM_deals hnodup fun job s => reapJob_alone false job).bind ?_
      (fun _ _ _ _ => nofun) fun _ _ _ => nofun)
    intro bs s' es h
    refine .pure fun _ _ => ?_
    rw [List.append_nil]
    exact h bs rfl
  refine (hdeals.and (reap_scans false hnodup)).mono ?_
  rintro o s' es ⟨hdealt, hscanned, -⟩ r hr
  have hsilent := hscanned.printed
  rw [announcements_false, List.prefix_nil] at hsilent
  exact ⟨hdealt r hr, hsilent, hscanned.jobs⟩

theorem kills_deal (alive : List ProcessId) : Ensures k (alive.forM kill) s fun o s' es =>
    s' = s ∧ es.Only Request.isMute ∧
      ∀ a, o = .returned a → alive.Nodup → Dealt id Killed alive es := by
  have hasks : Asks k Request.isMute (alive.forM kill) := .forM fun _ => .ask rfl
  by_cases hnodup : alive.Nodup
  · have hdeals : Ensures k (alive.forM kill) s fun o _ es =>
        ∀ a, o = .returned a → Dealt id Killed alive es :=
      forM_deals (by simpa using hnodup) fun pid s => kill_alone pid
    exact ((hasks s).and hdeals).mono fun _ _ _ h => ⟨h.1.1, h.1.2, fun a ha _ => h.2 a ha⟩
  · exact (hasks s).mono fun _ _ _ h => ⟨h.1, h.2, fun _ _ hn => absurd hn hnodup⟩

theorem awaitJobs_deal (list : List Job) (hnodup : (list.map Job.pid).Nodup) :
    Ensures k (list.forM awaitJob) s fun o s' es => s' = s ∧ es.Only Request.isMute ∧
      ∀ a, o = .returned a → Dealt Job.pid WaitedFor list es := by
  have hasks : Asks k Request.isMute (list.forM awaitJob) :=
    .forM fun job => awaitJob_asks rfl fun _ => rfl
  exact ((hasks s).and (forM_deals hnodup fun job s => awaitJob_alone job)).mono
    fun _ _ _ h => ⟨h.1.1, h.1.2, h.2⟩

theorem terminateAll_steps (announce : Bool) (hnodup : s.jobs.pids.Nodup) :
    Ensures k (terminateAll announce) s fun o s' es => ∀ a, o = .returned a → s'.jobs = {} ∧
      ∃ reaping asking alive killing waiting, es = reaping ++ (asking ++
        ⟨.survivors asking.asked, .returned alive⟩ :: (killing ++ waiting)) ∧
          Steps announce s.jobs.list reaping asking alive killing waiting := by
  refine (reap_deals hnodup).bind ?_ (fun _ _ _ _ => nofun) fun _ _ _ => nofun
  intro r s₁ reaping hreap
  obtain ⟨hreaping, hsilent, hleft⟩ := hreap r rfl
  have hnodup₁ : ((leftBy reaping s.jobs.list).map Job.pid).Nodup :=
    hnodup.sublist (List.filter_sublist.map _)
  refine .session_bind ?_
  rw [hleft]
  have hstays : Asks k (fun _ => true)
      ((leftBy reaping s.jobs.list).mapM (terminateJob announce)) :=
    .mapM fun job => terminateJob_asks announce rfl rfl rfl fun _ => rfl
  have hasking := ((hstays s₁).and (mapM_deals hnodup₁ fun job s =>
    terminateJob_alone announce job)).and (terminateJobs_tell announce _)
  refine hasking.bind ?_ (fun _ _ _ _ => nofun) fun _ _ _ => nofun
  rintro answers s₂ asking ⟨⟨⟨rfl, -⟩, hdealt⟩, htold, hasked⟩
  rw [hasked answers rfl]
  refine .ask_bind (fun alive => ?_) (fun _ => nofun) nofun
  refine (kills_deal alive).bind ?_ (fun _ _ _ _ => nofun) fun _ _ _ => nofun
  rintro _ s₃ killing ⟨rfl, hmute, hkilling⟩
  refine .session_bind ?_
  rw [hleft]
  refine (awaitJobs_deal _ hnodup₁).bind ?_ (fun _ _ _ _ => nofun) fun _ _ _ => nofun
  rintro _ s₄ waiting ⟨rfl, hmute', hwaiting⟩
  refine .modifySession fun _ _ => ⟨rfl, reaping, asking, alive, killing, waiting, ?_, ?_⟩
  · rw [List.append_nil]
  · exact ⟨hreaping, hsilent, hdealt answers rfl, htold, hkilling () rfl, hwaiting () rfl,
      Trace.only_append.2 ⟨hmute, hmute'⟩⟩

namespace Steps

variable {announce : Bool} {jobs : List Job} {reaping asking killing waiting : Trace}
  {alive : List ProcessId} {job : Job}

/-- The events of all steps. -/
abbrev events (reaping asking : Trace) (alive : List ProcessId) (killing waiting : Trace) : Trace :=
  reaping ++ (asking ++ ⟨.survivors asking.asked, .returned alive⟩ :: (killing ++ waiting))

/-- Where jobs are only looked at, no process is asked to end. -/
theorem asked_reaping (h : Steps announce jobs reaping asking alive killing waiting) :
    reaping.asked = [] := by
  refine List.eq_nil_iff_forall_not_mem.2 fun pid hpid => ?_
  have hevent := Trace.mem_asked.1 hpid
  by_cases hin : pid ∈ jobs.map Job.pid
  · obtain ⟨job, hjob, rfl⟩ := List.mem_map.1 hin
    obtain ⟨code, hlook⟩ := h.reaped.each job hjob
    rw [hlook] at hevent
    simp at hevent
  · rw [h.reaped.others pid hin] at hevent
    cases hevent

/-- All processes that are asked to end are asked before the grace wait. -/
theorem asked_events (h : Steps announce jobs reaping asking alive killing waiting) :
    (events reaping asking alive killing waiting).asked = asking.asked := by
  have hafter : Trace.asked (⟨.survivors asking.asked, .returned alive⟩ :: (killing ++ waiting)) =
      [] := Trace.asked_of_mute (Trace.only_cons.2 ⟨rfl, h.mute⟩)
  rw [Trace.asked_append, Trace.asked_append, h.asked_reaping, hafter, List.append_nil,
    List.nil_append]

theorem tellsAsked_events (h : Steps announce jobs reaping asking alive killing waiting) :
    (events reaping asking alive killing waiting).TellsAsked announce := by
  have hafter : Trace.TellsAsked announce
      (⟨.survivors asking.asked, .returned alive⟩ :: (killing ++ waiting)) :=
    Trace.tellsAsked_of_mute (Trace.only_cons.2 ⟨rfl, h.mute⟩)
  have hbefore : reaping.TellsAsked announce := by
    rw [Trace.TellsAsked, h.silent, h.asked_reaping]
    simp
  exact hbefore.append (h.told.1.append hafter)

/-- A process that no job is left of is left alone after the first step. -/
theorem about_of_not_left (h : Steps announce jobs reaping asking alive killing waiting)
    (hnodup : alive.Nodup) (hsub : alive ⊆ asking.asked) {pid : ProcessId}
    (hpid : pid ∉ (leftBy reaping jobs).map Job.pid) :
    (events reaping asking alive killing waiting).about pid = reaping.about pid := by
  have hasking := h.asked.others pid hpid
  have hnot : pid ∉ asking.asked := by
    intro hin
    have hevent := Trace.mem_asked.1 hin
    rw [hasking] at hevent
    cases hevent
  have halive : pid ∉ alive.map id := by
    rw [List.map_id]
    exact fun hin => hnot (hsub hin)
  have hgrace : Request.isAbout pid (.survivors asking.asked) = false := by
    simpa [Request.isAbout] using hnot
  rw [Trace.about_append, Trace.about_append, hasking, Trace.about_cons, if_neg (by simp [hgrace]),
    Trace.about_append, (h.killed hnodup).others pid halive, h.awaited.others pid hpid,
    List.nil_append, List.nil_append, List.append_nil]

/-- A job that had ended by the first look is not left, and any other one is. -/
theorem mem_left_iff (hjob : job ∈ jobs) {code : Option Int}
    (hlook : reaping.about job.pid = [⟨.poll job.pid, .returned code⟩]) :
    job ∈ leftBy reaping jobs ↔ code = none := by
  have hfound : reaping.looks.found job.pid = code := by
    rw [← Trace.found_about, hlook]
    exact Looks.found_cons_self ..
  rw [leftBy, Looks.running, List.mem_filter, hfound, Option.isNone_iff_eq_none]
  exact ⟨fun h => h.2, fun h => ⟨hjob, h⟩⟩

/-- What is done about a job that is left. -/
theorem escalation_of_left (h : Steps announce jobs reaping asking alive killing waiting)
    (hnodup : alive.Nodup) (hsub : alive ⊆ asking.asked) (hleft : job ∈ leftBy reaping jobs)
    (hlook : reaping.about job.pid = [⟨.poll job.pid, .returned none⟩]) :
    Escalation asking.asked alive job.pid
      ((events reaping asking alive killing waiting).about job.pid) := by
  obtain ⟨last, hwait⟩ := h.awaited.each job hleft
  have hasked : job.pid ∈ asking.asked ↔
      (⟨.terminate job.pid, .returned .delivered⟩ : Event) ∈ asking.about job.pid := Trace.mem_asked
  rw [Trace.about_append, Trace.about_append, hlook, Trace.about_cons, Trace.about_append, hwait]
  -- whether the process was asked to end is seen from what was done about it
  have hunasked : job.pid ∉ asking.asked →
      Request.isAbout job.pid (.survivors asking.asked) = false ∧ killing.about job.pid = [] := by
    intro hnot
    refine ⟨by simpa [Request.isAbout] using hnot, (h.killed hnodup).others _ ?_⟩
    rw [List.map_id]
    exact fun hin => hnot (hsub hin)
  rcases h.asked.each job hleft with ⟨code, hask⟩ | ⟨delivery, hask⟩
  · rw [hask] at hasked ⊢
    obtain ⟨hgrace, hkill⟩ := hunasked (by simp [hasked])
    rw [if_neg (by simp [hgrace]), hkill]
    exact .exited
  · rw [hask] at hasked ⊢
    by_cases hdelivered : delivery = .delivered
    · subst hdelivered
      have hin : job.pid ∈ asking.asked := by simp [hasked]
      have hgrace : Request.isAbout job.pid (.survivors asking.asked) = true := by
        simpa [Request.isAbout] using hin
      rw [if_pos hgrace]
      by_cases halive : job.pid ∈ alive
      · have hkill : killing.about job.pid = [⟨.kill job.pid, .returned ()⟩] :=
          (h.killed hnodup).each job.pid halive
        rw [hkill]
        exact .killed halive
      · have hkill : killing.about job.pid = [] :=
          (h.killed hnodup).others job.pid (by simpa using halive)
        rw [hkill]
        exact .ended halive
    · have hnot : job.pid ∉ asking.asked := by
        intro hin
        rcases List.mem_cons.1 (hasked.1 hin) with heq | hin
        · cases heq
        · cases List.mem_singleton.1 hin
          exact hdelivered rfl
      obtain ⟨hgrace, hkill⟩ := hunasked hnot
      rw [if_neg (by simp [hgrace]), hkill]
      exact .unreached hdelivered

theorem escalation (h : Steps announce jobs reaping asking alive killing waiting)
    (hjobs : (jobs.map Job.pid).Nodup) (hnodup : alive.Nodup) (hsub : alive ⊆ asking.asked)
    (hjob : job ∈ jobs) : Escalation asking.asked alive job.pid
      ((events reaping asking alive killing waiting).about job.pid) := by
  obtain ⟨code, hlook⟩ := h.reaped.each job hjob
  cases code with
  | none => exact h.escalation_of_left hnodup hsub ((mem_left_iff hjob hlook).2 rfl) hlook
  | some code =>
    have hleft : job.pid ∉ (leftBy reaping jobs).map Job.pid := by
      intro hin
      obtain ⟨other, hother, heq⟩ := List.mem_map.1 hin
      have hsame : other = job :=
        List.inj_on_of_nodup_map hjobs (List.mem_of_mem_filter hother) hjob heq
      rw [hsame, mem_left_iff hjob hlook] at hother
      cases hother
    rw [h.about_of_not_left hnodup hsub hleft, hlook]
    exact .reaped

/-- Nothing is done about a process that no job is of. -/
theorem about_of_stranger (h : Steps announce jobs reaping asking alive killing waiting)
    (hnodup : alive.Nodup) (hsub : alive ⊆ asking.asked) {pid : ProcessId}
    (hpid : pid ∉ jobs.map Job.pid) :
    (events reaping asking alive killing waiting).about pid = [] := by
  have hleft : pid ∉ (leftBy reaping jobs).map Job.pid := by
    intro hin
    exact hpid ((List.filter_sublist.map Job.pid).subset hin)
  rw [h.about_of_not_left hnodup hsub hleft, h.reaped.others pid hpid]

end Steps

end Shell

/-! ### What comes of all jobs -/

/-- The grace waits of a kernel tell which processes have not ended: each of them once, none that
was not waited for, and all of them live when the wait ends. -/
def Watchful (k : Kernel σ) (lives : σ → ProcessId → Prop) : Prop :=
  ∀ (pids alive : List ProcessId) out out',
    k.answer (.survivors pids) out = (.returned alive, out') →
      (pids.Nodup → alive.Nodup) ∧ alive ⊆ pids ∧ ∀ pid ∈ alive, lives out' pid

/-- All jobs have been made to end, with some processes alive after the grace wait. -/
structure Escalates (k : Kernel σ) (lives : σ → ProcessId → Prop) (announce : Bool)
    (jobs : List Job) (alive : List ProcessId) (out : σ) (es : Trace) : Prop where
  /-- Each job is dealt with in one of five ways. -/
  treated : ∀ job ∈ jobs, Escalation es.asked alive job.pid (es.about job.pid)
  /-- Nothing is done about any other process. -/
  strangers : ∀ pid, pid ∉ jobs.map Job.pid → es.about pid = []
  /-- One grace wait is for all that were asked to end, and those it leaves live when it ends. -/
  grace : ∃ (before after : Trace) (mid : σ),
    es = before ++ ⟨.survivors es.asked, .returned alive⟩ :: after ∧
      k.Follows out (before ++ [⟨.survivors es.asked, .returned alive⟩]) mid ∧
        ∀ pid ∈ alive, lives mid pid
  /-- There is a line for each process that was asked to end, in order, if anybody listens. -/
  told : es.TellsAsked announce
  /-- Each process has been seen to exit, unless the last wait for it was in vain. -/
  observed : ∀ job ∈ jobs,
    job.pid ∈ es.exits ∨ (⟨.waitBriefly job.pid, .returned none⟩ : Event) ∈ es

/-- A host answers truly which processes have not ended. -/
theorem Host.kernel_watchful {S : Type} (h : Host S) :
    Watchful h.kernel fun m pid => m.hasExited pid = false := by
  intro pids alive m m' hanswer
  change (Outcome.returned (pids.filter fun pid => !(h.settle h.patience m).hasExited pid),
    h.settle h.patience m) = (Outcome.returned alive, m') at hanswer
  cases hanswer
  refine ⟨fun hnodup => hnodup.filter _, List.filter_subset_self _, ?_⟩
  intro pid hpid
  simpa using (List.mem_filter.1 hpid).2

/-- A host whose programs take a signal to end in different ways. -/
def unrulyHost : Host Host.Scripted where
  programs := Host.Scripted.programs [("a", { status := 3 }), ("b", { lingers := true }),
    ("c", { lingers := true, manner := .ignores }), ("d", { lingers := true, manner := .gone }),
    ("e", { lingers := true, manner := .denies })]
  patience := 80

/-- That host with a process of each program. -/
def unrulyMachine : Host.Machine Host.Scripted :=
  ["a", "b", "c", "d", "e"].foldl
    (fun m name => (unrulyHost.spawn m [name] rootSession.cwd {}).2) {}

/-- A session with each of these processes as a job. -/
def unrulySession : Session :=
  { rootSession with jobs := ⟨["a", "b", "c", "d", "e"].zipIdx.map
    fun (name, i) => ⟨i + 1, name, false⟩⟩ }

/-- All these jobs are made to end. -/
def unrulyRun : Outcome Unit × World (Host.Machine Host.Scripted × Trace) :=
  terminateAll true unrulyHost.kernel.traced ⟨unrulySession, (unrulyMachine, [])⟩

end LineShell
