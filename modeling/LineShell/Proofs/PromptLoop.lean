import LineShell.Proofs.PromptTurns

namespace LineShell

open Shell

/-!
# The prompt loop as a fold

A run of the prompt loop sets up the line editor, takes one turn after another, and does what there
is to be done on leaving.

* `Trace.Mild` — nothing was met but faults that are only worth a warning;
* `Withstands` — a run that returns if it meets nothing else;
* `opening` — what comes before the first prompt;
* `Saved`, `Parting`, `leave_parts` — what is done when the loop has been left;
* `Fold` — what the turns come to, `Folds`, `serve_folds` — how a whole run goes.
-/

variable {σ α β : Type} {k : Kernel σ} {s : Session}

/-! ### Faults that are only worth a warning -/

/-- Whether it is only worth a warning that a request has met a fault. -/
def Request.warnsOf : Request → Fault → Bool
  | .bindKey _, f => isError f
  | .exists _, f | .readHistory _, f | .limitHistory _, f | .historyLength, f
  | .writeHistory _, f => f.isIo
  | _, _ => false

theorem Request.warnsOf_of_not_isEditing {r : Request} (h : (!r.isEditing) = true) (f : Fault) :
    r.warnsOf f = false := by
  cases r <;> first | rfl | cases h

namespace Trace

variable {es es' : Trace}

/-- All requests have returned, or met faults that are only worth a warning. -/
def Mild (es : Trace) : Prop := ∀ e ∈ es, (∃ a, e.outcome = .returned a) ∨
  ∃ f, e.outcome = .raised f ∧ e.request.warnsOf f = true

theorem mild_append : Mild (es ++ es') ↔ es.Mild ∧ es'.Mild := List.forall_mem_append

/-- Only of requests for the line editor a fault is no more than that. -/
theorem Mild.smooth (h : es.Mild) (hes : es.Only fun r => !r.isEditing) : es.Smooth := by
  intro e he
  rcases h e he with hreturned | ⟨f, -, hwarns⟩
  · exact hreturned
  · rw [Request.warnsOf_of_not_isEditing (hes e he)] at hwarns
    cases hwarns

end Trace

/-- The run returns if it meets nothing but faults that are only worth a warning, or else it raises
a fault of some kind. -/
def Withstands (k : Kernel σ) (E : Fault → Bool) (x : Shell (σ × Trace) α) : Prop :=
  ∀ s, Ensures k x s fun o _ es => es.Mild →
    (∃ a, o = .returned a) ∨ ∃ f, o = .raised f ∧ E f = true

namespace Withstands

variable {E : Fault → Bool} {x : Shell (σ × Trace) α} {f : α → Shell (σ × Trace) β}

theorem pure (a : α) : Withstands k E (Pure.pure a) := fun _ => .pure fun _ => .inl ⟨a, rfl⟩

theorem ask {r : Request} (h : ∀ f, r.warnsOf f = true → E f = true) :
    Withstands k E (Shell.ask r) := by
  refine fun s => .ask fun o hmild => ?_
  exact (hmild _ List.mem_cons_self).imp_right fun ⟨f, hf, hwarns⟩ => ⟨f, hf, h f hwarns⟩

/-- No fault of the request is only worth a warning. -/
theorem ask_sure {r : Request} (h : ∀ f, r.warnsOf f = false) : Withstands k E (Shell.ask r) := by
  refine ask fun f hf => ?_
  rw [h f] at hf
  cases hf

theorem bind (hx : Withstands k E x) (hf : ∀ a, Withstands k E (f a)) : Withstands k E (x >>= f) := by
  refine fun s => (hx s).bind (fun a s' es _ => (hf a s').mono fun o s'' es' h hmild => ?_)
    (fun e s' es h hmild => ?_) fun s' es h hmild => ?_
  · exact h (Trace.mild_append.1 hmild).2
  · obtain ⟨a, ha⟩ | ⟨g, hg, hE⟩ := h hmild
    · cases ha
    · cases hg
      exact .inr ⟨e, rfl, hE⟩
  · obtain ⟨a, ha⟩ | ⟨g, hg, -⟩ := h hmild
    · cases ha
    · cases hg

/-- Faults that are handled are no longer in the way. -/
theorem handle {handles : Fault → Bool} {g : Fault → Shell (σ × Trace) α}
    (hx : Withstands k handles x) (hg : ∀ f, Withstands k E (g f)) :
    Withstands k E (x.handle handles g) := by
  refine fun s => (hx s).attempt_bind (fun a s' es _ => .pure fun _ => .inl ⟨a, rfl⟩)
    (fun e s' es h => ?_) fun s' es h hmild => ?_
  · show Ensures k (if handles e then g e else Shell.raise e) s' _
    cases he : handles e with
    | true =>
      exact (hg e s').mono fun o s'' es' h' hmild => h' (Trace.mild_append.1 hmild).2
    | false =>
      refine .raise fun hmild => ?_
      obtain ⟨a, ha⟩ | ⟨g', hg', hhandles⟩ := h (Trace.mild_append.1 hmild).1
      · cases ha
      · cases hg'
        rw [he] at hhandles
        cases hhandles
  · obtain ⟨a, ha⟩ | ⟨g', hg', -⟩ := h hmild
    · cases ha
    · cases hg'

theorem forM {l : List α} {g : α → Shell (σ × Trace) Unit} (hg : ∀ a, Withstands k E (g a)) :
    Withstands k E (l.forM g) := by
  induction l with
  | nil => exact pure ()
  | cons a l ih => exact (hg a).bind fun _ => ih

end Withstands

namespace Shell

/-! ### Before the first prompt -/

/-- What comes before the first prompt: the line editor is set up, if the settings say so. -/
def opening (settings : Settings) : Shell σ Unit :=
  if settings.useHistory then do
    initEditor
    loadHistory settings.historyFile settings.historySize
  else pure ()

theorem initEditor_withstands : Withstands k (fun _ => false) initEditor := by
  refine (Withstands.ask_sure fun _ => rfl).bind fun available => ?_
  cases available with
  | false => exact .pure ()
  | true =>
    refine (Withstands.ask_sure fun _ => rfl).bind fun terminal => ?_
    cases terminal with
    | false => exact .pure ()
    | true => exact (Withstands.forM fun _ => .ask fun _ h => h).handle fun _ => .ask_sure fun _ => rfl

theorem loadHistory_withstands (path : String) (size : Int) :
    Withstands k (fun _ => false) (loadHistory path size) := by
  have hlimit : Withstands k Fault.isIo (do
      limitHistory size
      debug .history ("loaded " ++ toString (← historyLength) ++ " history entries from " ++ path) :
        Shell (σ × Trace) Unit) :=
    (Withstands.ask fun _ h => h).bind fun _ => (Withstands.ask fun _ h => h).bind fun _ => .ask_sure fun _ => rfl
  refine (Withstands.ask_sure fun _ => rfl).bind fun available => ?_
  cases available with
  | false => exact .pure ()
  | true =>
    refine ((Withstands.ask fun _ h => h).bind fun found => ?_).handle fun _ => .ask_sure fun _ => rfl
    cases found with
    | false => exact hlimit
    | true => exact (Withstands.ask fun _ h => h).bind fun _ => hlimit

/-- **Before the first prompt** the user is not asked, and the session stays as it is. The first
prompt is come to, unless setting up the line editor meets a fault that is worth more than a
warning. -/
theorem opening_opens (settings : Settings) : Ensures k (opening settings) s fun o s' es =>
    s' = s ∧ es.Only Request.isSetup ∧
      (o ≠ .returned () → settings.useHistory = true ∧ ¬ es.Mild) := by
  unfold opening
  split
  · rename_i huse
    have hasks : Asks k Request.isSetup (do
        initEditor
        loadHistory settings.historyFile settings.historySize : Shell (σ × Trace) Unit) :=
      initEditor_asks.bind fun _ => loadHistory_asks _ _
    have hwithstands : Withstands k (fun _ => false) (do
        initEditor
        loadHistory settings.historyFile settings.historySize : Shell (σ × Trace) Unit) :=
      initEditor_withstands.bind fun _ => loadHistory_withstands _ _
    refine ((hasks s).and (hwithstands s)).mono ?_
    rintro o s' es ⟨⟨hs, hes⟩, h⟩
    refine ⟨hs, hes, fun hnot => ⟨huse, fun hmild => ?_⟩⟩
    obtain ⟨a, ha⟩ | ⟨f, -, hf⟩ := h hmild
    · exact hnot ha
    · cases hf
  · exact .pure ⟨rfl, Trace.only_nil _, fun h => absurd rfl h⟩

end Shell

theorem Trace.Quiet.of_setup {es : Trace} (h : es.Only Request.isSetup) : es.Quiet := by
  refine of_only (h.mono fun r hr => ?_)
  cases r <;> first | rfl | cases hr

/-! ### Leaving -/

/-- Whether a request is one of those that it takes to end jobs. -/
def Request.isEnding : Request → Bool
  | .poll _ | .terminate _ | .survivors _ | .kill _ | .waitBriefly _ | .print _ | .log _ => true
  | _ => false

theorem Request.isEnding_of_isOwn {r : Request} (h : (r.isOwn && !r.isEditing) = true) :
    r.isEnding = true := by
  cases r <;> first | rfl | cases h

theorem Request.not_isEditing_of_isEnding {r : Request} (h : r.isEnding = true) :
    (!r.isEditing) = true := by
  cases r <;> first | rfl | cases h

/-- The line editor was told how many lines to keep, and if it takes that, the lines were written to
the file once. -/
def Trace.Writes (path : String) (size : Int) (es : Trace) : Prop :=
  es.saves <+: [path] ∧
    ∃ o, (⟨.limitHistory size, o⟩ : Event) ∈ es ∧ (o = .returned () → es.saves = [path])

/-- What comes after is not about the line editor. -/
theorem Trace.Writes.append {path : String} {size : Int} {es es' : Trace}
    (h : es.Writes path size) (h' : es'.Only fun r => !r.isEditing) :
    Writes path size (es ++ es') := by
  obtain ⟨hbegins, o, ho, hreturned⟩ := h
  rw [Writes, saves_append, (Quiet.of_no_editing h').saves, List.append_nil]
  exact ⟨hbegins, o, List.mem_append_left _ ho, hreturned⟩

/-- The typed lines were saved, if the line editor is available. -/
structure Saves (path : String) (size : Int) (es : Trace) : Prop where
  available : (⟨.editorAvailable, .returned true⟩ : Event) ∈ es → es.Writes path size
  unavailable : (⟨.editorAvailable, .returned true⟩ : Event) ∉ es → es.saves = []

theorem Saves.append {path : String} {size : Int} {es es' : Trace} (h : Saves path size es)
    (h' : es'.Only fun r => !r.isEditing) : Saves path size (es ++ es') where
  available hmem := by
    rcases List.mem_append.1 hmem with hmem | hmem
    · exact (h.available hmem).append h'
    · cases h' _ hmem
  unavailable hnot := by
    rw [Trace.saves_append, (Trace.Quiet.of_no_editing h').saves,
      h.unavailable fun hmem => hnot (List.mem_append_left _ hmem)]
    rfl

/-- What is done when the loop has been left. -/
structure Parting (s : Session) (o : Outcome Unit) (s' : Session) (es : Trace) : Prop where
  /-- The user is not asked any more. -/
  unheard : es.inputs = []
  saved : s.settings.useHistory = true →
    Saves s.settings.historyFile s.settings.historySize es
  unsaved : s.settings.useHistory = false → es.saves = []
  kept : s.settings.terminateOnExit = false → s' = s
  /-- The registry is emptied, and each job has been seen to exit or asked to end. -/
  cleared : s.settings.terminateOnExit = true → o = .returned () →
    s'.jobs = {} ∧ ∀ pid, s.jobs.contains pid = true → es.Ends pid
  returns : es.Mild → o = .returned ()

namespace Shell

/-- The lines are written only after their number has been taken. -/
theorem writeTypedLines_writes (path : String) (size : Int) :
    Ensures k (writeTypedLines path size) s fun _ s' es =>
      s' = s ∧ es.inputs = [] ∧ es.Writes path size := by
  have hfailed : ∀ o : Outcome Unit, o ≠ .returned () →
      Trace.Writes path size [⟨.limitHistory size, o⟩] := fun o ho =>
    ⟨List.nil_prefix, o, List.mem_cons_self, fun h => absurd h ho⟩
  exact .ask_bind
    (fun _ => .ask fun _ => ⟨rfl, rfl, List.prefix_rfl, _, List.mem_cons_self, fun _ => rfl⟩)
    (fun _ => ⟨rfl, rfl, hfailed _ nofun⟩) ⟨rfl, rfl, hfailed _ nofun⟩

theorem saveHistory_saves (path : String) (size : Int) :
    Ensures k (saveHistory path size) s fun _ s' es =>
      s' = s ∧ es.inputs = [] ∧ Saves path size es := by
  have hunavailable : ∀ o : Outcome Bool, o ≠ .returned true →
      Saves path size [⟨.editorAvailable, o⟩] := by
    refine fun o ho => ⟨fun hmem => ?_, fun _ => rfl⟩
    cases List.mem_singleton.1 hmem
    exact absurd rfl ho
  have hsaves : ∀ {es : Trace}, es.Writes path size →
      Saves path size (⟨.editorAvailable, .returned true⟩ :: es) := by
    rintro es ⟨hbegins, o, ho, hreturned⟩
    exact ⟨fun _ => ⟨hbegins, o, List.mem_cons_of_mem _ ho, hreturned⟩,
      fun hnot => absurd List.mem_cons_self hnot⟩
  refine .ask_bind (fun available => ?_) (fun f => ⟨rfl, rfl, hunavailable _ nofun⟩)
    ⟨rfl, rfl, hunavailable _ nofun⟩
  cases available with
  | false => exact .pure ⟨rfl, rfl, hunavailable _ nofun⟩
  | true =>
    refine (writeTypedLines_writes path size).attempt_bind ?_ ?_
      fun s' es h => ⟨h.1, h.2.1, hsaves h.2.2⟩
    · rintro _ s' es ⟨rfl, hinputs, hwrites⟩
      refine .pure ?_
      rw [List.append_nil]
      exact ⟨rfl, hinputs, hsaves hwrites⟩
    · rintro f s' es ⟨rfl, hinputs, hwrites⟩
      show Ensures k (if f.isIo then warn _ else raise f) s' _
      split
      · refine .ask fun o => ⟨rfl, ?_, hsaves (hwrites.append ?_)⟩
        · show Trace.inputs (es ++ _) = []
          rw [Trace.inputs_append, hinputs]
          rfl
        · exact Trace.only_cons.2 ⟨rfl, Trace.only_nil _⟩
      · refine .raise ?_
        rw [List.append_nil]
        exact ⟨rfl, hinputs, hsaves hwrites⟩

theorem saveHistory_withstands (path : String) (size : Int) :
    Withstands k (fun _ => false) (saveHistory path size) := by
  refine (Withstands.ask_sure fun _ => rfl).bind fun available => ?_
  cases available with
  | false => exact .pure ()
  | true =>
    refine Withstands.handle ?_ fun _ => .ask_sure fun _ => rfl
    exact (Withstands.ask fun _ h => h).bind fun _ => .ask fun _ h => h

/-- Ending all jobs takes no more than looking at them, asking them to end, and telling of it. -/
theorem terminateAll_tends (announce : Bool) :
    Tends k Request.isEnding (terminateAll announce) := by
  have hjob : ∀ job, Asks k Request.isEnding (terminateJob announce job) := fun job =>
    terminateJob_asks announce rfl rfl rfl fun _ => rfl
  have hawait : ∀ job, Asks k Request.isEnding (awaitJob job) := fun job =>
    awaitJob_asks rfl fun _ => rfl
  have hreap : Tends k Request.isEnding (reap false) := fun s =>
    (reap_tends false s).mono fun _ _ _ h => ⟨h.1, h.2.mono fun _ => Request.isEnding_of_isOwn⟩
  exact hreap.bind fun _ => .session_bind fun _ => (Tends.mapM fun job => .of_asks (hjob job)).bind
    fun asked => (Tends.ask rfl).bind fun alive => (Tends.of_asks (.forM fun _ => .ask rfl)).bind
      fun _ => .session_bind fun _ => (Tends.of_asks (.forM hawait)).bind fun _ => .modifyJobs _

/-- The jobs are ended on leaving, if the settings say so. -/
theorem endJobs_ensures (terminates : Bool) :
    Ensures k (if terminates then terminateAll true else pure ()) s fun o s' es =>
      es.Only (fun r => !r.isEditing) ∧ (terminates = false → s' = s) ∧
        (terminates = true → o = .returned () →
          s'.jobs = {} ∧ ∀ pid, s.jobs.contains pid = true → es.Ends pid) ∧
        (es.Mild → o = .returned ()) := by
  cases terminates with
  | false => exact .pure ⟨Trace.only_nil _, fun _ => rfl, nofun, fun _ => rfl⟩
  | true =>
    refine (((terminateAll_ends true).and (terminateAll_tends true s)).and
      (terminateAll_faithful true s)).mono ?_
    rintro o s' es ⟨⟨⟨-, hends⟩, -, hes⟩, hiff⟩
    have hes := hes.mono fun _ => Request.not_isEditing_of_isEnding
    refine ⟨hes, nofun, fun _ ho => hends () ho, fun hmild => ?_⟩
    obtain ⟨a, ha⟩ := hiff.2 (hmild.smooth hes)
    exact ha

/-- **Leaving** saves the typed lines and ends the jobs, each as far as the settings say so. -/
theorem leave_parts : Ensures k leave s (Parting s) := by
  refine .session_bind ?_
  show Ensures k (if s.settings.useHistory then saveHistory _ _ >>= fun _ =>
    (if s.settings.terminateOnExit then terminateAll true else pure ()) else
      (if s.settings.terminateOnExit then terminateAll true else pure ())) s _
  cases huse : s.settings.useHistory with
  | false =>
    refine (endJobs_ensures s.settings.terminateOnExit).mono ?_
    rintro o s' es ⟨hes, hkept, hcleared, hreturns⟩
    have hquiet : es.Quiet := .of_no_editing hes
    refine ⟨hquiet.inputs, fun h => ?_, fun _ => hquiet.saves, hkept, hcleared, hreturns⟩
    rw [huse] at h
    cases h
  | true =>
    have hnot : s.settings.useHistory ≠ false := by
      rw [huse]
      decide
    -- a saving that breaks off has met a fault that is worth more than a warning
    have hbroken : ∀ {o : Outcome Unit} {s' : Session} {es : Trace},
        (s' = s ∧ es.inputs = [] ∧ Saves s.settings.historyFile s.settings.historySize es) →
          (es.Mild → (∃ a, o = .returned a) ∨ ∃ f, o = .raised f ∧ false = true) →
            o ≠ .returned () → Parting s o s' es := by
      rintro o s' es ⟨hs, hinputs, hsaves⟩ hwithstands hfailed
      refine ⟨hinputs, fun _ => hsaves, fun h => absurd h hnot, fun _ => hs,
        fun _ ho => absurd ho hfailed, fun hmild => ?_⟩
      obtain ⟨a, ha⟩ | ⟨f, -, hf⟩ := hwithstands hmild
      · exact ha
      · cases hf
    refine ((saveHistory_saves _ _).and (saveHistory_withstands _ _ s)).bind ?_
      (fun f s' es h => hbroken h.1 h.2 nofun) fun s' es h => hbroken h.1 h.2 nofun
    rintro a s₁ es ⟨⟨rfl, hinputs, hsaves⟩, -⟩
    refine (endJobs_ensures s₁.settings.terminateOnExit).mono ?_
    rintro o s' es' ⟨hes', hkept, hcleared, hreturns⟩
    refine ⟨?_, fun _ => hsaves.append hes', fun h => absurd h hnot, hkept, fun hterm ho => ?_,
      fun hmild => hreturns (Trace.mild_append.1 hmild).2⟩
    · rw [Trace.inputs_append, hinputs, (Trace.Quiet.of_no_editing hes').inputs]
      rfl
    · obtain ⟨hjobs, hends⟩ := hcleared hterm ho
      exact ⟨hjobs, fun pid hpid => Trace.ends_append.2 (.inr (hends pid hpid))⟩

end Shell

/-! ### Whole runs -/

/-- What the turns come to, from the first prompt to where the loop is left or breaks off. -/
structure Fold (k : Kernel σ) (user : String) (s : Session) (ts : List (Turn (σ × Trace)))
    (loop : Outcome Unit) (w : World (σ × Trace)) : Prop where
  /-- One turn comes after another. Before the first one nobody was asked for anything but the line
  editor. -/
  turns : ∃ w₀ : World (σ × Trace), w₀.session = s ∧ w₀.outside.2.Only Request.isSetup ∧
    Turns k.traced user k.bound w₀ ts loop w
  sound : ∀ t ∈ ts, t.Sound k user
  inputs : w.outside.2.inputs = ts.map Turn.input
  saves : w.outside.2.saves = []
  settings : w.session.settings = s.settings
  /-- Whatever script the inputs begin, its lines are handled in order. Once the user has left, all
  of them have been, and nothing behind has been heard. -/
  calls : ∀ script, w.outside.2.inputs <+: script → Turn.calls ts <+: handledLines script ∧
    (loop = .returned () → Turn.calls ts = handledLines script ∧
      w.outside.2.inputs = heard script)
  breaks : loop ≠ .returned () → BreaksOff k.bound ts loop w

/-- How a run ends, after its loop and the leaving have ended in such ways. -/
def exitFrom : Outcome Unit → Outcome Unit → Outcome Int
  | .returned _, .returned _ => .returned 0
  | .raised f, .returned _ => .raised f
  | .never, _ | _, .never => .never
  | _, .raised f => .raised f

/-- How a run of the prompt loop goes. -/
inductive Folds (k : Kernel σ) (user : String) (s : Session) :
    Outcome Int → World (σ × Trace) → Prop
  /-- Setting up the line editor has met a fault that is worth more than a warning. The user was not
  asked. -/
  | unopened {o : Outcome Int} {w : World (σ × Trace)} : s.settings.useHistory = true →
    ¬ w.outside.2.Mild → w.outside.2.Only Request.isSetup → w.session = s →
    (∀ n, o ≠ .returned n) → Folds k user s o w
  /-- The loop was not left. -/
  | endless {ts : List (Turn (σ × Trace))} {w : World (σ × Trace)} : Fold k user s ts .never w →
    Folds k user s .never w
  /-- The loop was left, by the user or by a fault. -/
  | left {ts : List (Turn (σ × Trace))} {loop leaving : Outcome Unit} {w₁ w : World (σ × Trace)}
    {es : Trace} : Fold k user s ts loop w₁ → loop ≠ .never →
    w.outside.2 = w₁.outside.2 ++ es → Parting w₁.session leaving w.session es →
    Folds k user s (exitFrom loop leaving) w

namespace Shell

theorem serve_opening (user : String) : (serve user : Shell σ Int) = (do
    opening (← session).settings
    let rounds ← bound
    let result ← (serveLines user rounds).attempt
    leave
    match result with
    | .ok _ => return 0
    | .error f => raise f) := by
  unfold serve opening
  congr 1
  funext s
  cases huse : s.settings.useHistory with
  | true =>
    simp only [huse, if_true]
    exact (bind_assoc _ _ _).symm
  | false =>
    simp only [huse, Bool.false_eq_true, if_false]
    exact (pure_bind _ _).symm

/-- A run comes to its first prompt or not, its loop is left or not, and then it is left. -/
theorem serve_run {user : String} {w w' : World σ} {o : Outcome Int}
    (hrun : serve user k w = (o, w')) :
    (∃ opened, opening w.session.settings k w = (opened, w') ∧ opened ≠ .returned () ∧
      ∀ n, o ≠ .returned n) ∨
    ∃ w₀ loop w₁, opening w.session.settings k w = (.returned (), w₀) ∧
      serveLines user k.bound k w₀ = (loop, w₁) ∧
        ((loop = .never ∧ o = .never ∧ w' = w₁) ∨
          loop ≠ .never ∧ ∃ leaving, leave k w₁ = (leaving, w') ∧ o = exitFrom loop leaving) := by
  rw [serve_opening, bind_run, session_run] at hrun
  dsimp only at hrun
  rw [bind_run] at hrun
  rcases hopen : opening w.session.settings k w with ⟨opened, w₀⟩
  rw [hopen] at hrun
  cases opened with
  | raised f =>
    cases hrun
    exact .inl ⟨_, rfl, by simp, by simp⟩
  | never =>
    cases hrun
    exact .inl ⟨_, rfl, by simp, by simp⟩
  | returned _ =>
    change ((serveLines user k.bound).attempt >>= _) k w₀ = _ at hrun
    rw [bind_run, attempt] at hrun
    rcases hloop : serveLines user k.bound k w₀ with ⟨loop, w₁⟩
    rw [hloop] at hrun
    refine .inr ⟨w₀, loop, w₁, rfl, hloop, ?_⟩
    rcases hleave : leave k w₁ with ⟨leaving, w₂⟩
    cases loop with
    | never =>
      cases hrun
      exact .inl ⟨rfl, rfl, rfl⟩
    | returned _ | raised f =>
      change (leave >>= _) k w₁ = _ at hrun
      rw [bind_run, hleave] at hrun
      refine .inr ⟨by simp, leaving, ?_⟩
      cases leaving <;> cases hrun <;> exact ⟨rfl, rfl⟩

end Shell

theorem Turns.fold {user : String} {w₀ w : World (σ × Trace)} {ts : List (Turn (σ × Trace))}
    {loop : Outcome Unit} (h : Turns k.traced user k.bound w₀ ts loop w)
    (hnodup : w₀.session.jobs.pids.Nodup) (hsetup : w₀.outside.2.Only Request.isSetup) :
    Fold k user w₀.session ts loop w := by
  obtain ⟨hsound, hhears, hbreaks⟩ := h.sound hnodup
  have hinputs : w.outside.2.inputs = ts.map Turn.input := by
    rw [hhears.inputs, (Trace.Quiet.of_setup hsetup).inputs, List.nil_append]
  refine ⟨⟨w₀, rfl, hsetup, h⟩, hsound, hinputs, ?_, hhears.settings, ?_, hbreaks⟩
  · rw [hhears.saves, (Trace.Quiet.of_setup hsetup).saves]
  · rw [hinputs]
    exact fun script hscript => h.calls hscript

/-- **The prompt loop is a fold over what the user enters.** -/
theorem serve_folds {user : String} {out : σ} {o : Outcome Int} {w : World (σ × Trace)}
    (hnodup : s.jobs.pids.Nodup)
    (hrun : serve user k.traced ⟨s, (out, [])⟩ = (o, w)) : Folds k user s o w := by
  rcases serve_run hrun with ⟨opened, hopen, hnot, ho⟩ | ⟨w₀, loop, w₁, hopen, hloop, hend⟩
  · obtain ⟨es, hes, hs, hsetup, hfailed⟩ := (opening_opens s.settings).run_from hopen
    obtain rfl : w.outside.2 = es := hes
    obtain ⟨huse, hmild⟩ := hfailed hnot
    exact .unopened huse hmild hsetup hs ho
  · obtain ⟨es, hes, rfl, hsetup, -⟩ := (opening_opens s.settings).run_from hopen
    obtain rfl : w₀.outside.2 = es := hes
    -- the session is still the one that the loop was to start with
    obtain ⟨ts, hturns⟩ := serveLines_turns hloop
    have hfold := hturns.fold hnodup hsetup
    rcases hend with ⟨rfl, rfl, rfl⟩ | ⟨hleft, leaving, hleave, rfl⟩
    · exact .endless hfold
    · obtain ⟨es', hes', hparting⟩ := leave_parts.run_from hleave
      exact .left hfold hleft hes' hparting

/-- A session that keeps so many typed lines. -/
def typingSession (size : Int) : Session :=
  { lingeringSession with settings := { historyFile := "", historySize := size } }

/-- The prompt loop from there, with a user who does these things. -/
def typingRun (size : Int) (deeds : List Host.Deed) :
    Outcome Int × World (Host.Machine Host.Scripted × Trace) :=
  serve "u" lingeringHost.kernel.traced ⟨typingSession size, ({ terminal := { deeds } }, [])⟩

/-- A line in the background, an interrupt, a blank line, a line that is handled, and the end. What
would come behind is not heard. -/
def typed : List Host.Deed :=
  [.enters "a &", .interrupts, .enters " ", .enters "b", .enters " exit", .enters "c"]

/-- The user is heard until he leaves, and his two lines are handled. -/
theorem serve_folds_typed : (typingRun 10 typed).1 = .returned 0 ∧
    (typingRun 10 typed).2.outside.2.inputs =
      [.line "a &", .interrupt, .line " ", .line "b", .line " exit"] ∧
    (typingRun 10 typed).2.outside.2.saves = [""] ∧
    (typingRun 10 typed).2.session.jobs = {} ∧
    Folds lingeringHost.kernel "u" (typingSession 10) (typingRun 10 typed).1
      (typingRun 10 typed).2 := by
  have hruns : (typingRun 10 typed).1 = .returned 0 ∧
      (typingRun 10 typed).2.outside.2.inputs =
        [.line "a &", .interrupt, .line " ", .line "b", .line " exit"] ∧
      (typingRun 10 typed).2.outside.2.saves = [""] ∧
      (typingRun 10 typed).2.session.jobs = {} := by
    decide +kernel
  have hrun : serve "u" lingeringHost.kernel.traced
      ⟨typingSession 10, ({ terminal := { deeds := typed } }, [])⟩ = typingRun 10 typed := rfl
  obtain ⟨hreturned, hinputs, hsaves, hjobs⟩ := hruns
  have hfolds := serve_folds (by decide) (hrun.trans (Prod.eta _).symm)
  exact ⟨hreturned, hinputs, hsaves, hjobs, hfolds⟩

/-- The line editor does not take a number of lines outside its range. That is worth more than a
warning, and the line that the user would enter is never handled, though there is nothing wrong with
it. -/
theorem serve_raises_of_huge :
    (typingRun 2147483648 [.enters "b", .enters "exit"]).1 ≠ .returned 0 ∧
    (typingRun 2147483648 [.enters "b", .enters "exit"]).2.outside.2.inputs = [] ∧
    handledLines [.line "b", .line "exit"] = ["b"] ∧
    (handleLine "b" lingeringHost.kernel ⟨typingSession 2147483648, {}⟩).1 =
      .returned (some { exitCode := some 127, failure := some .spawn }) := by
  decide +kernel

end LineShell
