import LineShell.Proofs.Orphans
import LineShell.Proofs.Reaping
import LineShell.Proofs.SessionFrame

namespace LineShell

open Shell

/-!
# Turns at the prompt

The prompt loop takes what the user enters one input after another, and does about each of them what
there is to be done.

* `handledLines`, `heard` — the lines of a script that are handled, and what is heard of it;
* `Turn` — a round of the loop: the jobs that have ended are taken out, the user is asked, and
  something is done about what he enters;
* `Turns`, `serveLines_turns` — the loop takes one turn after another;
* `Consulted`, `consult_ensures` — what comes before the user is asked;
* `Turn.Sound`, `Hears`, `Turn.Runs.sound` — what one turn does;
* `BreaksOff`, `Turns.sound` — what all turns do, and how they can break off.
-/

variable {σ α β : Type} {k : Kernel σ} {s : Session}

/-! ### Scripts -/

/-- The line that is entered with a text, without the blanks around it. -/
def trimmed (text : String) : String := String.ofList (Text.trim text.toList)

/-- The lines of a script that are handled: those that are not blank, before the end of input or the
first one that is `exit`. -/
def handledLines : List Input → List String
  | [] | .endOfInput :: _ => []
  | .interrupt :: rest => handledLines rest
  | .line text :: rest =>
    if trimmed text = "exit" then []
    else if trimmed text = "" then handledLines rest
    else trimmed text :: handledLines rest

/-- What is heard of a script: nothing after the end of input or the first line that is `exit`. -/
def heard : List Input → List Input
  | [] => []
  | .endOfInput :: _ => [.endOfInput]
  | .interrupt :: rest => .interrupt :: heard rest
  | .line text :: rest => .line text :: if trimmed text = "exit" then [] else heard rest

/-- The line that is handled of an input, if one is. -/
def Input.handled? (input : Input) : Option String :=
  match Step.ofInput input with
  | .handle text => some text
  | _ => none

theorem Input.step_line (text : String) : Step.ofInput (.line text) =
    if trimmed text = "" then .skip
    else if trimmed text = "exit" then .leave "Goodbye!"
    else .handle (trimmed text) := by
  simp only [Step.ofInput, trimmed, beq_iff_eq]
  rfl

/-- Of all lines the user leaves with `exit` only. -/
theorem Input.leaves_line (text : String) :
    (Input.line text).leaves = decide (trimmed text = "exit") := by
  rw [leaves, step_line]
  by_cases hblank : trimmed text = ""
  · simp [hblank]
  · by_cases hexit : trimmed text = "exit" <;> simp [hblank, hexit]

theorem handledLines_cons (input : Input) (rest : List Input) : handledLines (input :: rest) =
    input.handled?.toList ++ if input.leaves then [] else handledLines rest := by
  cases input with
  | line text =>
    rw [handledLines, Input.handled?, Input.leaves_line, Input.step_line]
    by_cases hblank : trimmed text = ""
    · simp [hblank]
    · by_cases hexit : trimmed text = "exit" <;> simp [hblank, hexit]
  | interrupt => rfl
  | endOfInput => rfl

theorem heard_cons (input : Input) (rest : List Input) :
    heard (input :: rest) = input :: if input.leaves then [] else heard rest := by
  cases input with
  | line text => simp [heard, Input.leaves_line]
  | interrupt => rfl
  | endOfInput => rfl

/-! ### Turns -/

namespace Shell

/-- What is done about an input. -/
def act : Step → Shell σ Unit
  | .skip => pure ()
  | .newLine => printLine ""
  | .leave words => printLine words
  | .handle line => handleNext line

/-- Takes out the jobs that have ended, and asks the user. -/
def consult (user : String) : Shell σ Input := do
  let _ ← reap true
  let s ← session
  readInput (promptText user s.cwd) s.interrupted

/-- The user is asked, something is done about his input, and the loop goes on unless he leaves. -/
theorem serveLines_succ (user : String) (rounds : Nat) :
    (serveLines user (rounds + 1) : Shell σ Unit) = (do
      let input ← consult user
      if input.leaves then act (Step.ofInput input)
      else do
        act (Step.ofInput input)
        serveLines user rounds) := by
  rw [serveLines, consult]
  simp only [bind_assoc]
  congr 1
  funext _
  congr 1
  funext s
  congr 1
  funext input
  rw [Input.leaves]
  cases Step.ofInput input <;> rfl

end Shell

/-- A round of the loop: where the world stood before it, when the user had been asked, and after
it. -/
structure Turn (σ : Type) where
  start : World σ
  input : Input
  entered : World σ
  outcome : Outcome Unit
  stop : World σ

/-- The user was asked, and something was done about what he entered. -/
structure Turn.Runs (k : Kernel σ) (user : String) (t : Turn σ) : Prop where
  asks : consult user k t.start = (.returned t.input, t.entered)
  acts : act (Step.ofInput t.input) k t.entered = (t.outcome, t.stop)

/-- The lines that turns have handled. -/
def Turn.calls (ts : List (Turn σ)) : List String := ts.filterMap (·.input.handled?)

/-- Turns one after another, at most so many, up to one that the user leaves with or that does not
return. -/
inductive Turns (k : Kernel σ) (user : String) :
    Nat → World σ → List (Turn σ) → Outcome Unit → World σ → Prop
  | late {w : World σ} : Turns k user 0 w [] .never w
  | unasked {rounds : Nat} {w w' : World σ} {f : Fault} : consult user k w = (.raised f, w') →
    Turns k user (rounds + 1) w [] (.raised f) w'
  | unheard {rounds : Nat} {w w' : World σ} : consult user k w = (.never, w') →
    Turns k user (rounds + 1) w [] .never w'
  | last {rounds : Nat} {t : Turn σ} : t.Runs k user →
    t.input.leaves = true ∨ t.outcome ≠ .returned () →
    Turns k user (rounds + 1) t.start [t] t.outcome t.stop
  | next {rounds : Nat} {t : Turn σ} {ts : List (Turn σ)} {o : Outcome Unit} {w' : World σ} :
    t.Runs k user → t.input.leaves = false → t.outcome = .returned () →
    Turns k user rounds t.stop ts o w' → Turns k user (rounds + 1) t.start (t :: ts) o w'

namespace Shell

/-- **The loop takes one turn after another.** -/
theorem serveLines_turns {user : String} {rounds : Nat} {w w' : World σ} {o : Outcome Unit}
    (hrun : serveLines user rounds k w = (o, w')) : ∃ ts, Turns k user rounds w ts o w' := by
  induction rounds generalizing w with
  | zero =>
    cases hrun
    exact ⟨[], .late⟩
  | succ rounds ih =>
    rw [serveLines_succ, bind_run] at hrun
    rcases hask : consult user k w with ⟨asked, entered⟩
    rw [hask] at hrun
    cases asked with
    | raised f =>
      cases hrun
      exact ⟨[], .unasked hask⟩
    | never =>
      cases hrun
      exact ⟨[], .unheard hask⟩
    | returned input =>
      have hturn : ∀ {o₁ : Outcome Unit} {w₁ : World σ},
          act (Step.ofInput input) k entered = (o₁, w₁) →
            Turn.Runs k user ⟨w, input, entered, o₁, w₁⟩ := fun hact => ⟨hask, hact⟩
      cases hleaves : input.leaves with
      | true =>
        simp only [hleaves, if_true] at hrun
        exact ⟨[⟨w, input, entered, o, w'⟩], .last (hturn hrun) (.inl hleaves)⟩
      | false =>
        simp only [hleaves, Bool.false_eq_true, if_false, bind_run] at hrun
        rcases hact : act (Step.ofInput input) k entered with ⟨o₁, w₁⟩
        rw [hact] at hrun
        cases o₁ with
        | returned a =>
          obtain ⟨ts, hts⟩ := ih hrun
          exact ⟨_ :: ts, .next (hturn hact) hleaves rfl hts⟩
        | raised f =>
          cases hrun
          exact ⟨[_], .last (hturn hact) (.inr nofun)⟩
        | never =>
          cases hrun
          exact ⟨[_], .last (hturn hact) (.inr nofun)⟩

end Shell

/-- Whatever script the inputs of turns begin, the turns have handled lines of it in order. If the
user has left, they have handled all of them, and have heard of the script what is heard of it. -/
theorem Turns.calls {user : String} {rounds : Nat} {w w' : World σ} {ts : List (Turn σ)}
    {o : Outcome Unit} (h : Turns k user rounds w ts o w') {script : List Input}
    (hscript : ts.map Turn.input <+: script) : Turn.calls ts <+: handledLines script ∧
      (o = .returned () → Turn.calls ts = handledLines script ∧
        ts.map Turn.input = heard script) := by
  induction h generalizing script with
  | late => exact ⟨List.nil_prefix, nofun⟩
  | unasked => exact ⟨List.nil_prefix, nofun⟩
  | unheard => exact ⟨List.nil_prefix, nofun⟩
  | @last rounds t hruns hended =>
    obtain ⟨rest, rfl⟩ := hscript
    have hcalls : Turn.calls [t] = t.input.handled?.toList := by
      rw [Turn.calls, List.filterMap_cons]
      cases t.input.handled? <;> rfl
    simp only [List.map_cons, List.map_nil, List.singleton_append, handledLines_cons, heard_cons,
      hcalls]
    refine ⟨List.prefix_append _ _, fun hreturned => ?_⟩
    rcases hended with hleaves | hfailed
    · simp [hleaves]
    · exact absurd hreturned hfailed
  | @next rounds t ts o w' hruns hstays houtcome _ ih =>
    -- the later turns have gone on with the rest of the script
    obtain ⟨rest, rfl⟩ := hscript
    obtain ⟨hbegins, hall⟩ := ih (List.prefix_append (ts.map Turn.input) rest)
    have hcalls : Turn.calls (t :: ts) = t.input.handled?.toList ++ Turn.calls ts := by
      rw [Turn.calls, Turn.calls, List.filterMap_cons]
      cases t.input.handled? <;> rfl
    simp only [List.map_cons, List.cons_append, handledLines_cons, heard_cons, hstays,
      Bool.false_eq_true, if_false, hcalls]
    refine ⟨(List.prefix_append_right_inj _).2 hbegins, fun hreturned => ?_⟩
    obtain ⟨hlines, hheard⟩ := hall hreturned
    rw [hlines, ← hheard]
    exact ⟨rfl, rfl⟩

/-! ### What turns ask for -/

/-- Whether the loop itself makes such a request, not a line: it looks at a process, tells or notes
something, or asks the user. -/
def Request.isOwn : Request → Bool
  | .poll _ | .print _ | .log _ | .readInput .. => true
  | _ => false

/-- Whether a request asks the user, or saves what was typed. -/
def Request.isTyping : Request → Bool
  | .readInput .. | .writeHistory _ => true
  | _ => false

/-- The file that lines are saved to. -/
def Event.saved? : Event → Option String
  | ⟨.writeHistory path, _⟩ => some path
  | _ => none

namespace Trace

variable {es es' : Trace}

/-- The files that lines were saved to, in order. -/
def saves (es : Trace) : List String := es.filterMap Event.saved?

@[simp] theorem saves_append (es es' : Trace) : saves (es ++ es') = es.saves ++ es'.saves :=
  List.filterMap_append

/-- The user has entered nothing, and nothing was saved. -/
structure Quiet (es : Trace) : Prop where
  inputs : es.inputs = []
  saves : es.saves = []

theorem Quiet.of_only (h : es.Only fun r => !r.isTyping) : es.Quiet := by
  have hnone : ∀ e ∈ es, e.input? = none ∧ e.saved? = none := by
    intro e he
    have hr := h e he
    obtain ⟨r, o⟩ := e
    cases r <;> first | exact ⟨rfl, rfl⟩ | cases hr
  exact ⟨List.filterMap_eq_nil_iff.2 fun e he => (hnone e he).1,
    List.filterMap_eq_nil_iff.2 fun e he => (hnone e he).2⟩

theorem Quiet.of_no_editing (h : es.Only fun r => !r.isEditing) : es.Quiet := by
  refine of_only (h.mono fun r hr => ?_)
  cases r <;> first | rfl | cases hr

theorem Quiet.append (h : es.Quiet) (h' : es'.Quiet) : Quiet (es ++ es') where
  inputs := by rw [inputs_append, h.inputs, h'.inputs, List.append_nil]
  saves := by rw [saves_append, h.saves, h'.saves, List.append_nil]

/-- Requests that print texts are of any kind that all printing is of. -/
theorem only_of_prints {p : Request → Bool} {texts : List String}
    (h : es.map Event.request = texts.map Request.print) (hp : ∀ text, p (.print text) = true) :
    es.Only p := by
  intro e he
  have hmem : e.request ∈ texts.map Request.print := h ▸ List.mem_map_of_mem he
  obtain ⟨text, -, htext⟩ := List.mem_map.1 hmem
  rw [← htext]
  exact hp text

end Trace

/-- A run that looks after jobs: it makes requests of some kind only, and leaves all of the session
but its registry as it is. -/
def Tends (k : Kernel σ) (p : Request → Bool) (x : Shell (σ × Trace) α) : Prop :=
  ∀ s, Ensures k x s fun _ s' es => s' = { s with jobs := s'.jobs } ∧ es.Only p

namespace Tends

variable {p : Request → Bool} {x : Shell (σ × Trace) α} {f : α → Shell (σ × Trace) β}

theorem of_asks (h : Asks k p x) : Tends k p x := by
  refine fun s => (h s).mono ?_
  rintro o s' es ⟨rfl, hes⟩
  exact ⟨rfl, hes⟩

theorem ask {r : Request} (h : p r = true) : Tends k p (Shell.ask r) := of_asks (.ask h)

theorem pure (a : α) : Tends k p (Pure.pure a) := of_asks (.pure a)

theorem bind (hx : Tends k p x) (hf : ∀ a, Tends k p (f a)) : Tends k p (x >>= f) := by
  refine fun s => (hx s).bind (fun a s₁ es h => ?_) (fun _ _ _ h => h) fun _ _ h => h
  refine (hf a s₁).mono fun o s₂ es' h' => ⟨?_, Trace.only_append.2 ⟨h.2, h'.2⟩⟩
  rw [h'.1, h.1]

theorem session_bind {f : Session → Shell (σ × Trace) β} (h : ∀ s, Tends k p (f s)) :
    Tends k p (Shell.session >>= f) := fun s => .session_bind (h s s)

theorem modifyJobs (g : Jobs → Jobs) : Tends k p (Shell.modifyJobs g) :=
  fun _ => .modifySession ⟨rfl, Trace.only_nil p⟩

theorem mapM {l : List α} {g : α → Shell (σ × Trace) β} (hg : ∀ a, Tends k p (g a)) :
    Tends k p (l.mapM g) := by
  induction l with
  | nil => exact pure []
  | cons a l ih =>
    rw [List.mapM_cons]
    exact (hg a).bind fun _ => ih.bind fun _ => pure _

end Tends

namespace Shell

theorem reap_tends (announce : Bool) :
    Tends k (fun r => r.isOwn && !r.isEditing) (reap announce) := by
  refine .session_bind fun s => (Tends.mapM fun job => ?_).bind fun _ => .pure _
  refine (Tends.ask rfl).bind fun code => ?_
  cases code with
  | none => exact .pure none
  | some code =>
    refine (Tends.modifyJobs _).bind fun _ => (Tends.ask rfl).bind fun _ => ?_
    show Tends k _ (if announce && !job.quiet then printLine _ >>= fun _ => pure _ else pure _)
    split
    · exact (Tends.ask rfl).bind fun _ => .pure _
    · exact .pure _

end Shell

/-! ### Asking the user -/

/-- The jobs were looked at one after another, those that had ended were taken out and told of, and
then the user was asked. Nothing else has changed or was asked for. -/
def Consulted (user : String) (s : Session) (input : Input) (s' : Session) (es : Trace) : Prop :=
  ∃ reaping answer, Reaps true s.jobs.list reaping answer ∧
    reaping.Only (fun r => r.isOwn && !r.isEditing) ∧
    s' = { s with jobs := ⟨reaping.looks.running s.jobs.list⟩ } ∧
    es = reaping ++ [⟨.readInput (promptText user s.cwd) s.interrupted, .returned input⟩]

/-- A request of the loop itself was not answered, and the user has entered nothing. -/
structure Unanswered (s s' : Session) (es : Trace) : Prop where
  settings : s'.settings = s.settings
  quiet : es.Quiet
  own : es.Only Request.isOwn
  fails : ¬ es.Smooth

namespace Shell

/-- **Each time the user is asked**, the jobs that have ended by then are out, and told of. -/
theorem consult_ensures (user : String) (hnodup : s.jobs.pids.Nodup) :
    Ensures k (consult user) s fun o s' es =>
      (∀ input, o = .returned input → Consulted user s input s' es) ∧
        ((∀ input, o ≠ .returned input) → Unanswered s s' es) := by
  have hkind : ∀ {es : Trace}, es.Only (fun r => r.isOwn && !r.isEditing) →
      es.Only Request.isOwn ∧ es.Only fun r => !r.isEditing := fun h =>
    ⟨h.mono fun r hr => (Bool.and_eq_true_iff.1 hr).1,
      h.mono fun r hr => (Bool.and_eq_true_iff.1 hr).2⟩
  -- a reaping that breaks off has asked the user nothing
  have hbroken : ∀ {o : Outcome (List Reaped)} {s' : Session} {es : Trace},
      (s' = { s with jobs := s'.jobs } ∧ es.Only fun r => r.isOwn && !r.isEditing) →
        ((∃ a, o = .returned a) ↔ es.Smooth) → (∀ a, o ≠ .returned a) → Unanswered s s' es := by
    rintro o s' es ⟨hs, hes⟩ hsmooth hnot
    refine ⟨by rw [hs], .of_no_editing (hkind hes).2, (hkind hes).1, fun h => ?_⟩
    obtain ⟨a, ha⟩ := hsmooth.2 h
    exact hnot a ha
  refine (((reap_scans true hnodup).and (reap_tends true s)).and (reap_faithful true s)).bind ?_
    (fun f s' es h => ⟨fun _ => nofun, fun _ => hbroken h.1.2 h.2 nofun⟩)
    fun s' es h => ⟨fun _ => nofun, fun _ => hbroken h.1.2 h.2 nofun⟩
  rintro answer s₁ es ⟨⟨⟨hscanned, hreaps⟩, hs, hes⟩, -⟩
  have hs₁ : s₁ = { s with jobs := ⟨es.looks.running s.jobs.list⟩ } := by
    rw [hs, ← hscanned.jobs]
  refine .session_bind (.ask fun o => ⟨fun input ho => ?_, fun hnot => ?_⟩)
  · subst hs₁ ho
    exact ⟨es, answer, hreaps answer rfl, hes, rfl, rfl⟩
  · have hunread : Trace.Quiet [⟨.readInput (promptText user s₁.cwd) s₁.interrupted, o⟩] := by
      cases o with
      | returned input => exact absurd rfl (hnot input)
      | raised f => exact ⟨rfl, rfl⟩
      | never => exact ⟨rfl, rfl⟩
    have hquiet : es.Quiet := .of_no_editing (hkind hes).2
    refine ⟨by rw [hs₁], hquiet.append hunread, Trace.only_append.2 ⟨(hkind hes).1, ?_⟩,
      fun hsmooth => ?_⟩
    · exact Trace.only_cons.2 ⟨rfl, Trace.only_nil _⟩
    · obtain ⟨input, hinput⟩ := hsmooth _ (List.mem_append_right _ List.mem_cons_self)
      exact hnot input hinput

end Shell

/-! ### What is done about an input -/

/-- What is told about an input that is not handled. -/
def Input.told (input : Input) : List String :=
  match Step.ofInput input with
  | .newLine => ["\n"]
  | .leave words => [words ++ "\n"]
  | _ => []

namespace Shell

/-- About an input that is not handled the user is told something at most. -/
theorem act_told {input : Input} (h : input.handled? = none) :
    Ensures k (act (Step.ofInput input)) s fun o s' es => s' = s ∧
      es.map Event.request = input.told.map Request.print ∧ (o = .returned () ↔ es.Smooth) := by
  have hprint : ∀ text : String, Ensures k (printLine text) s fun o s' es => s' = s ∧
      es.map Event.request = [text ++ "\n"].map Request.print ∧ (o = .returned () ↔ es.Smooth) := by
    refine fun text => .ask fun o => ⟨rfl, rfl, ?_⟩
    rw [Trace.smooth_cons]
    exact ⟨fun ho => ⟨⟨(), ho⟩, Trace.smooth_nil⟩, fun hsmooth => hsmooth.1.elim fun _ h => h⟩
  rw [Input.told]
  cases hstep : Step.ofInput input with
  | skip => exact .pure ⟨rfl, rfl, iff_of_true rfl Trace.smooth_nil⟩
  | newLine => exact hprint ""
  | leave words => exact hprint words
  | handle text =>
    rw [Input.handled?, hstep] at h
    cases h

/-- A line is handled with the mark of an interrupt taken off. -/
theorem handleNext_run {text : String} {w w' : World σ} {o : Outcome Unit}
    (hrun : handleNext text k w = (o, w')) :
    ∃ r, handleLine text k ⟨{ w.session with interrupted := false }, w.outside⟩ = (r, w') ∧
      (o = .returned () ↔ ∃ a, r = .returned a) := by
  rw [handleNext, bind_run, modifySession_run] at hrun
  dsimp only at hrun
  rw [bind_run] at hrun
  rcases hline : handleLine text k ⟨{ w.session with interrupted := false }, w.outside⟩ with ⟨r, w₁⟩
  rw [hline] at hrun
  cases r with
  | returned a =>
    cases hrun
    exact ⟨_, rfl, fun _ => ⟨a, rfl⟩, fun _ => rfl⟩
  | raised f =>
    cases hrun
    exact ⟨_, rfl, nofun, fun h => h.elim nofun⟩
  | never =>
    cases hrun
    exact ⟨_, rfl, nofun, fun h => h.elim nofun⟩

theorem handleNext_keeps (text : String) : Ensures k (handleNext text) s fun _ s' es =>
    s'.settings = s.settings ∧ (s.jobs.pids.Nodup → s'.jobs.pids.Nodup) ∧
      es.Only fun r => !r.isEditing := by
  have hline : Ensures k (handleLine text) { s with interrupted := false } fun _ s' es =>
      s'.settings = s.settings ∧ (s.jobs.pids.Nodup → s'.jobs.pids.Nodup) ∧
        es.Only fun r => !r.isEditing := by
    refine (handleLine_frames text).mono fun o s' es h => ?_
    have hes := h.1.mono fun r => Request.not_isEditing_of_isOfLine
    rcases h.2 with hgrown | ⟨line, -, -, -, path, before, after, rfl, -⟩
    · exact ⟨hgrown.settings, hgrown.nodup, hes⟩
    · exact ⟨rfl, id, hes⟩
  refine .modifySession_bind (hline.bind (fun r s' es h => .pure ?_) (fun _ _ _ h => h)
    fun _ _ h => h)
  rw [List.append_nil]
  exact h

end Shell

/-! ### What turns do -/

/-- What comes of a turn. -/
structure Turn.Sound (k : Kernel σ) (user : String) (t : Turn (σ × Trace)) : Prop where
  /-- The user was asked. -/
  asked : ∃ es, t.entered.outside.2 = t.start.outside.2 ++ es ∧
    Consulted user t.start.session t.input t.entered.session es
  /-- An input that is no line to handle changes nothing, and nothing is run. -/
  idle : t.input.handled? = none → t.stop.session = t.entered.session ∧
    ∃ es, t.stop.outside.2 = t.entered.outside.2 ++ es ∧
      es.map Event.request = t.input.told.map Request.print
  /-- A line is handled as the next one. -/
  handled : ∀ text ∈ t.input.handled?, ∃ r, handleLine text k.traced
    ⟨{ t.entered.session with interrupted := false }, t.entered.outside⟩ = (r, t.stop) ∧
      (t.outcome = .returned () ↔ ∃ a, r = .returned a)

/-- From one world to another the user has entered these inputs, and no lines have been saved. The
settings are as they were. -/
structure Hears (w : World (σ × Trace)) (inputs : List Input) (w' : World (σ × Trace)) : Prop where
  settings : w'.session.settings = w.session.settings
  inputs : w'.outside.2.inputs = w.outside.2.inputs ++ inputs
  saves : w'.outside.2.saves = w.outside.2.saves

theorem Hears.refl (w : World (σ × Trace)) : Hears w [] w := ⟨rfl, (List.append_nil _).symm, rfl⟩

theorem Hears.trans {w w₁ w₂ : World (σ × Trace)} {inputs inputs' : List Input}
    (h : Hears w inputs w₁) (h' : Hears w₁ inputs' w₂) : Hears w (inputs ++ inputs') w₂ where
  settings := h'.settings.trans h.settings
  inputs := by rw [h'.inputs, h.inputs, List.append_assoc]
  saves := h'.saves.trans h.saves

theorem Hears.of_quiet {w w' : World (σ × Trace)} {es : Trace}
    (hsettings : w'.session.settings = w.session.settings)
    (hes : w'.outside.2 = w.outside.2 ++ es) (h : es.Quiet) : Hears w [] w' where
  settings := hsettings
  inputs := by rw [hes, Trace.inputs_append, h.inputs]
  saves := by rw [hes, Trace.saves_append, h.saves, List.append_nil]

theorem Consulted.inputs {user : String} {input : Input} {s' : Session} {es : Trace}
    (h : Consulted user s input s' es) : es.inputs = [input] ∧ es.saves = [] := by
  obtain ⟨reaping, answer, -, hes, -, rfl⟩ := h
  have hquiet : reaping.Quiet :=
    .of_no_editing (hes.mono fun r hr => (Bool.and_eq_true_iff.1 hr).2)
  rw [Trace.inputs_append, hquiet.inputs, Trace.saves_append, hquiet.saves]
  exact ⟨rfl, rfl⟩

theorem Consulted.nodup {user : String} {input : Input} {s' : Session} {es : Trace}
    (h : Consulted user s input s' es) (hnodup : s.jobs.pids.Nodup) : s'.jobs.pids.Nodup := by
  obtain ⟨reaping, answer, -, -, rfl, -⟩ := h
  exact hnodup.sublist (List.filter_sublist.map Job.pid)

/-- The user has been asked. -/
theorem Consulted.hears {user : String} {input : Input} {w w' : World (σ × Trace)} {es : Trace}
    (h : Consulted user w.session input w'.session es) (hes : w'.outside.2 = w.outside.2 ++ es) :
    Hears w [input] w' where
  settings := by
    obtain ⟨reaping, answer, -, -, hs, -⟩ := h
    rw [hs]
  inputs := by rw [hes, Trace.inputs_append, h.inputs.1]
  saves := by rw [hes, Trace.saves_append, h.inputs.2, List.append_nil]

namespace Turn.Runs

variable {user : String} {t : Turn (σ × Trace)}

/-- What is done about an input that is not handled. -/
theorem told (h : t.Runs k.traced user) (hinput : t.input.handled? = none) :
    t.stop.session = t.entered.session ∧ ∃ es, t.stop.outside.2 = t.entered.outside.2 ++ es ∧
      es.map Event.request = t.input.told.map Request.print ∧
        (t.outcome = .returned () ↔ es.Smooth) := by
  obtain ⟨es, hes, hs, hmap, hsmooth⟩ := (act_told hinput).run_from h.acts
  exact ⟨hs, es, hes, hmap, hsmooth⟩

/-- A line is handled as the next one. -/
theorem handles (h : t.Runs k.traced user) {text : String} (hinput : t.input.handled? = some text) :
    handleNext text k.traced t.entered = (t.outcome, t.stop) := by
  have hacts := h.acts
  rw [Input.handled?] at hinput
  cases hstep : Step.ofInput t.input with
  | handle other =>
    rw [hstep] at hinput hacts
    cases hinput
    exact hacts
  | skip | newLine | leave =>
    rw [hstep] at hinput
    cases hinput

/-- **What comes of a turn.** -/
theorem sound (h : t.Runs k.traced user) (hnodup : t.start.session.jobs.pids.Nodup) :
    t.Sound k user ∧ Hears t.start [t.input] t.stop ∧ t.stop.session.jobs.pids.Nodup := by
  obtain ⟨es, hes, hasked, -⟩ := (consult_ensures user hnodup).run_from h.asks
  have hconsulted := hasked _ rfl
  have hentered := hconsulted.nodup hnodup
  cases hinput : t.input.handled? with
  | none =>
    obtain ⟨hs, es', hes', hmap, -⟩ := h.told hinput
    have hquiet : es'.Quiet := .of_only (Trace.only_of_prints hmap fun _ => rfl)
    refine ⟨⟨⟨es, hes, hconsulted⟩, fun _ => ⟨hs, es', hes', hmap⟩, ?_⟩, ?_, hs ▸ hentered⟩
    · rw [hinput]
      exact fun _ => nofun
    · exact (hconsulted.hears hes).trans (.of_quiet (by rw [hs]) hes' hquiet)
  | some text =>
    have hrun := h.handles hinput
    obtain ⟨es', hes', hsettings, hkeeps, hediting⟩ := (handleNext_keeps text).run_from hrun
    refine ⟨⟨⟨es, hes, hconsulted⟩, ?_, ?_⟩, ?_, hkeeps hentered⟩
    · rw [hinput]
      exact nofun
    · rw [hinput]
      rintro _ ⟨⟩
      exact handleNext_run hrun
    · exact (hconsulted.hears hes).trans (.of_quiet hsettings hes' (.of_no_editing hediting))

end Turn.Runs

/-- How turns can break off, other than by the user's leaving: there were as many as there may be, or
a line that was handled did not return, or the loop's own last requests were not all answered. -/
def BreaksOff (rounds : Nat) (ts : List (Turn (σ × Trace))) (o : Outcome Unit)
    (w : World (σ × Trace)) : Prop :=
  (o = .never ∧ ts.length = rounds) ∨
    (∃ t ∈ ts, (∃ text, t.input.handled? = some text) ∧ t.outcome = o ∧ t.stop = w) ∨
      ∃ before own, w.outside.2 = before ++ own ∧ own.Only Request.isOwn ∧ ¬ own.Smooth

/-- Where the user could not be asked, nothing was entered. -/
theorem BreaksOff.of_unasked {user : String} {rounds : Nat} {w w' : World (σ × Trace)}
    {o : Outcome Input} {o' : Outcome Unit} (hnodup : w.session.jobs.pids.Nodup)
    (hrun : consult user k.traced w = (o, w')) (hnot : ∀ input, o ≠ .returned input) :
    Hears w [] w' ∧ BreaksOff rounds [] o' w' := by
  obtain ⟨es, hes, -, hunanswered⟩ := (consult_ensures user hnodup).run_from hrun
  obtain ⟨hsettings, hquiet, hown, hfails⟩ := hunanswered hnot
  exact ⟨.of_quiet hsettings hes hquiet, .inr (.inr ⟨_, es, hes, hown, hfails⟩)⟩

/-- **What comes of all turns.** -/
theorem Turns.sound {user : String} {rounds : Nat} {w w' : World (σ × Trace)}
    {ts : List (Turn (σ × Trace))} {o : Outcome Unit} (h : Turns k.traced user rounds w ts o w')
    (hnodup : w.session.jobs.pids.Nodup) : (∀ t ∈ ts, t.Sound k user) ∧
      Hears w (ts.map Turn.input) w' ∧ (o ≠ .returned () → BreaksOff rounds ts o w') := by
  -- each turn leaves at most one job for each process, so the next one looks at each of them once
  induction h with
  | late => exact ⟨fun _ => nofun, .refl _, fun _ => .inl ⟨rfl, rfl⟩⟩
  | unasked hask =>
    obtain ⟨hhears, hbreaks⟩ := BreaksOff.of_unasked hnodup hask nofun
    exact ⟨fun _ => nofun, hhears, fun _ => hbreaks⟩
  | unheard hask =>
    obtain ⟨hhears, hbreaks⟩ := BreaksOff.of_unasked hnodup hask nofun
    exact ⟨fun _ => nofun, hhears, fun _ => hbreaks⟩
  | @last rounds t hruns _ =>
    obtain ⟨hsound, hhears, -⟩ := hruns.sound hnodup
    refine ⟨fun t' ht => (List.mem_singleton.1 ht) ▸ hsound, hhears, fun hnot => .inr ?_⟩
    cases hinput : t.input.handled? with
    | some text => exact .inl ⟨t, List.mem_cons_self, ⟨text, hinput⟩, rfl, rfl⟩
    | none =>
      -- only what the user was to be told can have failed
      obtain ⟨-, es, hes, hmap, hsmooth⟩ := hruns.told hinput
      exact .inr ⟨_, es, hes, Trace.only_of_prints hmap fun _ => rfl, fun h => hnot (hsmooth.2 h)⟩
  | @next rounds t ts o w' hruns _ _ _ ih =>
    obtain ⟨hsound, hhears, hkept⟩ := hruns.sound hnodup
    obtain ⟨hall, hrest, hbreaks⟩ := ih hkept
    refine ⟨List.forall_mem_cons.2 ⟨hsound, hall⟩, hhears.trans hrest, fun hnot => ?_⟩
    rcases hbreaks hnot with ⟨hnever, hlength⟩ | ⟨t', ht', hbroken⟩ | hown
    · exact .inl ⟨hnever, by rw [List.length_cons, hlength]⟩
    · exact .inr (.inl ⟨t', List.mem_cons_of_mem t ht', hbroken⟩)
    · exact .inr (.inr hown)

end LineShell
