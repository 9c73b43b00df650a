import LineShell.Host.Answer
import LineShell.Host.Scripted
import LineShell.Proofs.Recovery
import LineShell.Shell.Serve

namespace LineShell

open Shell

/-!
# When the prompt loop ends

* `Trace.inputs`, `Trace.executed` — what the user entered, and what was noted as executed of it;
* `Trace.HeardOut` — the user was heard until he left, and each line before that was executed;
* `Served` — how the prompt loop ends: it hears the user out just where no fault has escaped;
* `serve_served` — it ends so whatever its surroundings answer, as long as they fail in ordinary
  ways.
-/

variable {σ : Type} {k : Kernel σ} {rounds : Nat}

/-! ### What was entered and what was executed -/

/-- What the user entered. -/
def Event.input? : Event → Option Input
  | ⟨.readInput .., .returned input⟩ => some input
  | _ => none

/-- The note that a line is executed. -/
def Event.executed? : Event → Option String
  | ⟨.log ⟨_, .prompt, text⟩, _⟩ => some text
  | _ => none

/-- Whether the user leaves with an input. -/
def Input.leaves (input : Input) : Bool :=
  match Step.ofInput input with
  | .leave _ => true
  | _ => false

/-- The note that is made of a text, if it is a command line. -/
def Shell.note? (text : String) : Option String :=
  match CommandLine.parse text with
  | .ok (some l) => some ("executing: " ++ l.text)
  | _ => none

/-- The note that is made of an input, if it is to be executed. -/
def Input.note? (input : Input) : Option String :=
  match Step.ofInput input with
  | .handle text => Shell.note? text
  | _ => none

namespace Trace

/-- What the user entered, in order. -/
def inputs (es : Trace) : List Input := es.filterMap Event.input?

/-- What was noted as executed, in order. -/
def executed (es : Trace) : List String := es.filterMap Event.executed?

/-- The user was heard until he left, and what he entered before was executed. -/
def HeardOut (es : Trace) : Prop :=
  ∃ earlier last, es.inputs = earlier ++ [last] ∧ (∀ i ∈ earlier, i.leaves = false) ∧
    last.leaves = true ∧ es.executed = earlier.filterMap Input.note?

@[simp] theorem inputs_append (es es' : Trace) : inputs (es ++ es') = es.inputs ++ es'.inputs :=
  List.filterMap_append

@[simp] theorem executed_append (es es' : Trace) :
    executed (es ++ es') = es.executed ++ es'.executed := List.filterMap_append

theorem inputs_of_no_prompt {es : Trace} (h : es.Only fun r => !r.isPrompt) : es.inputs = [] := by
  refine List.filterMap_eq_nil_iff.2 fun e he => ?_
  have hr := h e he
  obtain ⟨r, o⟩ := e
  cases r <;> first | rfl | cases hr

theorem executed_of_no_prompt {es : Trace} (h : es.Only fun r => !r.isPrompt) :
    es.executed = [] := by
  refine List.filterMap_eq_nil_iff.2 fun e he => ?_
  have hr := h e he
  obtain ⟨r, o⟩ := e
  cases r with
  | log record =>
    obtain ⟨level, topic, text⟩ := record
    cases topic <;> first | rfl | cases hr
  | _ => rfl

end Trace

namespace Shell

/-! ### Turns -/

/-- What comes of an input that the user does not leave with: at most one line is executed, and
a fault that ends the run has cost it its footing. -/
def TakesTurn (bound : Nat) (note : Option String) (o : Outcome Unit) (es : Trace) : Prop :=
  es.inputs = [] ∧ es.executed = note.toList ∧
    (es.Ordinary → Arrives bound .firm (fun _ w => w ≠ .lost) (fun _ w => w = .lost) o es)

theorem takesTurn_of_walks {x : Shell (σ × Trace) Unit}
    (h : Walks k k.bound (· = .firm) x (fun _ w => w ≠ .lost) fun _ w => w = .lost) (s : Session) :
    Ensures k x s fun o _ es => TakesTurn k.bound none o es := by
  refine (h s).mono fun o _ es => ?_
  rintro ⟨hes, hw⟩
  exact ⟨Trace.inputs_of_no_prompt hes, Trace.executed_of_no_prompt hes, fun ho => hw ho _ rfl⟩

/-- A text is executed if it is a command line, and refused or passed over if it is none. -/
theorem handleNext_takesTurn (text : String) (s : Session) :
    Ensures k (handleNext text) s fun o _ es => TakesTurn k.bound (note? text) o es := by
  have hfirm : ∀ (w : Footing), w = .firm → w ≠ .lost := by
    rintro w rfl
    decide
  have hquiet : ∀ {x : Shell (σ × Trace) Unit}, Safe k x → ∀ s,
      Ensures k x s fun o _ es => TakesTurn k.bound none o es := fun hx s =>
    takesTurn_of_walks ((hx _ _).mono (fun _ h => h) (fun _ => hfirm) fun _ _ h => h.elim) s
  refine .modifySession_bind ?_
  rcases hparse : CommandLine.parse text with e | line
  · simp only [handleLine, note?, hparse, bind_assoc, pure_bind]
    exact hquiet ((Safe.ask rfl rfl).bind fun _ => .pure ()) _
  · cases line with
    | none =>
      simp only [handleLine, note?, hparse, pure_bind]
      exact hquiet (.pure ()) _
    | some line =>
      simp only [handleLine, note?, hparse, bind_assoc]
      have hline : Walks k k.bound (· = .firm) (do
          let _ ← some <$> execute line
          pure () : Shell (σ × Trace) Unit) (fun _ w => w ≠ .lost) fun _ w => w = .lost :=
        (Walks.map (execute_walks line)).bind (fun _ => .pure fun _ h => h) fun _ _ h => h
      refine .ask_bind (fun _ => ?_) (fun f => ?_) ?_
      · refine (takesTurn_of_walks hline _).mono fun o _ es => ?_
        rintro ⟨hin, hex, hw⟩
        refine ⟨hin, congrArg _ hex, fun ho => ?_⟩
        exact (hw (Trace.ordinary_cons.1 ho).2).append [_]
      · refine ⟨rfl, rfl, fun ho => ?_⟩
        rw [Trace.ordinary_cons, Event.isOrdinary_raised_of_isSure rfl] at ho
        cases ho.1
      · exact ⟨rfl, rfl, fun ho => nomatch (Trace.ordinary_cons.1 ho).1⟩

/-! ### The loop -/

/-- How the loop ends from a footing. -/
def Serves (rounds : Nat) (w : Footing) : Outcome Unit → Trace → Prop
  | .returned _, es => w.run es ≠ .lost ∧ es.HeardOut
  | .raised _, es => w.run es = .lost
  | .never, es => rounds ≤ es.length

/-- A turn before it changes nothing about how the loop ends. -/
theorem Serves.after_turn {w : Footing} {o : Outcome Unit} {turn es : Trace} {input : Input}
    (hin : turn.inputs = [input]) (hstay : input.leaves = false)
    (hex : turn.executed = input.note?.toList) (hturn : 0 < turn.length)
    (h : Serves rounds (w.run turn) o es) : Serves (rounds + 1) w o (turn ++ es) := by
  cases o with
  | returned a =>
    obtain ⟨hw, earlier, last, hes, hearlier, hlast, hnotes⟩ := h
    refine ⟨by rwa [Footing.run_append], input :: earlier, last, ?_, ?_, hlast, ?_⟩
    · rw [Trace.inputs_append, hin, hes]
      rfl
    · rintro i (_ | ⟨_, hi⟩)
      · exact hstay
      · exact hearlier i hi
    · rw [Trace.executed_append, hex, hnotes]
      cases hnote : input.note? <;> simp [hnote]
  | raised f => rwa [Serves, Footing.run_append]
  | never =>
    have hes : rounds ≤ es.length := h
    rw [Serves, List.length_append]
    omega

theorem reap_safe (announce : Bool) : Safe k (reap announce) := by
  refine .session_bind fun s => Safe.bind (.mapM fun job => ?_) fun _ => .pure _
  refine (Safe.ask rfl rfl).bind fun code => ?_
  cases code with
  | none => exact .pure none
  | some code =>
    refine (Safe.modifySession _).bind fun _ => (Safe.ask rfl rfl).bind fun _ => ?_
    show Safe k (if announce && !job.quiet then printLine _ >>= fun _ => pure _ else pure _)
    split
    · exact (Safe.ask rfl rfl).bind fun _ => .pure _
    · exact .pure _

/-- The user has been asked, and this is what he entered. -/
structure Asked (input : Input) (es : Trace) : Prop where
  inputs : es.inputs = [input]
  executed : es.executed = []
  firm : es.Ordinary → ∀ w : Footing, w ≠ .lost → w.run es = .firm

theorem Asked.length_pos {input : Input} {es : Trace} (h : Asked input es) : 0 < es.length := by
  cases es with
  | nil => cases h.inputs
  | cons e es => exact Nat.succ_pos _

/-- After the prompt's other requests the user is asked. -/
theorem asked_of_no_prompt {before : Trace} {text : String} {b : Bool} {input : Input}
    (h : before.Only fun r => !r.isPrompt)
    (hw : before.Ordinary → ∀ w : Footing, w ≠ .lost → w.run before ≠ .lost) :
    Asked input (before ++ [⟨.readInput text b, .returned input⟩]) where
  inputs := by
    rw [Trace.inputs_append, Trace.inputs_of_no_prompt h]
    rfl
  executed := by
    rw [Trace.executed_append, Trace.executed_of_no_prompt h]
    rfl
  firm ho w hne := by
    have hbefore := hw (Trace.ordinary_append.1 ho).1 w hne
    rw [Footing.run_append, Footing.run_cons, Footing.after_input hbefore, Footing.run_nil]

/-- What is to be shown of the rest of the loop, when some rounds of it are left. -/
abbrev Loops (rounds : Nat) (asked : Trace) : Post Unit := fun o _ es =>
  (asked ++ es).Ordinary → ∀ w, w ≠ .lost → Serves rounds w o (asked ++ es)

/-- The loop goes on after a turn, from whatever footing the turn has led to. -/
theorem turn_loops {user : String} (hrounds : rounds ≤ k.bound)
    (hloop : ∀ s, Ensures k (serveLines user rounds) s (Loops rounds [])) {asked : Trace}
    {input : Input} (hasked : Asked input asked) (hstay : input.leaves = false)
    (body : Shell (σ × Trace) Unit)
    (hbody : ∀ s, Ensures k body s fun o _ es => TakesTurn k.bound input.note? o es)
    (s : Session) : Ensures k (body >>= fun _ => serveLines user rounds) s
      (Loops (rounds + 1) asked) := by
  refine (hbody s).bind ?_ ?_ ?_
  · rintro _ s₁ es ⟨hin, hex, harr⟩
    refine (hloop s₁).mono fun o _ rest hserves ho w hw => ?_
    rw [← List.append_assoc] at ho ⊢
    obtain ⟨hturn, hrest⟩ := Trace.ordinary_append.1 ho
    obtain ⟨ha, hes⟩ := Trace.ordinary_append.1 hturn
    refine Serves.after_turn ?_ hstay ?_ ?_ (hserves hrest _ ?_)
    · rw [Trace.inputs_append, hasked.inputs, hin, List.append_nil]
    · rw [Trace.executed_append, hasked.executed, hex, List.nil_append]
    · rw [List.length_append]
      exact Nat.add_pos_left hasked.length_pos _
    · rw [Footing.run_append, hasked.firm ha w hw]
      exact harr hes
  · rintro f s₁ es ⟨-, -, harr⟩ ho w hw
    obtain ⟨ha, hes⟩ := Trace.ordinary_append.1 ho
    rw [Serves, Footing.run_append, hasked.firm ha w hw]
    exact harr hes
  · rintro s₁ es ⟨-, -, harr⟩ ho w hw
    have hes : k.bound ≤ es.length := harr (Trace.ordinary_append.1 ho).2
    have hpos := hasked.length_pos
    rw [Serves, List.length_append]
    omega

/-- The loop ends after the last words. -/
theorem leave_loops {asked : Trace} {input : Input} (hasked : Asked input asked)
    (hleave : input.leaves = true) (words : String) (s : Session) :
    Ensures k (printLine words) s (Loops rounds asked) := by
  refine (Safe.ask (k := k) rfl rfl rounds (· = .firm) s).mono fun o _ es => ?_
  rintro ⟨hes, hw⟩ ho w hne
  obtain ⟨ha, hrest⟩ := Trace.ordinary_append.1 ho
  have harr := hw hrest _ (hasked.firm ha w hne)
  cases o with
  | returned a =>
    refine ⟨?_, [], input, ?_, by simp, hleave, ?_⟩
    · rw [Footing.run_append, show Footing.run _ es = .firm from harr]
      decide
    · rw [Trace.inputs_append, hasked.inputs, Trace.inputs_of_no_prompt hes]
      rfl
    · rw [Trace.executed_append, hasked.executed, Trace.executed_of_no_prompt hes]
      rfl
  | raised f => exact harr.elim
  | never =>
    have hrounds : rounds ≤ es.length := harr
    show rounds ≤ (asked ++ es).length
    rw [List.length_append]
    omega

theorem serveLines_loops (user : String) (hrounds : rounds ≤ k.bound) (s : Session) :
    Ensures k (serveLines user rounds) s (Loops rounds []) := by
  induction rounds generalizing s with
  | zero => exact .never fun _ _ _ => Nat.zero_le _
  | succ rounds ih =>
    have hloop := ih (Nat.le_of_succ_le hrounds)
    have hquiet : ∀ {x : Shell (σ × Trace) Unit}, Safe k x → ∀ s,
        Ensures k x s fun o _ es => TakesTurn k.bound none o es := fun hx s =>
      takesTurn_of_walks ((hx _ _).mono (fun _ h => h) (fun _ w h => by rw [h]; decide)
        fun _ _ h => h.elim) s
    refine (reap_safe true (rounds + 1) (· ≠ .lost) s).bind ?_ ?_ ?_
    · rintro _ s₁ before ⟨hbefore, hw₀⟩
      refine .session_bind (.ask_bind (fun input => ?_) (fun f ho => ?_) fun ho => ?_)
      · -- what comes before the rest of the loop is what has asked the user
        have hasked : Asked input (before ++
            [⟨.readInput (promptText user s₁.cwd) s₁.interrupted, .returned input⟩]) :=
          asked_of_no_prompt hbefore hw₀
        have hshift : ∀ (o : Outcome Unit) (s' : Session) (e : Event) es,
            Loops (rounds + 1) (before ++ [e]) o s' es → (before ++ e :: es).Ordinary →
              ∀ w, w ≠ .lost → Serves (rounds + 1) w o (before ++ e :: es) := by
          intro o s' e es h
          rwa [Loops, List.append_assoc] at h
        have hturn := @turn_loops σ k rounds user (Nat.le_of_succ_le hrounds) hloop _ _ hasked
        cases hstep : Step.ofInput input with
        | leave words =>
          have hleave : Input.leaves input = true := by simp [Input.leaves, hstep]
          exact (leave_loops hasked hleave words s₁).mono fun o s' es => hshift o s' _ es
        | newLine =>
          have hnote : Input.note? input = none := by simp [Input.note?, hstep]
          refine (hturn (by simp [Input.leaves, hstep]) (printLine "") ?_ s₁).mono
            fun o s' es => hshift o s' _ es
          rw [hnote]
          exact hquiet (.ask rfl rfl)
        | skip =>
          have hnote : Input.note? input = none := by simp [Input.note?, hstep]
          refine (hturn (by simp [Input.leaves, hstep]) (pure ()) ?_ s₁).mono
            fun o s' es => hshift o s' _ es
          rw [hnote]
          exact hquiet (.pure ())
        | handle text =>
          have hnote : Input.note? input = note? text := by simp [Input.note?, hstep]
          refine (hturn (by simp [Input.leaves, hstep]) (handleNext text) ?_ s₁).mono
            fun o s' es => hshift o s' _ es
          rw [hnote]
          exact handleNext_takesTurn text
      · have he := ho _ (List.mem_append_right before (List.mem_singleton_self _))
        rw [Event.isOrdinary_raised_of_isSure rfl] at he
        cases he
      · cases ho _ (List.mem_append_right before (List.mem_singleton_self _))
    · rintro f s₁ es ⟨-, hw₀⟩ ho w hw
      exact (hw₀ ho w hw).elim
    · rintro s₁ es ⟨-, hw₀⟩ ho w hw
      exact hw₀ ho w hw

/-! ### Before and after the loop -/

/-- Whatever is caught of the typed lines' file, a fault that is not caught has cost the footing. -/
theorem typedLines_walks {C : Footing → Prop} {x : Shell (σ × Trace) Unit}
    (hx : Walks k rounds C x (fun _ => C) (Caught C)) (words : String) :
    Walks k rounds C (do
      if ← editorAvailable then
        x.handle Fault.isIo fun f => warn (words ++ f.message)) (fun _ => C)
      fun _ w => w = .lost := by
  refine (Safe.ask rfl rfl).bind_walks fun available => ?_
  cases available with
  | false => exact .pure fun _ h => h
  | true =>
    refine hx.handle (fun f hf => ?_) fun f w hf h => (h.fatal hf).2
    exact (Safe.ask rfl rfl).walks.of fun w h => h.footing hf

theorem loadHistory_walks {C : Footing → Prop} (path : String) (size : Int) :
    Walks k rounds C (loadHistory path size) (fun _ => C) fun _ w => w = .lost := by
  refine typedLines_walks ?_ _
  have hlimit : Walks k rounds C (do
      limitHistory size
      debug .history ("loaded " ++ toString (← historyLength) ++ " history entries from " ++ path) :
        Shell (σ × Trace) Unit) (fun _ => C) (Caught C) := by
    refine Walks.bind (.ask_caught rfl fun _ _ => rfl) (fun _ => ?_) fun _ _ h => h
    exact (Safe.ask rfl rfl).bind_walks fun length => (Safe.ask rfl rfl).walks
  refine (Safe.ask rfl rfl).bind_walks fun found => ?_
  cases found with
  | false => exact hlimit
  | true => exact Walks.bind (.ask_caught rfl fun _ _ => rfl) (fun _ => hlimit) fun _ _ h => h

theorem saveHistory_walks {C : Footing → Prop} (path : String) (size : Int) :
    Walks k rounds C (saveHistory path size) (fun _ => C) fun _ w => w = .lost := by
  refine typedLines_walks (Walks.bind (.ask_caught rfl fun _ _ => rfl) (fun _ => ?_)
    fun _ _ h => h) _
  exact .ask_caught rfl fun _ _ => rfl

theorem initEditor_walks {C : Footing → Prop} :
    Walks k rounds C initEditor (fun _ => C) fun _ w => w = .lost := by
  refine (Safe.ask rfl rfl).bind_walks fun available => ?_
  cases available with
  | false => exact .pure fun _ h => h
  | true =>
    refine (Safe.ask rfl rfl).bind_walks fun terminal => ?_
    cases terminal with
    | false => exact .pure fun _ h => h
    | true =>
      refine Walks.handle (F := fun f w => (isError f = true ∧ C w) ∨ (isError f = false ∧ w = .lost))
        (.forM fun key => .ask rfl (fun _ _ h => h) fun f w _ hw => ?_) (fun f hf => ?_) ?_
      · cases f with
        | interrupt => exact .inr ⟨rfl, by cases w <;> rfl⟩
        | _ => exact .inl ⟨rfl, by cases w <;> exact hw⟩
      · refine (Safe.ask rfl rfl).walks.of fun w h => ?_
        rcases h with ⟨-, hw⟩ | ⟨hno, -⟩
        · exact hw
        · rw [hf] at hno
          cases hno
      · rintro f w hf (⟨herror, -⟩ | ⟨-, hw⟩)
        · rw [hf] at herror
          cases herror
        · exact hw

theorem terminateAll_safe (announce : Bool) : Safe k (terminateAll announce) := by
  refine (reap_safe false).bind fun _ => .session_bind fun s => ?_
  refine Safe.bind (.mapM fun job => ?_) fun asked => ?_
  · refine (Safe.ask rfl rfl).bind fun status => ?_
    cases status with
    | some code => exact .pure none
    | none =>
      refine (Safe.ask rfl rfl).bind fun delivery => ?_
      cases delivery with
      | delivered =>
        cases announce with
        | true => exact (Safe.ask rfl rfl).bind fun _ => .pure _
        | false => exact .pure _
      | gone => exact .pure none
      | denied => exact (Safe.ask rfl rfl).bind fun _ => .pure none
  · refine (Safe.ask rfl rfl).bind fun alive => Safe.bind (.forM fun pid => .ask rfl rfl) fun _ => ?_
    refine .session_bind fun s => Safe.bind (.forM fun job => ?_) fun _ => .modifySession _
    refine (Safe.ask rfl rfl).bind fun status => ?_
    cases status with
    | none => exact .ask rfl rfl
    | some code => exact .pure ()

theorem leave_walks {C : Footing → Prop} :
    Walks k rounds C leave (fun _ => C) fun _ w => w = .lost := by
  refine .session_bind fun s => ?_
  have hend : Walks k rounds C (if s.settings.terminateOnExit then terminateAll true else pure () :
      Shell (σ × Trace) Unit) (fun _ => C) fun _ w => w = .lost := by
    split
    · exact (terminateAll_safe true).walks
    · exact .pure fun _ h => h
  show Walks k rounds C (if s.settings.useHistory then saveHistory _ _ >>= fun _ => _ else _) _ _
  split
  · exact (saveHistory_walks _ _).bind (fun _ => hend) fun _ _ h => h
  · exact hend

/-! ### The whole loop -/

/-- How the prompt loop ends, unless it takes too long: it returns zero just where no fault has
escaped, and then the user was heard until he left. -/
structure Served (bound : Nat) (o : Outcome Int) (es : Trace) : Prop where
  never : o = .never → bound ≤ es.length
  returned_iff : o ≠ .never → (o = .returned 0 ↔ Footing.firm.run es ≠ .lost)
  heardOut : o = .returned 0 → es.HeardOut

theorem Served.of_returned {bound : Nat} {es : Trace} (hw : Footing.firm.run es ≠ .lost)
    (h : es.HeardOut) : Served bound (.returned 0) es :=
  ⟨nofun, fun _ => iff_of_true rfl hw, fun _ => h⟩

theorem Served.of_raised {bound : Nat} {es : Trace} {f : Fault}
    (hw : Footing.firm.run es = .lost) : Served bound (.raised f) es :=
  ⟨nofun, fun _ => iff_of_false nofun fun h => h hw, nofun⟩

theorem Served.of_never {bound : Nat} {es : Trace} (h : bound ≤ es.length) :
    Served bound .never es :=
  ⟨fun _ => h, fun h => absurd rfl h, nofun⟩

/-- What is done before the loop changes nothing about who was heard. -/
theorem Trace.HeardOut.prepend {before es : Trace} (h : es.HeardOut)
    (hb : before.Only fun r => !r.isPrompt) : Trace.HeardOut (before ++ es) := by
  obtain ⟨earlier, last, hes, hearlier, hlast, hnotes⟩ := h
  refine ⟨earlier, last, ?_, hearlier, hlast, ?_⟩
  · rw [Trace.inputs_append, Trace.inputs_of_no_prompt hb, hes, List.nil_append]
  · rw [Trace.executed_append, Trace.executed_of_no_prompt hb, hnotes, List.nil_append]

/-- Nor does what is done after it. -/
theorem Trace.HeardOut.append {es after : Trace} (h : es.HeardOut)
    (ha : after.Only fun r => !r.isPrompt) : Trace.HeardOut (es ++ after) := by
  obtain ⟨earlier, last, hes, hearlier, hlast, hnotes⟩ := h
  refine ⟨earlier, last, ?_, hearlier, hlast, ?_⟩
  · rw [Trace.inputs_append, Trace.inputs_of_no_prompt ha, hes, List.append_nil]
  · rw [Trace.executed_append, Trace.executed_of_no_prompt ha, hnotes, List.append_nil]

/-- What has come of the loop when it has left such a trace. -/
def Left (result : Except Fault Unit) (es : Trace) : Prop :=
  match result with
  | .ok _ => Footing.firm.run es ≠ .lost ∧ es.HeardOut
  | .error _ => Footing.firm.run es = .lost

/-- What is done after the loop cannot make good for a fault that has escaped. -/
theorem leave_served {result : Except Fault Unit} {es : Trace} (h : es.Ordinary → Left result es)
    (s : Session) : Ensures k (do
      leave
      match result with
      | .ok _ => return 0
      | .error f => raise f : Shell (σ × Trace) Int) s fun o _ after =>
        (es ++ after).Ordinary → Served k.bound o (es ++ after) := by
  have hleave : Walks k k.bound (· = Footing.firm.run es) leave
      (fun _ w => w = Footing.firm.run es) fun _ w => w = .lost := leave_walks
  refine (hleave s).bind ?_ ?_ ?_
  · rintro _ s₁ after ⟨hafter, hw⟩
    have hrun : (es ++ after).Ordinary →
        Footing.firm.run (es ++ after) = Footing.firm.run es := fun ho => by
      rw [Footing.run_append]
      exact hw (Trace.ordinary_append.1 ho).2 _ rfl
    cases result with
    | ok a =>
      refine .pure fun ho => ?_
      rw [List.append_nil] at ho ⊢
      obtain ⟨hne, hheard⟩ := h (Trace.ordinary_append.1 ho).1
      exact .of_returned (by rwa [hrun ho]) (Trace.HeardOut.append hheard hafter)
    | error f =>
      refine .raise fun ho => ?_
      rw [List.append_nil] at ho ⊢
      exact .of_raised ((hrun ho).trans (h (Trace.ordinary_append.1 ho).1))
  · rintro f s₁ after ⟨-, hw⟩ ho
    refine .of_raised ?_
    rw [Footing.run_append]
    exact hw (Trace.ordinary_append.1 ho).2 _ rfl
  · rintro s₁ after ⟨-, hw⟩ ho
    have hlong : k.bound ≤ after.length := hw (Trace.ordinary_append.1 ho).2 _ rfl
    refine .of_never ?_
    rw [List.length_append]
    omega

/-- The loop and what comes after it, behind a trace that keeps the footing firm. -/
theorem loopAndLeave_served (user : String) {before : Trace}
    (hb : before.Only fun r => !r.isPrompt)
    (hfirm : before.Ordinary → Footing.firm.run before = .firm) (s : Session) :
    Ensures k (do
      let rounds ← bound
      let result ← (serveLines user rounds).attempt
      leave
      match result with
      | .ok _ => return 0
      | .error f => raise f : Shell (σ × Trace) Int) s fun o _ es =>
        (before ++ es).Ordinary → Served k.bound o (before ++ es) := by
  have hrun : ∀ es, (before ++ es).Ordinary →
      Footing.firm.run (before ++ es) = Footing.firm.run es := fun es ho => by
    rw [Footing.run_append, hfirm (Trace.ordinary_append.1 ho).1]
  refine .bound_bind ((serveLines_loops user (Nat.le_refl _) s).attempt_bind ?_ ?_ ?_)
  · rintro _ s₁ es hloops
    have hleft : (before ++ es).Ordinary → Left (.ok ()) (before ++ es) := fun ho => by
      obtain ⟨hne, hheard⟩ := hloops (Trace.ordinary_append.1 ho).2 .firm (by decide)
      exact ⟨by rwa [hrun es ho], Trace.HeardOut.prepend hheard hb⟩
    refine (leave_served hleft s₁).mono fun o _ after h => ?_
    rwa [List.append_assoc] at h
  · rintro f s₁ es hloops
    have hleft : (before ++ es).Ordinary → Left (.error f) (before ++ es) := fun ho =>
      (hrun es ho).trans (hloops (Trace.ordinary_append.1 ho).2 .firm (by decide))
    refine (leave_served hleft s₁).mono fun o _ after h => ?_
    rwa [List.append_assoc] at h
  · rintro s₁ es hloops ho
    have hlong : k.bound ≤ es.length :=
      hloops (Trace.ordinary_append.1 ho).2 .firm (by decide)
    refine .of_never ?_
    rw [List.length_append]
    omega

theorem serve_ensures (user : String) (s : Session) :
    Ensures k (serve user) s fun o _ es => es.Ordinary → Served k.bound o es := by
  refine .session_bind ?_
  show Ensures k (if s.settings.useHistory then _ >>= fun _ => _ >>= fun _ => _ else _) s _
  split
  · have hinit : Walks k k.bound (· = .firm) (do
        initEditor
        loadHistory s.settings.historyFile s.settings.historySize : Shell (σ × Trace) Unit)
        (fun _ w => w = .firm) fun _ w => w = .lost :=
      initEditor_walks.bind (fun _ => loadHistory_walks _ _) fun _ _ h => h
    rw [← bind_assoc]
    refine (hinit s).bind ?_ ?_ ?_
    · rintro _ s₁ before ⟨hb, hw⟩
      exact loopAndLeave_served user hb (fun ho => hw ho _ rfl) s₁
    · rintro f s₁ es ⟨-, hw⟩ ho
      exact .of_raised (hw ho _ rfl)
    · rintro s₁ es ⟨-, hw⟩ ho
      exact .of_never (hw ho _ rfl)
  · exact loopAndLeave_served user (Trace.only_nil _) (fun _ => rfl) s

end Shell

open Shell

/-- **When the prompt loop ends.** Whatever the surroundings answer, as long as they fail only in
ordinary ways, the loop hears the user out and returns zero just where no fault has escaped. -/
theorem serve_served {user : String} {s s' : Session} {out out' : σ} {o : Outcome Int} {es : Trace}
    (hrun : serve user k.traced ⟨s, (out, [])⟩ = (o, ⟨s', (out', es)⟩)) (hes : es.Ordinary) :
    Served k.bound o es :=
  ((serve_ensures user s).run hrun).2 hes

/-- A host where reading the output of `b` meets a fault behind its first line. -/
def promptedHost : Host Host.Scripted where
  programs := Host.Scripted.programs
    [("a", {}), ("b", { out := [120, 10], output := { ending := some (.system 5 none) } })]
  patience := 40

/-- The prompt loop on that host, with a user who does these things. -/
def promptedRun (deeds : List Host.Deed) :
    Outcome Int × World (Host.Machine Host.Scripted × Trace) :=
  serve "u" promptedHost.kernel.traced
    ⟨{ cwd := ⟨.root, []⟩, home := "/", settings := { historyFile := "", useHistory := false } },
      ({ terminal := { deeds } }, [])⟩

/-- A drain that will meet a fault, an interrupt at the prompt, and a line that is no command. -/
def troubled : List Host.Deed :=
  [.enters "a | b", .interrupts, .enters "c |", .enters "exit"]

/-- A line that names a file with a NUL in its name. -/
def nulNamed : List Host.Deed := [.enters "a < \x00", .enters "exit"]

/-- The name with a NUL ends the loop, and the user is not heard out. -/
theorem serve_raises_of_nul : (promptedRun nulNamed).1 = .raised .embeddedNul ∧
    (promptedRun nulNamed).2.outside.2.Ordinary ∧
    (promptedRun nulNamed).2.outside.2.inputs = [.line "a < \x00"] := by
  decide +kernel

/-- The faults of the drain and the rest are all survived. -/
theorem serve_served_of_troubled : (promptedRun troubled).1 = .returned 0 ∧
    Trace.HeardOut (promptedRun troubled).2.outside.2 := by
  have hes : (promptedRun troubled).2.outside.2.Ordinary := by decide +kernel
  have hended : (promptedRun troubled).1 ≠ .never ∧
      Footing.firm.run (promptedRun troubled).2.outside.2 ≠ .lost := by decide +kernel
  have hserved := serve_served (run_eta (promptedRun troubled)) hes
  have hreturned := (hserved.returned_iff hended.1).2 hended.2
  exact ⟨hreturned, hserved.heardOut hreturned⟩

end LineShell
