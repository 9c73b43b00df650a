import LineShell.Proofs.Footing
import LineShell.Proofs.Launch
import LineShell.Shell.Execute

namespace LineShell

/-!
# How lines recover

Where each part of running a line leads from a firm footing.

* `Fatal` — a fault that nothing in a line catches;
* `OpeningFault`, `TendingFault` — the faults of opening files, and of draining and waiting;
* `closing_walks`, `start_walks`, `drain_walks`, `awaitPipeline_walks` — the parts of a line;
* `execute_walks` — a line that raises a fault has lost the footing, and one that returns has not.
-/

variable {σ α : Type} {k : Kernel σ} {rounds : Nat} {C : Footing → Prop}

/-! ### Kinds of faults -/

/-- A fault that nothing in a line catches. -/
def Fatal (f : Fault) (w : Footing) : Prop := f.isCannotOpen = false ∧ w = .lost

/-- A fault of a request that is made where faults of input and output are caught. -/
def Caught (C : Footing → Prop) (f : Fault) (w : Footing) : Prop :=
  (f.isIo = true ∧ C w) ∨ (f.isIo = false ∧ w = .lost)

/-- A fault of opening files. -/
def OpeningFault (C : Footing → Prop) (f : Fault) (w : Footing) : Prop :=
  (f.isCannotOpen = true ∧ C w) ∨ Fatal f w

/-- A fault of draining a pipe and waiting. -/
def TendingFault (f : Fault) (w : Footing) : Prop :=
  (f.isIo = true ∧ w = .recovering) ∨ (f = .interrupt ∧ w = .firm) ∨
    (f.isIo = false ∧ f ≠ .interrupt ∧ w = .lost)

theorem not_isCannotOpen_of_not_isIo {f : Fault} (h : f.isIo = false) : f.isCannotOpen = false := by
  cases f <;> first | rfl | cases h

theorem Caught.fatal {f : Fault} {w : Footing} (h : Caught C f w) (hf : f.isIo = false) :
    Fatal f w := by
  rcases h with ⟨hio, -⟩ | ⟨-, hw⟩
  · rw [hf] at hio
    cases hio
  · exact ⟨not_isCannotOpen_of_not_isIo hf, hw⟩

theorem Caught.footing {f : Fault} {w : Footing} (h : Caught C f w) (hf : f.isIo = true) :
    C w := by
  rcases h with ⟨-, hw⟩ | ⟨hio, -⟩
  · exact hw
  · rw [hf] at hio
    cases hio

theorem OpeningFault.fatal {f : Fault} {w : Footing} (h : OpeningFault C f w)
    (hf : f.isCannotOpen = false) : Fatal f w := by
  rcases h with ⟨ho, -⟩ | hw
  · rw [hf] at ho
    cases ho
  · exact hw

theorem OpeningFault.footing {f : Fault} {w : Footing} (h : OpeningFault C f w)
    (hf : f.isCannotOpen = true) : C w := by
  rcases h with ⟨-, hw⟩ | ⟨ho, -⟩
  · exact hw
  · rw [hf] at ho
    cases ho

namespace Walks

/-- A request that is made where faults of input and output are caught. -/
theorem ask_caught {r : Request} (hp : r.isPrompt = false)
    (hr : ∀ (w : Footing) f, w.meets f r = if f.isIo then w else .lost) :
    Walks k rounds C (Shell.ask r) (fun _ => C) (Caught C) := by
  refine ask hp (fun _ _ h => h) fun f w _ hw => ?_
  by_cases hlost : w = .lost
  · subst hlost
    cases hf : f.isIo with
    | true => exact .inl ⟨hf, hw⟩
    | false => exact .inr ⟨hf, rfl⟩
  · rw [Footing.after_raised hlost, hr]
    cases hf : f.isIo with
    | true => exact .inl ⟨hf, hw⟩
    | false => exact .inr ⟨hf, rfl⟩

/-- A request that is made where nothing catches its faults. -/
theorem ask_fatal {r : Request} (hp : r.isPrompt = false)
    (hr : ∀ (w : Footing) f, w.meets f r = .lost) :
    Walks k rounds C (Shell.ask r) (fun _ => C) Fatal := by
  refine ask hp (fun _ _ h => h) fun f w he hw => ⟨Event.not_isCannotOpen he, ?_⟩
  by_cases hlost : w = .lost
  · rw [hlost, Footing.after_lost]
  · rw [Footing.after_raised hlost, hr]

/-- A request that is made while a pipeline is tended to. -/
theorem ask_tending {r : Request} (hp : r.isPrompt = false)
    (hr : ∀ f, Footing.meets .firm f r =
      if f.isIo then .recovering else if f = .interrupt then .firm else .lost) :
    Walks k rounds (· = .firm) (Shell.ask r) (fun _ w => w = .firm) TendingFault := by
  refine ask hp (fun _ _ h => h) fun f w _ hw => ?_
  subst hw
  rw [Footing.after_raised (by decide), hr]
  cases hf : f.isIo with
  | true => exact .inl ⟨hf, rfl⟩
  | false =>
    by_cases hi : f = .interrupt
    · exact .inr (.inl ⟨hi, by simp [hi]⟩)
    · exact .inr (.inr ⟨hf, hi, by simp [hi]⟩)

end Walks

namespace Shell

/-! ### Files -/

theorem closeAll_walks (ids : List FileId) : Walks k rounds C (closeAll ids)
    (fun o w => match o with | none => C w | some f => Fatal f w) fun _ _ => False := by
  induction ids generalizing C with
  | nil => exact .pure fun _ h => h
  | cons id ids ih =>
    refine (Walks.ask_fatal rfl fun _ _ => rfl).attempt_bind (fun _ => ?_) fun f => ?_
    · refine Walks.bind ih ?_ fun _ _ h => h
      rintro (_ | g)
      · exact .pure fun _ h => h
      · exact .pure fun _ h => h
    · refine Walks.bind ih ?_ fun _ _ h => h
      rintro (_ | g)
      · exact .pure fun _ h => h
      · exact .pure fun _ h => h

/-- A fault of closing files is fatal. -/
theorem closing_walks {x : Shell (σ × Trace) α} {R : α → Footing → Prop}
    {E : Fault → Footing → Prop} (ids : List FileId) (hx : Walks k rounds C x R E) :
    Walks k rounds C (closing ids x) R fun f w => E f w ∨ Fatal f w := by
  refine hx.attempt_bind (fun a => ?_) fun e => ?_
  · refine (closeAll_walks ids).bind ?_ fun _ _ h => h.elim
    rintro (_ | f)
    · exact .pure fun _ h => h
    · exact .raise fun _ h => .inr h
  · refine (closeAll_walks ids).bind ?_ fun _ _ h => h.elim
    rintro (_ | f)
    · exact .raise fun _ h => .inl h
    · exact .raise fun _ h => .inr h

theorem openTarget_walks (operand : String) (mode : OpenMode) :
    Walks k rounds C (openTarget operand mode) (fun _ => C) (OpeningFault C) := by
  refine .session_bind fun s => (Walks.ask_caught rfl fun _ _ => rfl).handle (fun f hf => ?_) ?_
  · exact .raise fun w h => .inl ⟨rfl, h.footing hf⟩
  · exact fun f w hf h => .inr (h.fatal hf)

theorem openOptional_walks (operand : Option String) (mode : OpenMode) (others : List FileId) :
    Walks k rounds C (openOptional operand mode others) (fun _ => C) (OpeningFault C) := by
  cases operand with
  | none => exact .pure fun _ h => h
  | some operand =>
    refine .map ((openTarget_walks operand mode).handle (fun f _ => ?_) fun _ _ _ h => h)
    refine (closing_walks (R := fun _ => C) others (.raise fun _ h => h)).mono (fun _ h => h)
      (fun _ _ h => h) ?_
    rintro g w (h | h)
    · exact h
    · exact .inr h

theorem openStage_walks (w : Wiring) :
    Walks k rounds C (openStage w) (fun _ => C) (OpeningFault C) := by
  refine (openOptional_walks _ _ _).bind (fun input => ?_) fun _ _ h => h
  refine (openOptional_walks _ _ _).bind (fun output => ?_) fun _ _ h => h
  exact (openOptional_walks _ _ _).bind (fun error => .pure fun _ h => h) fun _ _ h => h

theorem openStages_walks (stages : List (Command × Wiring)) : Walks k rounds C (openStages stages)
    (fun p w => match p.2 with | none => C w | some f => OpeningFault C f w) fun _ _ => False := by
  induction stages with
  | nil => exact .pure fun _ h => h
  | cons stage stages ih =>
    refine (openStage_walks stage.2).attempt_bind (fun files => ?_) fun f => .pure fun _ h => h
    exact ih.bind (fun p => .pure fun _ h => h) fun _ _ h => h

/-! ### Processes -/

theorem start_walks (command : Command) (streams : Streams) :
    Walks k rounds C (start command streams) (fun _ => C) Fatal := by
  refine .session_bind fun s => (Safe.ask rfl rfl).bind_walks fun _ => ?_
  refine (Walks.ask_caught rfl fun _ _ => rfl).attempt_bind (fun pid => ?_) fun f => ?_
  · exact (Safe.ask rfl rfl).bind_walks fun _ => .pure fun _ h => h
  · show Walks k rounds (Caught C f) (if f.isIo then _ else _) _ _
    cases hf : f.isIo with
    | true =>
      refine (Safe.ask rfl rfl).bind_walks fun _ => .pure fun w h => ?_
      exact h.footing hf
    | false => exact .raise fun w h => h.fatal hf

theorem link_safe {chunk : Int} (before : Predecessor) (pid : Option ProcessId) :
    Safe k (link chunk before pid) := by
  cases before with
  | running up => exact (Safe.ask rfl rfl).bind fun relay => .pure [relay]
  | none => exact .pure []
  | missing => exact .pure []

theorem launch_walks {foreground : Bool} {chunk : Int} (before : Predecessor) (plans : List Plan) :
    Walks k rounds C (launch foreground chunk before plans) (fun _ => C) Fatal := by
  induction plans generalizing before with
  | nil => exact .pure fun _ h => h
  | cons plan plans ih =>
    rw [launch_cons]
    refine (start_walks _ _).bind (fun pid => ?_) fun _ _ h => h
    refine (link_safe before pid).bind_walks fun relay => ?_
    exact (ih _).bind (fun r => .pure fun _ h => h) fun _ _ h => h

theorem register_safe (job : Job) (announce : Bool) : Safe k (register job announce) := by
  refine (Safe.modifySession _).bind fun _ => (Safe.ask rfl rfl).bind fun _ => ?_
  cases announce with
  | true => exact .ask rfl rfl
  | false => exact .pure ()

theorem detach_safe (stages : List Stage) : Safe k (detach stages) := by
  refine .forM fun stage => ?_
  cases stage.pid with
  | none => exact .pure ()
  | some pid =>
    refine (Safe.ask rfl rfl).bind fun status => ?_
    cases status with
    | none => exact register_safe _ _
    | some code => exact .pure ()

theorem leaveInterrupted_safe (text : String) (stages : List Stage) :
    Safe k (leaveInterrupted text stages) :=
  (Safe.modifySession _).bind fun _ => (Safe.ask rfl rfl).bind fun _ => detach_safe stages

theorem leaveInBackground_safe (line : CommandLine) (stages : List Stage) :
    Safe k (leaveInBackground line stages) := by
  refine (Safe.forM fun pid => register_safe _ _).bind fun _ => ?_
  cases stages.getLast?.bind Stage.pid with
  | none => exact .pure ()
  | some pid => exact register_safe _ _

/-! ### Draining and waiting -/

theorem wait_walks (pid : ProcessId) : Walks k rounds (· = .firm) (wait pid)
    (fun _ w => w = .firm) fun f w => f = .interrupt ∧ w = .firm := by
  refine .ask rfl (fun _ _ h => h) fun f w he hw => ?_
  subst hw
  simp only [Event.isOrdinary, Bool.and_eq_true, beq_iff_eq] at he
  exact ⟨he.2, rfl⟩

/-- Where a fault has been caught, nothing catches an interrupt. -/
theorem waitAgain_walks (pids : List ProcessId) : Walks k rounds (· = .recovering)
    (pids.forM fun pid => do let _ ← wait pid) (fun _ w => w = .recovering) Fatal := by
  refine .forM fun pid => Walks.bind (F := Fatal) (.ask rfl (fun _ _ h => h) fun f w he hw => ?_)
    (fun _ => .pure fun _ h => h) fun _ _ h => h
  subst hw
  exact ⟨Event.not_isCannotOpen he, rfl⟩

theorem awaitSingle_walks (command : Command) (pid : ProcessId) : Walks k rounds (· = .firm)
    (awaitSingle command pid) (fun _ w => w = .firm) fun _ _ => False := by
  refine (wait_walks pid).attempt_bind (fun code => ?_) fun f => ?_
  · show Walks k rounds _ (if code != 0 then report _ >>= fun _ => pure _ else pure _) _ _
    split
    · exact (Safe.ask rfl rfl).bind_walks fun _ => .pure fun _ h => h
    · exact .pure fun _ h => h
  · cases f with
    | interrupt =>
      refine (leaveInterrupted_safe _ _).bind_walks fun _ => .pure fun w h => h.2
    | _ => exact .raise fun w h => nomatch h.1

theorem startSingle_walks (line : CommandLine) :
    Walks k rounds C (startSingle line) (fun _ => C) (OpeningFault C) := by
  refine (openStage_walks _).bind (fun files => ?_) fun _ _ h => h
  refine (closing_walks _ (start_walks _ _)).mono (fun _ h => h) (fun _ _ h => h) ?_
  rintro f w (h | h)
  · exact .inr h
  · exact .inr h

theorem runSingle_walks (line : CommandLine) : Walks k rounds (· = .firm) (runSingle line)
    (fun _ w => w = .firm) Fatal := by
  refine (startSingle_walks line).attempt_bind (fun pid => ?_) fun f => ?_
  · cases pid with
    | none => exact .pure fun _ h => h
    | some pid =>
      show Walks k rounds _ (if line.blocks then _ else _) _ _
      split
      · exact (awaitSingle_walks _ _).mono (fun _ h => h) (fun _ _ h => h) fun _ _ h => h.elim
      · exact (register_safe _ _).bind_walks fun _ => .pure fun _ h => h
  · show Walks k rounds _ (if f.isCannotOpen then _ else _) _ _
    cases hf : f.isCannotOpen with
    | true => exact (Safe.ask rfl rfl).bind_walks fun _ => .pure fun w h => h.footing hf
    | false => exact .raise fun w h => h.fatal hf

theorem drainTo_walks (pid : ProcessId) {put : Text.Bytes → Shell (σ × Trace) Unit}
    (hput : ∀ n line, Walks k n (· = .firm) (put line) (fun _ w => w = .firm) TendingFault)
    (rounds : Nat) : Walks k rounds (· = .firm) (drainTo pid put rounds) (fun _ w => w = .firm)
      TendingFault := by
  induction rounds with
  | zero => exact fun _ => .never ⟨Trace.only_nil _, fun _ _ _ => Nat.zero_le _⟩
  | succ rounds ih =>
    refine Walks.ask_bind_succ (fun _ => .ask_tending rfl fun _ => rfl) (fun bytes => ?_)
      fun _ _ h => h
    cases bytes with
    | nil => exact .pure fun _ h => h
    | cons b bytes => exact (hput _ _).bind (fun _ => ih) fun _ _ h => h

theorem drain_walks (pid : ProcessId) (sink : Option FileId) : Walks k k.bound (· = .firm)
    (drain pid sink) (fun _ w => w = .firm) TendingFault := by
  refine .bound_bind (f := fun rounds => _) ?_
  cases sink with
  | some file =>
    refine (drainTo_walks pid (fun _ _ => .ask_tending rfl fun _ => rfl) _).bind (fun _ => ?_)
      fun _ _ h => h
    exact .ask_tending rfl fun _ => rfl
  | none =>
    refine Walks.bind (.ask_tending rfl fun _ => rfl) (fun takesBytes => ?_) fun _ _ h => h
    cases takesBytes with
    | true =>
      refine Walks.bind (.ask_tending rfl fun _ => rfl) (fun _ => ?_) fun _ _ h => h
      refine (drainTo_walks pid (fun _ _ => .ask_tending rfl fun _ => rfl) _).bind (fun _ => ?_)
        fun _ _ h => h
      exact .ask_tending rfl fun _ => rfl
    | false =>
      refine (drainTo_walks pid (fun _ _ => (Safe.ask rfl rfl).walks) _).bind (fun _ => ?_)
        fun _ _ h => h
      exact .ask_tending rfl fun _ => rfl

/-- An interrupt of a wait is one of the faults of tending. -/
theorem wait_tends (pid : ProcessId) :
    Walks k rounds (· = .firm) (wait pid) (fun _ w => w = .firm) TendingFault :=
  (wait_walks pid).mono (fun _ h => h) (fun _ _ h => h) fun _ _ h => .inr (.inl h)

theorem drainLast_walks (sink : Option FileId) (last : Option ProcessId) :
    Walks k k.bound (· = .firm) (drainLast sink last) (fun _ w => w = .firm) TendingFault := by
  cases last with
  | none => exact .pure fun _ h => h
  | some pid =>
    refine (drain_walks pid sink).bind (fun _ => ?_) fun _ _ h => h
    refine Walks.bind (.ask_tending rfl fun _ => rfl) (fun _ => ?_) fun _ _ h => h
    exact wait_tends pid

theorem awaitOthers_walks (stages : List Stage) (relays : List RelayId) :
    Walks k rounds (· = .firm) (awaitOthers stages relays) (fun _ w => w = .firm)
      TendingFault := by
  refine Walks.bind (.forM fun relay => .ask_tending rfl fun _ => rfl) (fun _ => ?_)
    fun _ _ h => h
  exact .forM fun pid => (wait_tends pid).bind (fun _ => .pure fun _ h => h) fun _ _ h => h

theorem collect_walks (sink : Option FileId) (stages : List Stage) (relays : List RelayId) :
    Walks k k.bound (· = .firm) (collect sink stages relays)
      (fun c w => match c.fault with | none => w = .firm | some f => TendingFault f w)
      fun _ _ => False := by
  refine (drainLast_walks _ _).attempt_bind (fun code => ?_) fun f => .pure fun _ h => h
  exact (awaitOthers_walks _ _).attempt_bind (fun _ => .pure fun _ h => h) fun f =>
    .pure fun _ h => h

/-! ### Whole lines -/

theorem awaitPipeline_walks (sink : Option FileId) (stages : List Stage) (relays : List RelayId)
    (result : Result) : Walks k k.bound (· = .firm) (awaitPipeline sink stages relays result)
      (fun _ w => w ≠ .lost) Fatal := by
  refine (collect_walks sink stages relays).bind ?_ fun _ _ h => h.elim
  rintro ⟨code, _ | f⟩
  · exact .pure fun w h => by rw [show w = .firm from h]; decide
  · -- the faults of input and output are caught once, an interrupt leaves the footing firm
    have hio : f.isIo = true → Walks k k.bound (TendingFault f) (do
        report ("error running pipeline: " ++ f.message)
        (pidsOf stages).forM fun pid => do
          let _ ← wait pid
        return Ending.done { result with exitCode := code, failure := some .io } :
          Shell (σ × Trace) Ending) (fun _ w => w ≠ .lost) Fatal := by
      intro hf
      refine (Safe.ask rfl rfl).bind_walks fun _ => ?_
      refine ((waitAgain_walks _).of fun w h => ?_).bind (fun _ => .pure fun w h => ?_)
        fun _ _ h => h
      · rcases h with ⟨-, hw⟩ | ⟨rfl, -⟩ | ⟨hno, -⟩
        · exact hw
        · cases hf
        · rw [hf] at hno
          cases hno
      · rw [show w = .recovering from h]
        decide
    cases f with
    | interrupt =>
      refine (leaveInterrupted_safe _ _).bind_walks fun _ => .pure fun w h => ?_
      rcases h with ⟨hf, -⟩ | ⟨-, rfl⟩ | ⟨-, hne, -⟩
      · cases hf
      · decide
      · exact absurd rfl hne
    | system | described | brokenPipe | cannotOpen => exact hio rfl
    | invalid | wrongKind | outOfRange | linkLoop =>
      refine .raise fun w h => ⟨rfl, ?_⟩
      rcases h with ⟨hf, -⟩ | ⟨hf, -⟩ | ⟨-, -, hw⟩
      · cases hf
      · cases hf
      · exact hw

theorem runStages_walks (line : CommandLine) (plans : List Plan) : Walks k k.bound (· = .firm)
    (runStages line plans) (fun _ w => w ≠ .lost) Fatal := by
  refine .session_bind fun s => (launch_walks _ _).bind (fun p => ?_) fun _ _ h => h
  show Walks k k.bound _ (if line.blocks then _ else _) _ _
  split
  · exact awaitPipeline_walks _ _ _ _
  · exact (leaveInBackground_safe _ _).bind_walks fun _ => .pure fun w h => by rw [h]; decide

theorem refuse_walks (f : Fault) : Walks k rounds (OpeningFault (· = .firm) f) (refuse f)
    (fun _ w => w ≠ .lost) Fatal := by
  show Walks k rounds _ (if f.isCannotOpen then _ else _) _ _
  cases hf : f.isCannotOpen with
  | true =>
    refine (Safe.ask rfl rfl).bind_walks fun _ => .pure fun w h => ?_
    rw [show w = .firm from h.footing hf]
    decide
  | false => exact .raise fun w h => h.fatal hf

theorem reportRelays_safe (result : Result) (relays : List RelayId) :
    Safe k (reportRelays result relays) := by
  induction relays generalizing result with
  | nil => exact .pure result
  | cons relay relays ih =>
    refine (Safe.ask rfl rfl).bind fun fault => ?_
    cases fault with
    | none => exact ih result
    | some f => exact (Safe.ask rfl rfl).bind fun _ => ih _

theorem reportExit_safe (result : Result) (lastStarted : Bool) :
    Safe k (reportExit result lastStarted) := by
  unfold reportExit
  split
  · exact .pure ()
  · split
    · exact .ask rfl rfl
    · exact .pure ()

theorem runPipeline_walks (line : CommandLine) : Walks k k.bound (· = .firm) (runPipeline line)
    (fun _ w => w ≠ .lost) Fatal := by
  refine (openStages_walks _).bind ?_ fun _ _ h => h.elim
  rintro ⟨plans, fault⟩
  have hbody : Walks k k.bound
      (match fault with | none => (· = .firm) | some f => OpeningFault (· = .firm) f)
      (match fault with | none => runStages line plans | some f => refuse f)
      (fun _ w => w ≠ .lost) Fatal := by
    cases fault with
    | none => exact runStages_walks line plans
    | some f => exact refuse_walks f
  refine ((closing_walks (idsOf plans) hbody).of fun w h => ?_).bind (fun ending => ?_)
    fun f w h => ?_
  · cases fault <;> exact h
  · cases ending with
    | done result => exact .pure fun _ h => h
    | exited result relays lastStarted =>
      exact (reportRelays_safe _ _).bind_walks fun result =>
        (reportExit_safe _ _).bind_walks fun _ => .pure fun _ h => h
  · exact h.elim id id

theorem changeDirectory_walks (command : Command) : Walks k rounds C (changeDirectory command)
    (fun _ => C) fun _ w => w = .lost := by
  have hmove : ∀ target path, Walks k rounds C (moveTo target path) (fun _ => C)
      fun _ w => w = .lost := by
    intro target path
    refine (Walks.ask_fatal rfl fun _ _ => rfl).bind (fun isDirectory => ?_) fun _ _ h => h.2
    cases isDirectory with
    | true =>
      refine .session_bind fun s => (Safe.ask rfl rfl).bind_walks fun _ => ?_
      exact (Safe.modifySession _).bind_walks fun _ => .pure fun _ h => h
    | false => exact (Safe.ask rfl rfl).bind_walks fun _ => .pure fun _ h => h
  refine .session_bind fun s => Walks.attempt_bind
    (F := fun f w => if isUnreachable f then C w else w = .lost)
    (.ask rfl (fun _ _ h => h) fun f w _ hw => ?_) (hmove _) fun f => ?_
  · by_cases hlost : w = .lost
    · subst hlost
      split
      · exact hw
      · rfl
    · rw [Footing.after_raised hlost]
      show if isUnreachable f then C (if isUnreachable f then w else .lost)
        else (if isUnreachable f then w else .lost) = .lost
      cases isUnreachable f with
      | true => exact hw
      | false => rfl
  · show Walks k rounds _ (if isUnreachable f then _ else _) _ _
    cases hf : isUnreachable f with
    | true => exact (Safe.ask rfl rfl).bind_walks fun _ => .pure fun _ h => by simpa [hf] using h
    | false => exact .raise fun _ h => by simpa [hf] using h

/-- **Where a line leads.** From a firm footing a line that returns is not lost, and one that raises
a fault is. -/
theorem execute_walks (line : CommandLine) : Walks k k.bound (· = .firm) (execute line)
    (fun _ w => w ≠ .lost) fun _ w => w = .lost := by
  have hfirm : ∀ (w : Footing), w = .firm → w ≠ .lost := by
    rintro w rfl
    decide
  unfold execute
  split
  · exact (changeDirectory_walks _).mono (fun _ h => h) (fun _ => hfirm) fun _ _ h => h
  · split
    · exact (runPipeline_walks line).mono (fun _ h => h) (fun _ _ h => h) fun _ _ h => h.2
    · exact (runSingle_walks line).mono (fun _ h => h) (fun _ => hfirm) fun _ _ h => h.2

end Shell

end LineShell
