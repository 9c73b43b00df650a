import LineShell.Proofs.Assembly
import LineShell.Proofs.Drain

namespace LineShell.Host

open Text (Bytes)

/-!
# Runs of the interpreter on a machine

* `Moves` — processes and relays take steps in any order, while turns and time pass;
* `Plays` — a machine answers requests as hosts do, and between them moves as it likes;
* `Host.plays_of_follows` — what a host answers is such a play, whatever its schedule is;
* `Later` — what there was before is still there: nobody takes back what he has read;
* `Later.of_answer`, `Later.of_plays` — and so it is after requests that start nothing.
-/

variable {S : Type}

/-- Processes and relays take steps in any order, while turns and time pass. -/
inductive Moves (ps : Programs S) (m : Machine S) : Machine S → Prop
  | refl : Moves ps m m
  | step {m₁ m₂ : Machine S} {n : Nat} (h : Moves ps m m₁) (hstep : m₁.stepActor ps n = some m₂) :
      Moves ps m m₂
  | pass {m₁ : Machine S} (h : Moves ps m m₁) (turn clock : Nat) :
      Moves ps m { m₁ with turn, clock }

/-- A machine answers requests as hosts of some programs do, and between them moves as it likes. -/
def Plays (ps : Programs S) : Machine S → Trace → Machine S → Prop
  | m, [], m' => Moves ps m m'
  | m, e :: es, m' => ∃ (m₁ m₂ : Machine S) (h : Host S), Moves ps m m₁ ∧ h.programs = ps ∧
      h.answer e.request m₁ = (e.outcome, m₂) ∧ Plays ps m₂ es m'

variable {ps : Programs S} {m m₁ m₂ m' : Machine S} {es es' : Trace}

theorem Moves.trans (h : Moves ps m m₁) (h' : Moves ps m₁ m₂) : Moves ps m m₂ := by
  induction h' with
  | refl => exact h
  | step _ hstep ih => exact ih.step hstep
  | pass _ turn clock ih => exact ih.pass turn clock

theorem plays_of_moves (h : Moves ps m m₁) (h' : Plays ps m₁ es m') : Plays ps m es m' := by
  cases es with
  | nil => exact h.trans h'
  | cons e es =>
    obtain ⟨m₂, m₃, host, hmoves, hrest⟩ := h'
    exact ⟨m₂, m₃, host, h.trans hmoves, hrest⟩

theorem plays_append :
    Plays ps m (es ++ es') m' ↔ ∃ mid, Plays ps m es mid ∧ Plays ps mid es' m' := by
  induction es generalizing m with
  | nil =>
    -- moves before the first request may be counted on either side
    constructor
    · exact fun h => ⟨m, .refl, h⟩
    · rintro ⟨mid, h, h'⟩
      exact plays_of_moves h h'
  | cons e es ih =>
    simp only [List.cons_append, Plays, ih]
    constructor
    · rintro ⟨m₁, m₂, host, hmoves, hps, hanswer, mid, h, h'⟩
      exact ⟨mid, ⟨m₁, m₂, host, hmoves, hps, hanswer, h⟩, h'⟩
    · rintro ⟨mid, ⟨m₁, m₂, host, hmoves, hps, hanswer, h⟩, h'⟩
      exact ⟨m₁, m₂, host, hmoves, hps, hanswer, mid, h, h'⟩

/-! ### Hosts -/

variable {β : Type} (h : Host S)

theorem step_moves (hstep : h.step m = some m₁) : Moves h.programs m m₁ := by
  simp only [step, Option.map_eq_some_iff] at hstep
  obtain ⟨m₂, hfound, rfl⟩ := hstep
  obtain ⟨k, -, hk⟩ := List.exists_of_findSome?_eq_some hfound
  exact (Moves.refl.step hk).pass (m₂.turn + 1) m₂.clock

theorem settle_moves (fuel : Nat) (m : Machine S) : Moves h.programs m (h.settle fuel m) := by
  induction fuel generalizing m with
  | zero => exact .refl
  | succ fuel ih =>
    unfold settle
    split
    · exact .refl
    · exact (h.step_moves ‹_›).trans (ih _)

/-- What has happened after some steps has happened by then. -/
theorem runUntil_moves {happened : Machine S → Option β} {fuel : Nat} {o : Option β}
    (hrun : h.runUntil happened fuel m = (o, m₁)) :
    Moves h.programs m m₁ ∧ ∀ b, o = some b → happened m₁ = some b := by
  induction fuel generalizing m with
  | zero =>
    cases hrun
    exact ⟨.refl, nofun⟩
  | succ fuel ih =>
    unfold runUntil at hrun
    split at hrun
    · rename_i b hb
      cases hrun
      refine ⟨.refl, ?_⟩
      rintro _ ⟨⟩
      exact hb
    · split at hrun
      · rename_i m₂ hstep
        obtain ⟨hmoves, hb⟩ := ih hrun
        exact ⟨(h.step_moves hstep).trans hmoves, hb⟩
      · split at hrun
        · cases hrun
          exact ⟨.refl, nofun⟩
        · split at hrun
          · cases hrun
            exact ⟨.refl, nofun⟩
          · rename_i time _ _
            obtain ⟨hmoves, hb⟩ := ih hrun
            exact ⟨(Moves.refl.pass m.turn time).trans hmoves, hb⟩

/-- **Every schedule is a play.** -/
theorem plays_of_follows {es : Trace} {m' : Machine S} (hfollows : h.kernel.Follows m es m') :
    Plays h.programs m es m' := by
  induction es generalizing m with
  | nil =>
    cases hfollows
    exact .refl
  | cons e es ih =>
    obtain ⟨mid, hanswer, hrest⟩ := hfollows
    exact ⟨m, mid, h, .refl, rfl, hanswer, ih hrest⟩

/-! ### Answers -/

namespace Machine

theorem openHandle_net (m : Machine S) (path : String) (mode : OpenMode) :
    (m.openHandle path mode).2.net = m.net := by
  unfold openHandle
  split
  · rfl
  · split
    · rfl
    · rename_i heq
      have hnet := openPath_net heq
      exact hnet

theorem flushHandle_net (m : Machine S) (id : FileId) : (m.flushHandle id).2.net = m.net := by
  unfold flushHandle
  split
  · rfl
  · split
    · rfl
    · split
      · rfl
      · split
        · rfl
        · rename_i heq
          have hnet := writeOpening_net heq
          exact hnet

theorem writeHandle_net (m : Machine S) (id : FileId) (bytes : Bytes) :
    (m.writeHandle id bytes).2.net = m.net := by
  have hflush := flushHandle_net m id
  unfold writeHandle
  split
  · rfl
  · split
    · rfl
    · split
      · rfl
      · split
        · rename_i heq
          rw [heq] at hflush
          split
          · exact hflush
          · split
            · exact hflush
            · rename_i heq
              exact (writeOpening_net heq).trans hflush
        · exact hflush

theorem closeHandle_net (m : Machine S) (id : FileId) : (m.closeHandle id).2.net = m.net := by
  unfold closeHandle
  split
  · rfl
  · split
    · rfl
    · exact flushHandle_net m id

theorem bind_net (m : Machine S) (binding : String) : (m.bind binding).2.net = m.net := by
  unfold bind
  split
  · split <;> rfl
  · rfl

theorem loadEntries_net (m : Machine S) (path : String) : (m.loadEntries path).2.net = m.net := by
  unfold loadEntries
  split
  · rfl
  · split
    · rfl
    · split <;> rfl

theorem cutEntries_net (m : Machine S) (path : String) : (m.cutEntries path).net = m.net := by
  unfold cutEntries
  split
  · rfl
  · simp only
    split
    · rfl
    · split <;> rfl

theorem saveEntries_net (m : Machine S) (path : String) : (m.saveEntries path).2.net = m.net := by
  unfold saveEntries
  split
  · rfl
  · split
    · rfl
    · exact cutEntries_net _ path

end Machine

/-- Requests that concern neither processes nor relays change nothing that these share. Neither does
the handing on of bytes. -/
theorem answer_net {r : Request} (hr : r.isAside = true ∨ r.isDrain = true)
    (hread : ∀ pid, r ≠ .readOutput pid) (m : Machine S) : (h.answer r m).2.net = m.net := by
  cases r with
  | openFile path mode => exact m.openHandle_net path mode
  | writeFile id bytes => exact m.writeHandle_net id bytes
  | flushFile id => exact m.flushHandle_net id
  | closeFile id => exact m.closeHandle_net id
  | canonical path =>
    unfold answer
    simp only
    split
    · rfl
    · split <;> rfl
  | isDirectory path =>
    unfold answer
    simp only
    split <;> rfl
  | log record => exact Machine.log_net m record
  | bindKey binding => exact m.bind_net binding
  | readHistory path => exact m.loadEntries_net path
  | limitHistory size =>
    unfold answer
    simp only
    split <;> rfl
  | writeHistory path => exact m.saveEntries_net path
  | readOutput pid => exact absurd rfl (hread pid)
  | _ => first | rfl | exact absurd hr (by simp [Request.isAside, Request.isDrain])

/-- What a read of a process's output has brought when it returns. -/
theorem answer_readOutput {pid : ProcessId} {line : Bytes}
    (hanswer : h.answer (.readOutput pid) m = (.returned line, m₁)) :
    ∃ j m₂ o, m.outputPipe? pid = some j ∧ Moves h.programs m m₂ ∧ m₂.pipes[j]? = some o ∧
      ((∃ o', o.readLine = .gave line o' ∧ m₁ = m₂.modifyPipe j fun _ => o') ∨
        line = [] ∧ o.readLine = .ended none ∧ m₁ = m₂) := by
  change h.readLine m pid = _ at hanswer
  unfold readLine at hanswer
  split at hanswer
  · cases hanswer
  · rename_i j hj
    simp only at hanswer
    split at hanswer
    · cases hanswer
    · -- what the read waits for is a line or the end
      split at hanswer <;> cases hanswer <;> rename_i hrun <;>
        obtain ⟨hmoves, hhappened⟩ := h.runUntil_moves hrun <;>
        have hready := hhappened _ rfl <;> split at hready <;> cases hready <;>
        obtain ⟨o, ho, hread⟩ := Option.map_eq_some_iff.1 ‹_ = some _›
      · exact ⟨j, _, o, hj, hmoves, ho, .inl ⟨_, hread, rfl⟩⟩
      · exact ⟨j, _, o, hj, hmoves, ho, .inr ⟨rfl, hread, rfl⟩⟩

/-- What comes of an attempt to start a process. -/
theorem answer_spawn {argv : List String} {cwd : Path} {streams : Streams}
    {o : Outcome ProcessId} (hanswer : h.answer (.spawn argv cwd streams) m = (o, m₁)) :
    (∃ f, o = .raised f ∧ m₁.net = m.net) ∨ ∃ launch, h.programs.find m.files cwd argv = .ok launch ∧
      (o, m₁) = (.returned (m.addProcess argv cwd streams launch).1,
        (m.addProcess argv cwd streams launch).2) := by
  change h.spawn m argv cwd streams = _ at hanswer
  unfold spawn at hanswer
  split at hanswer
  · cases hanswer
    exact .inl ⟨_, rfl, rfl⟩
  · cases hanswer
    exact .inr ⟨_, ‹_›, rfl⟩

/-- What comes of starting a relay, if that returns. -/
theorem answer_startRelay {writer : ProcessId} {reader : Option ProcessId} {chunk : Int}
    {relay : RelayId}
    (hanswer : h.answer (.startRelay writer reader chunk) m = (.returned relay, m₁)) :
    ∃ source, m.outputPipe? writer = some source ∧ m₁ = { m with
      relays := m.relays.push { source, sink := reader.bind m.inputPipe?, chunk } } := by
  change m.addRelay writer reader chunk = _ at hanswer
  unfold Machine.addRelay at hanswer
  split at hanswer
  · cases hanswer
  · cases hanswer
    exact ⟨_, ‹_›, rfl⟩

/-! ### What lasts -/

theorem layout_of_net (hnet : m₁.net = m.net) : m₁.layout = m.layout := by
  have hprocesses : m₁.processes = m.processes := congrArg Net.processes hnet
  have hrelays : m₁.relays = m.relays := congrArg Net.relays hnet
  have hpid : m₁.nextPid = m.nextPid := congrArg Net.nextPid hnet
  have hinherited : m₁.inherited = m.inherited := congrArg Net.inherited hnet
  have hpipes : m₁.pipes = m.pipes := congrArg Net.pipes hnet
  unfold Machine.layout
  rw [hprocesses, hrelays, hpid, hinherited, hpipes]

/-- What there was before is still there, and nobody has come: processes have gone on, and relays
that had ended have stayed as they were. -/
structure Later (m m₁ : Machine S) : Prop where
  layout : m₁.layout = m.layout
  process : ∀ {k : Nat} {p : Process S}, m.processes[k]? = some p →
    ∃ q, m₁.processes[k]? = some q ∧ p.Goes q
  relay : ∀ {n : Nat} {r : RelayTask}, m.relays[n]? = some r → r.done = true →
    m₁.relays[n]? = some r

namespace Later

theorem of_net (hnet : m₁.net = m.net) : Later m m₁ where
  layout := layout_of_net hnet
  process {k p} hp := ⟨p, (congrArg (·.processes[k]?) hnet).trans hp, Machine.goes_refl p⟩
  relay {n _} hr _ := (congrArg (·.relays[n]?) hnet).trans hr

theorem trans (hl : Later m m₁) (hl' : Later m₁ m₂) : Later m m₂ where
  layout := hl'.layout.trans hl.layout
  process hp := by
    obtain ⟨q, hq, hgoes⟩ := hl.process hp
    obtain ⟨q', hq', hgoes'⟩ := hl'.process hq
    exact ⟨q', hq', hgoes.trans hgoes'⟩
  relay hr hd := hl'.relay (hl.relay hr hd) hd

theorem of_stepOf {k : Nat} {p : Process S} (hp : m.processes[k]? = some p)
    (hs : Machine.StepOf k p m m₁) : Later m m₁ := by
  have hlayout := hs.layout hp
  obtain ⟨hkept, q, hq, hgoes⟩ := hs
  refine ⟨hlayout, fun {j p'} hp' => ?_, fun {n r} hr _ => (hkept.relay n id).trans hr⟩
  by_cases hj : j = k
  · subst hj
    cases hp.symm.trans hp'
    exact ⟨q, hq, hgoes⟩
  · exact ⟨p', (hkept.process j hj).trans hp', Machine.goes_refl p'⟩

theorem of_relayOf {j : Nat} {r : RelayTask} (hr : m.relays[j]? = some r) (hd : r.done = false)
    (hs : Machine.RelayOf j r m m₁) : Later m m₁ := by
  refine ⟨hs.layout hr, fun {k p} hp => ⟨p, (hs.1.process k id).trans hp, Machine.goes_refl p⟩,
    fun {n r'} hr' hd' => ?_⟩
  refine (hs.1.relay n ?_).trans hr'
  -- a relay that has ended is not the one that takes the step
  rintro rfl
  cases hr.symm.trans hr'
  rw [hd] at hd'
  cases hd'

theorem modifyPipe (m : Machine S) (j : Nat) (f : Pipe → Pipe) : Later m (m.modifyPipe j f) where
  layout := m.layout_modifyPipe j f
  process {_ p} hp := ⟨p, hp, Machine.goes_refl p⟩
  relay hr _ := hr

theorem modifyProcess (m : Machine S) (i : Nat) {f : Process S → Process S}
    (hf : ∀ p : Process S, p.Goes (f p)) : Later m (m.modifyProcess i f) := by
  cases hp : m.processes[i]? with
  | none =>
    -- there is nobody to be changed
    have hsame : m.processes.modify i f = m.processes := by
      refine Array.ext_getElem? fun k => ?_
      rw [Array.getElem?_modify]
      split
      · rename_i hk
        rw [← hk, hp]
        rfl
      · rfl
    refine .of_net ?_
    rw [Machine.modifyProcess, hsame]
  | some p => exact .of_stepOf hp (.of_net rfl hp (hf p))

theorem retire (m : Machine S) (i : Nat) (life : Life) : Later m (m.retire i life) := by
  cases hp : m.processes[i]? with
  | none =>
    unfold Machine.retire
    rw [hp]
    exact .of_net rfl
  | some p => exact .of_stepOf hp (Machine.retire_stepOf hp life)

theorem of_moves (hquiet : ∀ s pid number next, ps.next s ≠ .signal pid number next)
    (hm : Moves ps m m₁) : Later m m₁ := by
  induction hm with
  | refl => exact .of_net rfl
  | step _ hstep ih =>
    unfold Machine.stepActor at hstep
    split at hstep
    · obtain ⟨p, hp, hs⟩ := Machine.stepProcess_stepOf hquiet hstep
      exact ih.trans (.of_stepOf hp hs)
    · obtain ⟨r, hr, hd, hs⟩ := Machine.stepRelay_relayOf hstep
      exact ih.trans (.of_relayOf hr hd hs)
  | pass _ turn clock ih => exact ih.trans (.of_net rfl)

/-! Whatever is done to processes, they go on. -/

theorem observe (m : Machine S) (i : Nat) (status : Int) : Later m (m.observe i status) :=
  modifyProcess m i fun _ => .of_descriptors rfl (List.suffix_refl _) rfl

theorem strike (m : Machine S) (i : Nat) (signal : Signal) (status : Int) :
    Later m (m.strike i signal status) :=
  ((retire m i _).trans (observe _ i status)).trans
    (modifyProcess _ i fun _ => .of_descriptors rfl (List.suffix_refl _) rfl)

theorem terminate (m : Machine S) (pid : ProcessId) : Later m (m.terminate pid).2 := by
  unfold Machine.terminate
  split
  · split
    · exact .of_net rfl
    · exact .of_net rfl
    · exact strike m _ _ _
    all_goals exact modifyProcess m _ fun _ => .of_descriptors rfl (List.suffix_refl _) rfl
  · exact .of_net rfl

theorem kill (m : Machine S) (pid : ProcessId) : Later m (m.kill pid) := by
  unfold Machine.kill
  split
  · split
    · exact retire m _ _
    · exact strike m _ _ _
  · exact .of_net rfl

theorem finish (m : Machine S) (pid : ProcessId) (status : Option Int) :
    Later m (m.finish pid status) := by
  unfold Machine.finish
  split
  · split
    · exact .of_net rfl
    · split
      · exact .of_net rfl
      · exact modifyProcess m _ fun _ => .of_descriptors rfl (List.suffix_refl _) rfl
    · exact retire m _ _
  · exact .of_net rfl

theorem finishAll (m : Machine S) (pids : List ProcessId) :
    Later m (pids.foldl (fun m pid => m.finish pid none) m) := by
  induction pids generalizing m with
  | nil => exact .of_net rfl
  | cons pid pids ih => exact (finish m pid none).trans (ih _)

theorem nextInput (m : Machine S) (deeds : List Deed) : Later m (m.nextInput deeds).2 := by
  induction deeds generalizing m with
  | nil => exact .of_net rfl
  | cons deed deeds ih =>
    cases deed with
    | enters line => exact .of_net rfl
    | interrupts => exact .of_net rfl
    | awaits pids => exact (finishAll m pids).trans (ih _)

theorem showPrompt (m : Machine S) (prompt : String) (afterInterrupt : Bool) :
    Later m (m.showPrompt prompt afterInterrupt) := by
  refine .of_net ?_
  unfold Machine.showPrompt
  split <;> rfl

/-! Answers. -/

variable (hquiet : ∀ s pid number next, h.programs.next s ≠ .signal pid number next)

include hquiet

theorem of_settle (fuel : Nat) (m : Machine S) : Later m (h.settle fuel m) :=
  of_moves hquiet (h.settle_moves fuel m)

theorem of_look (m : Machine S) (pid : ProcessId) : Later m (h.look m pid).2 := by
  have hsettled := of_settle h hquiet h.patience m
  unfold look
  simp only
  split
  · split
    · exact hsettled
    · exact hsettled.trans (observe _ _ _)
    · exact (hsettled.trans (retire _ _ _)).trans (observe _ _ _)
    · exact hsettled.trans
        (modifyProcess _ _ fun _ => .of_descriptors rfl (List.suffix_refl _) rfl)
    · exact hsettled
  · exact hsettled

theorem of_wait (m : Machine S) (pid : ProcessId) : Later m (h.awaitExit m pid).2 := by
  unfold awaitExit
  split
  · split
    · exact .modifyProcess m _ fun p => .of_descriptors rfl (List.suffix_refl _) rfl
    · split
      · exact .of_net rfl
      · split <;> rename_i hrun <;> obtain ⟨hmoves, -⟩ := h.runUntil_moves hrun
        · exact ((of_moves hquiet hmoves).trans (retire _ _ _)).trans (observe _ _ _)
        · exact of_moves hquiet hmoves
  · exact .of_net rfl

theorem of_readLine (m : Machine S) (pid : ProcessId) : Later m (h.readLine m pid).2 := by
  unfold readLine
  split
  · exact .of_net rfl
  · simp only
    split
    · exact .of_net rfl
    · split <;> rename_i hrun <;> obtain ⟨hmoves, -⟩ := h.runUntil_moves hrun
      · exact (of_moves hquiet hmoves).trans (modifyPipe _ _ _)
      all_goals exact of_moves hquiet hmoves

theorem of_joinRelay (m : Machine S) (relay : RelayId) : Later m (h.joinRelay m relay).2 := by
  unfold joinRelay
  simp only
  split <;> rename_i hrun <;> exact of_moves hquiet (h.runUntil_moves hrun).1

/-- Whatever comes of a request that starts nothing. -/
theorem of_answer {r : Request} (hr : r.isStart = false) (m : Machine S) :
    Later m (h.answer r m).2 := by
  cases r with
  | spawn | startRelay => cases hr
  | readOutput pid => exact of_readLine h hquiet m pid
  | wait pid => exact of_wait h hquiet m pid
  | waitBriefly pid => exact of_look h hquiet m pid
  | poll pid => exact of_look h hquiet m pid
  | joinRelay relay => exact of_joinRelay h hquiet m relay
  | closeOutput pid =>
    rw [answer]
    split
    · exact .modifyPipe m _ _
    · exact .of_net rfl
  | terminate pid => exact terminate m pid
  | kill pid => exact kill m pid
  | survivors pids => exact of_settle h hquiet h.patience m
  | readInput prompt afterInterrupt =>
    exact ((of_settle h hquiet h.patience m).trans (showPrompt _ _ _)).trans (nextInput _ _)
  | _ =>
    exact .of_net (h.answer_net (by simp [Request.isAside, Request.isDrain])
      (fun _ h => by cases h) m)

omit hquiet in
theorem of_plays (hquiet : ∀ s pid number next, ps.next s ≠ .signal pid number next)
    (hplays : Plays ps m es m') (hes : es.Only fun r => !r.isStart) : Later m m' := by
  induction es generalizing m with
  | nil => exact of_moves hquiet hplays
  | cons e es ih =>
    obtain ⟨m₁, m₂, host, hmoves, rfl, hanswer, hrest⟩ := hplays
    obtain ⟨he, hes⟩ := Trace.only_cons.1 hes
    have hlater := of_answer host hquiet (by simpa using he) m₁
    rw [hanswer] at hlater
    exact ((of_moves hquiet hmoves).trans hlater).trans (ih hrest hes)

end Later

end LineShell.Host
