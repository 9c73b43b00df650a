import LineShell.Host.Step

namespace LineShell.Host

open Text (Bytes)

/-!
# What steps leave alone

* `Machine.net` — what processes and relays share: the pipes, who is there, and what comes next;
* `Process.identity` — what of a process stays the same as long as it lives;
* `Process.Goes` — a process that has gone on, and holds no pipe that it did not hold;
* `Machine.Kept` — what is left alone by whoever does something to one process and some pipes;
* `Machine.stepProcess_stepOf` — a step of a process that signals nobody touches but that process,
  and the pipes that it holds.
-/

variable {S : Type}

/-- What processes and relays share. -/
structure Net (S : Type) where
  pipes : Array Pipe
  processes : Array (Process S)
  relays : Array RelayTask
  nextPid : ProcessId
  inherited : Channel × Channel × Channel

/-- What the processes and relays of a machine share. -/
def Machine.net (m : Machine S) : Net S := ⟨m.pipes, m.processes, m.relays, m.nextPid, m.inherited⟩

/-- The process holds a pipe. -/
def Process.Holds (p : Process S) (j : Nat) : Prop := ∃ fd, (fd, .pipe j) ∈ p.descriptors

theorem Process.holds_of_lookup {p : Process S} {fd j : Nat}
    (h : p.descriptors.lookup fd = some (.pipe j)) : p.Holds j := by
  obtain ⟨before, after, hds, -⟩ := List.lookup_eq_some_iff.1 h
  refine ⟨fd, ?_⟩
  rw [hds]
  exact List.mem_append_right _ (.head _)

/-- What of a process stays the same as long as it lives. -/
structure Identity where
  pid : ProcessId
  argv : List String
  streams : Streams
  inputPipe : Option Nat
  outputPipe : Option Nat

/-- What of a process stays the same as long as it lives. -/
def Process.identity (p : Process S) : Identity :=
  ⟨p.pid, p.argv, p.streams, p.inputPipe, p.outputPipe⟩

/-- A process that has gone on, and holds no pipe that it did not hold. -/
structure Process.Goes (p q : Process S) : Prop where
  identity : q.identity = p.identity
  intake : p.intake <:+ q.intake
  holds : ∀ j, q.Holds j → p.Holds j

theorem Process.Goes.of_descriptors {p q : Process S} (hidentity : q.identity = p.identity)
    (hintake : p.intake <:+ q.intake) (h : q.descriptors = p.descriptors) : p.Goes q :=
  ⟨hidentity, hintake, fun _ ⟨fd, hfd⟩ => ⟨fd, h ▸ hfd⟩⟩

theorem Process.Goes.trans {p q r : Process S} (h : p.Goes q) (h' : q.Goes r) : p.Goes r :=
  ⟨h'.identity.trans h.identity, h.intake.trans h'.intake, fun j hj => h.holds j (h'.holds j hj)⟩

namespace Machine

/-- Nothing has changed but some processes, relays and pipes, and there are as many of each. -/
structure Kept (K R J : Nat → Prop) (m m₁ : Machine S) : Prop where
  nextPid : m₁.nextPid = m.nextPid
  inherited : m₁.inherited = m.inherited
  processes_size : m₁.processes.size = m.processes.size
  relays_size : m₁.relays.size = m.relays.size
  pipes_size : m₁.pipes.size = m.pipes.size
  process : ∀ i, ¬ K i → m₁.processes[i]? = m.processes[i]?
  relay : ∀ i, ¬ R i → m₁.relays[i]? = m.relays[i]?
  pipe : ∀ i, ¬ J i → m₁.pipes[i]? = m.pipes[i]?

variable {k : Nat} {K R J : Nat → Prop} {m m₁ m₂ : Machine S}

namespace Kept

theorem refl (m : Machine S) : Kept K R J m m :=
  ⟨rfl, rfl, rfl, rfl, rfl, fun _ _ => rfl, fun _ _ => rfl, fun _ _ => rfl⟩

theorem of_net (h : m₁.net = m.net) : Kept K R J m m₁ :=
  ⟨congrArg Net.nextPid h, congrArg Net.inherited h, congrArg (·.processes.size) h,
    congrArg (·.relays.size) h, congrArg (·.pipes.size) h, fun i _ => congrArg (·.processes[i]?) h,
    fun i _ => congrArg (·.relays[i]?) h, fun i _ => congrArg (·.pipes[i]?) h⟩

theorem trans (h : Kept K R J m m₁) (h₁ : Kept K R J m₁ m₂) : Kept K R J m m₂ where
  nextPid := h₁.nextPid.trans h.nextPid
  inherited := h₁.inherited.trans h.inherited
  processes_size := h₁.processes_size.trans h.processes_size
  relays_size := h₁.relays_size.trans h.relays_size
  pipes_size := h₁.pipes_size.trans h.pipes_size
  process i hi := (h₁.process i hi).trans (h.process i hi)
  relay i hi := (h₁.relay i hi).trans (h.relay i hi)
  pipe i hi := (h₁.pipe i hi).trans (h.pipe i hi)

theorem ne_of_not {P : Nat → Prop} {i j : Nat} (hi : P i) (hj : ¬ P j) : i ≠ j := by
  rintro rfl
  exact hj hi

theorem modifyProcess (h : Kept K R J m m₁) {i : Nat} (hi : K i) (f : Process S → Process S) :
    Kept K R J m (m₁.modifyProcess i f) := by
  exact h.trans ⟨rfl, rfl, Array.size_modify, rfl, rfl,
    fun _ hj => Machine.processes_modifyProcess_ne (ne_of_not hi hj) f, fun _ _ => rfl,
    fun _ _ => rfl⟩

theorem modifyRelay (h : Kept K R J m m₁) {i : Nat} (hi : R i) (f : RelayTask → RelayTask) :
    Kept K R J m (m₁.modifyRelay i f) := by
  exact h.trans ⟨rfl, rfl, rfl, Array.size_modify, rfl, fun _ _ => rfl,
    fun _ hj => Machine.relays_modifyRelay_ne (ne_of_not hi hj) f, fun _ _ => rfl⟩

theorem modifyPipe (h : Kept K R J m m₁) {i : Nat} (hi : J i) (f : Pipe → Pipe) :
    Kept K R J m (m₁.modifyPipe i f) := by
  exact h.trans ⟨rfl, rfl, rfl, rfl, Array.size_modify, fun _ _ => rfl, fun _ _ => rfl,
    fun _ hj => Machine.pipes_modifyPipe_ne (ne_of_not hi hj) f⟩

end Kept

/-- A process has gone on, and nothing else has changed but the pipes that it held. -/
def StepOf (k : Nat) (p : Process S) (m m₁ : Machine S) : Prop :=
  Kept (· = k) (fun _ => False) p.Holds m m₁ ∧ ∃ q, m₁.processes[k]? = some q ∧ p.Goes q

variable {p : Process S}

/-- After changes of its pipes a process goes on. -/
theorem StepOf.of_kept (h : Kept (· = k) (fun _ => False) p.Holds m m₁)
    (hp : m₁.processes[k]? = some p) {f : Process S → Process S} (hf : p.Goes (f p)) : StepOf k p m (m₁.modifyProcess k f) :=
  ⟨h.modifyProcess rfl f, _, processes_modifyProcess_self hp f, hf⟩

theorem StepOf.of_net (h : m₁.net = m.net) (hp : m.processes[k]? = some p)
    {f : Process S → Process S} (hf : p.Goes (f p)) : StepOf k p m (m₁.modifyProcess k f) :=
  .of_kept (.of_net h) ((congrArg (·.processes[k]?) h).trans hp) hf

theorem goes_refl (p : Process S) : p.Goes p :=
  .of_descriptors rfl (List.suffix_refl _) rfl

theorem goes_goOn (p : Process S) (program : S) : p.Goes { p with program } :=
  .of_descriptors rfl (List.suffix_refl _) rfl

theorem goes_hear (p : Process S) (program : S) (fd : Nat) (answer : Except Nat Bytes) :
    p.Goes { p with
      program, intake := if fd = 0 then answer :: p.intake else p.intake } := by
  refine .of_descriptors rfl ?_ rfl
  show p.intake <:+ if fd = 0 then answer :: p.intake else p.intake
  split
  · exact List.suffix_cons _ _
  · exact List.suffix_refl _

/-! ### Letting go of pipes -/

theorem release_processes (m : Machine S) (p : Process S) (c : Channel) :
    (m.release p c).processes = m.processes := by
  cases c <;> rfl

theorem release_kept (m : Machine S) (p : Process S) {c : Channel} (hc : ∀ j, c = .pipe j → J j) :
    Kept K R J m (m.release p c) := by
  cases c with
  | pipe j => exact (Kept.refl m).modifyPipe (hc j rfl) _
  | _ => exact .refl m

theorem releaseAll_kept (ds : List (Nat × Channel)) (m : Machine S) (p : Process S)
    (hds : ∀ fd j, (fd, .pipe j) ∈ ds → J j) :
    Kept K R J m (ds.foldl (fun m d => m.release p d.2) m) ∧
      (ds.foldl (fun m d => m.release p d.2) m).processes = m.processes := by
  induction ds generalizing m with
  | nil => exact ⟨.refl m, rfl⟩
  | cons d ds ih =>
    obtain ⟨fd, c⟩ := d
    obtain ⟨hkept, hprocesses⟩ := ih (m.release p c) fun fd j h => hds fd j (.tail _ h)
    refine ⟨(release_kept m p fun j hj => hds fd j ?_).trans hkept,
      hprocesses.trans (release_processes m p c)⟩
    rw [hj]
    exact .head _

theorem retire_stepOf (hp : m.processes[k]? = some p) (life : Life) :
    StepOf k p m (m.retire k life) := by
  unfold retire
  rw [hp]
  obtain ⟨hkept, hprocesses⟩ := releaseAll_kept p.descriptors m p fun fd j h =>
    (⟨fd, h⟩ : p.Holds j)
  refine .of_kept hkept (by rw [hprocesses, hp]) ⟨rfl, List.suffix_refl _, ?_⟩
  rintro j ⟨fd, h⟩
  cases h

/-! ### Steps of processes -/

theorem readOpening_net {o limit : Nat} {bytes : Bytes}
    (h : m.readOpening o limit = .ok (bytes, m₁)) : m₁.net = m.net := by
  unfold readOpening at h
  split at h
  · cases h
  · split at h <;> first | (cases h; done) | (cases h; rfl)

theorem writeOpening_net {o : Nat} {bytes : Bytes} (h : m.writeOpening o bytes = .ok m₁) :
    m₁.net = m.net := by
  unfold writeOpening at h
  split at h
  · cases h
  · split at h <;> first | (cases h; done) | (cases h; rfl)

theorem openPath_net {cwd : Path} {path : String} {mode : OpenMode} {o : Nat}
    (h : m.openPath cwd path mode = .ok (o, m₁)) : m₁.net = m.net := by
  unfold openPath at h
  cases mode <;> simp only [Bind.bind, Except.bind, Pure.pure, Except.pure] at h <;> split at h <;>
    first | (cases h; done) | (cases h; rfl)

theorem giveBack_net (m : Machine S) (c : Option Channel) (count : Nat) :
    (m.giveBack c count).net = m.net := by
  unfold giveBack
  split <;> rfl

theorem readStep_stepOf (hp : m.processes[k]? = some p) {fd limit : Nat}
    {next : Except Nat Bytes → S}
    (h : m.readStep k fd limit (p.descriptors.lookup fd) next = some m₁) : StepOf k p m m₁ := by
  have hhear : ∀ answer, StepOf k p m (m.hear k fd answer next) := fun answer =>
    .of_net rfl hp (goes_hear p _ fd answer)
  unfold readStep at h
  split at h
  · cases h
    exact hhear _
  · rename_i j hj
    have hholds := Process.holds_of_lookup hj
    split at h <;> cases h
    · exact .of_kept ((Kept.refl m).modifyPipe hholds _) hp (goes_hear p _ fd _)
    · exact hhear _
    · exact hhear _
  · split at h <;> cases h
    · rename_i heq
      exact .of_net (readOpening_net heq) hp (goes_hear p _ fd _)
    · exact hhear _
  · cases h
    exact hhear _

theorem writeStep_stepOf (hp : m.processes[k]? = some p) {fd : Nat} {bytes : Bytes}
    {next : Except Nat Nat → S}
    (h : m.writeStep k bytes (p.descriptors.lookup fd) next = some m₁) : StepOf k p m m₁ := by
  have hgo : ∀ m₁ : Machine S, m₁.net = m.net → ∀ program, StepOf k p m (m₁.goOn k program) :=
    fun m₁ hnet program => .of_net hnet hp (goes_goOn p program)
  unfold writeStep at h
  split at h
  · cases h
    exact hgo m rfl _
  · cases h
    exact hgo (m.writeOut bytes) rfl _
  · cases h
    exact hgo (m.writeErr bytes) rfl _
  · rename_i j hj
    have hholds := Process.holds_of_lookup hj
    split at h <;> cases h
    · exact .of_kept ((Kept.refl m).modifyPipe hholds _) hp (goes_goOn p _)
    all_goals exact hgo m rfl _
  · split at h <;> cases h
    · rename_i heq
      exact hgo _ (writeOpening_net heq) _
    · exact hgo m rfl _
  · cases h
    exact hgo m rfl _

/-- **Frame.** What a process does that signals nobody touches but that process, and the pipes that
it holds. -/
theorem act_stepOf {ps : Programs S} (hp : m.processes[k]? = some p)
    (hquiet : ∀ pid number next, ps.next p.program ≠ .signal pid number next)
    (h : act ps m k p = some m₁) : StepOf k p m m₁ := by
  unfold act at h
  split at h
  · exact readStep_stepOf hp h
  · exact writeStep_stepOf hp h
  · split at h <;> cases h
    · rename_i heq
      refine .of_net (openPath_net heq) hp ⟨rfl, List.suffix_refl _, ?_⟩
      rintro j ⟨fd, hfd⟩
      rcases List.mem_cons.1 hfd with hnew | hold
      · cases hnew
      · exact ⟨fd, hold⟩
    · exact .of_net rfl hp (goes_goOn p _)
  · rename_i fd next _
    simp only [Option.some.injEq] at h
    rw [← h]
    have hgoes : p.Goes { p with
        program := next, descriptors := p.descriptors.filter (·.1 != fd) } :=
      ⟨rfl, List.suffix_refl _, fun j ⟨fd', hfd'⟩ => ⟨fd', (List.mem_filter.1 hfd').1⟩⟩
    cases hc : p.descriptors.lookup fd with
    | none => exact .of_net rfl hp hgoes
    | some c =>
      refine .of_kept (release_kept m p fun j hj => ?_)
        ((congrArg (·[k]?) (release_processes m p c)).trans hp) hgoes
      rw [hj] at hc
      exact Process.holds_of_lookup hc
  · cases h
    exact .of_net (giveBack_net m _ _) hp (goes_goOn p _)
  · cases h
    exact .of_net rfl hp (goes_goOn p _)
  · cases h
    exact .of_net rfl hp (goes_goOn p _)
  · cases h
    exact .of_net rfl hp (goes_goOn p _)
  · exact absurd ‹_› (hquiet _ _ _)
  · cases h
    exact .of_net rfl hp (.of_descriptors rfl (List.suffix_refl _) rfl)
  · cases h
    exact retire_stepOf hp _
  · cases h
    exact retire_stepOf hp _

theorem stepProcess_stepOf {ps : Programs S}
    (hquiet : ∀ s pid number next, ps.next s ≠ .signal pid number next)
    (h : stepProcess ps m k = some m₁) : ∃ p, m.processes[k]? = some p ∧ StepOf k p m m₁ := by
  unfold stepProcess at h
  cases hp : m.processes[k]? with
  | none => simp [hp] at h
  | some p =>
    simp only [hp, Bind.bind, Option.bind] at h
    refine ⟨p, rfl, ?_⟩
    split at h
    · exact act_stepOf hp (hquiet p.program) h
    · split at h
      · cases h
        exact .of_net rfl hp (.of_descriptors rfl (List.suffix_refl _) rfl)
      · cases h
    · cases h

theorem log_net (m : Machine S) (r : Record) : (m.log r).net = m.net := by
  unfold log
  split <;> rfl

end Machine

end LineShell.Host
