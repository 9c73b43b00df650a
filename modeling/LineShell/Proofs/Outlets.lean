import LineShell.Proofs.Rerouting

namespace LineShell.Host

open Text (Bytes)

/-!
# Processes that write to files

What a process writes to a file is what it would write to a pipe.

* `Outlet` — were there a pipe in the place of the file, all would be sound, and what the process has written
  would be in the pipe;
* `Outlet.step`, `Outlet.moves` — it stays so, whoever takes a step;
* `Outlet.ended` — when the process has ended it has written all that it makes of what it has read.
-/

variable {S : Type} {ps : Programs S} {denote : List String → Flow → Flow} {base : Nat}
  {wrote : S → Bytes} {m m₁ : Machine S} {p q : Process S} {k : Nat} {l : Layout} {o : Pipe}

/-- A process has come to its end. -/
def Process.Ended (p : Process S) : Prop := p.life ≠ .running ∧ ∀ time, p.life ≠ .sleeping time

/-- A process writes to a file. Were that a pipe that nobody reads from, all would be sound, and in the pipe
would be what the process has written. -/
structure Outlet (ps : Programs S) (denote : List String → Flow → Flow) (base : Nat) (wrote : S → Bytes)
    (k : Nat) (l : Layout) (o : Pipe) (m : Machine S) : Prop where
  there : k < m.processes.size
  base_le : base ≤ m.pipes.size
  sound : Sound ps denote base (fun _ => []) (m.piped k o)
  layout : (m.piped k o).layout = l
  readerOpen : o.readerOpen = true
  capacity : o.capacity = none
  received : o.received = m.wroteBy wrote (some k)

/-- A pipe that is read and has room for all takes all. -/
theorem Pipe.write_all (hopen : o.readerOpen = true) (hquota : o.quota = none)
    (hcapacity : o.capacity = none) (bytes : Bytes) :
    ∃ o', o.write bytes = .took bytes.length o' ∧ o'.readerOpen = true ∧ o'.capacity = none ∧
      o'.received = o.received ++ bytes := by
  refine ⟨{ o with
    buffer := o.buffer ++ bytes.take bytes.length, accepted := bytes.take bytes.length :: o.accepted
    quota := o.quota.map (· - 1) }, ?_, hopen, hcapacity, ?_⟩
  · unfold Pipe.write Pipe.room
    rw [hopen, hquota, hcapacity]
    cases bytes <;> rfl
  · rw [List.take_length]
    simp [Pipe.received]

namespace Machine

theorem wroteBy_eq (hp : m.processes[k]? = some p) : m.wroteBy wrote (some k) = wrote p.program := by
  unfold wroteBy
  rw [Option.bind_some, hp]

theorem net_piped (hnet : m₁.net = m.net) : (m₁.piped k o).net = (m.piped k o).net :=
  congrArg (fun net : Net S => { net with
    pipes := net.pipes.push o, processes := net.processes.modify k (Process.piped net.pipes.size) }) hnet

theorem modifyPipe_piped_self (f : Pipe → Pipe) :
    (m.piped k o).modifyPipe m.pipes.size f = m.piped k (f o) := by
  unfold modifyPipe piped
  rw [modify_push_size]

theorem pipes_piped_self : (m.piped k o).pipes[m.pipes.size]? = some o := Array.getElem?_push_size

/-- What a process lets go of, its standard output to the pipe included. -/
theorem releases_piped (hm : m.Grounded) (hp : m.processes[k]? = some p) {ds : List (Nat × Channel)}
    (hds : ∀ d ∈ ds, ∀ j, d.2 = .pipe j → j < m.pipes.size)
    (hone : ∀ d ∈ ds, d.1 = 1 → ∀ j, d.2 ≠ .pipe j) (hsize : m₁.pipes.size = m.pipes.size) :
    ∃ o', (o' = o ∨ o' = o.closeWriter) ∧
      (ds.map (reroute m.pipes.size)).foldl (fun m₁ d => m₁.release (p.piped m.pipes.size) d.2)
        (m₁.piped k o) = (ds.foldl (fun m₁ d => m₁.release p d.2) m₁).piped k o' := by
  induction ds generalizing m₁ o with
  | nil => exact ⟨o, .inl rfl, rfl⟩
  | cons d ds ih =>
    have hds' := fun d hd => hds d (.tail _ hd)
    have hone' := fun d hd => hone d (.tail _ hd)
    rw [List.map_cons, List.foldl_cons, List.foldl_cons]
    by_cases hd : d.1 = 1
    · -- this one leads to the pipe, and else to a file
      have hfile : m₁.release p d.2 = m₁ := by
        unfold release
        split
        · exact absurd ‹_› (hone d (.head _) hd _)
        · rfl
      have hclose : (m₁.piped k o).release (p.piped m.pipes.size) (reroute m.pipes.size d).2 =
          m₁.piped k o.closeWriter := by
        have hinput : (p.piped m.pipes.size).inputPipe ≠ some m.pipes.size := fun hin =>
          absurd ((hm.process hp).2 _ (.inl (.inl hin))) (Nat.lt_irrefl _)
        unfold reroute release
        rw [if_pos hd]
        simp only [if_neg hinput]
        rw [← hsize]
        exact modifyPipe_piped_self _
      obtain ⟨o', hcame, hrest⟩ := ih (o := o.closeWriter) hds' hone' hsize
      rw [hfile, hclose]
      exact ⟨o', .inr (hcame.elim id id), hrest⟩
    · have hother : (m₁.piped k o).release (p.piped m.pipes.size) (reroute m.pipes.size d).2 =
          (m₁.release p d.2).piped k o := by
        unfold reroute
        rw [if_neg hd]
        exact release_piped (fun j hj => hsize ▸ hds d (.head _) j hj) rfl
      rw [hother]
      exact ih hds' hone' ((pipes_size_release m₁ p d.2).trans hsize)

/-- A process that ends lets go of the pipe as well. -/
theorem retire_piped_self (hm : m.Grounded) (hp : m.processes[k]? = some p)
    (hone : ∀ d ∈ p.descriptors, d.1 = 1 → ∀ j, d.2 ≠ .pipe j) (life : Life) :
    ∃ o', (m.piped k o).retire k life = (m.retire k life).piped k o' ∧ (o' = o ∨ o' = o.closeWriter) := by
  obtain ⟨o', hcame, heq⟩ := releases_piped (o := o) hm hp
    (fun d hd j hj => (hm.process hp).2 j (.inr ⟨d.1, by rw [← hj]; exact hd⟩)) hone
    (Eq.refl m.pipes.size)
  have hview : m.view k k p = p.piped m.pipes.size := if_pos rfl
  refine ⟨o', ?_, hcame⟩
  unfold retire
  rw [processes_piped hp, hview, hp]
  simp only
  show Machine.modifyProcess ((p.descriptors.map (reroute m.pipes.size)).foldl _ _) _ _ = _
  rw [heq]
  exact modifyProcess_piped fun _ _ => rfl

end Machine

namespace Outlet

theorem of_net (h : Outlet ps denote base wrote k l o m) (hnet : m₁.net = m.net) :
    Outlet ps denote base wrote k l o m₁ := by
  have hpipes : m₁.pipes = m.pipes := congrArg Net.pipes hnet
  have hprocesses : m₁.processes = m.processes := congrArg Net.processes hnet
  refine ⟨hprocesses ▸ h.there, hpipes ▸ h.base_le, h.sound.of_net (Machine.net_piped hnet),
    (layout_of_net (Machine.net_piped hnet)).trans h.layout, h.readerOpen, h.capacity, ?_⟩
  unfold Machine.wroteBy
  rw [hprocesses]
  exact h.received

/-- The process sits before the pipe. -/
theorem works (h : Outlet ps denote base wrote k l o m) (hp : m.processes[k]? = some p) :
    ∃ a : Seat S, a.Fits ps denote base (p.piped m.pipes.size).identity ∧
      Works ps a (p.piped m.pipes.size) o := by
  have hp' := Machine.processes_piped (k := k) (o := o) hp
  rw [show m.view k k p = p.piped m.pipes.size from if_pos rfl] at hp'
  obtain ⟨a, hfits, ha, hseated⟩ := h.sound.seat_of_output hp' rfl h.base_le
  obtain ⟨o', ho', hworks⟩ := hseated.output
  rw [ha, Machine.pipes_piped_self] at ho'
  cases ho'
  exact ⟨a, hfits, hworks⟩

/-! ### Steps -/

section

variable (h : Outlet ps denote base wrote k l o m)
  (hquiet : ∀ s pid number next, ps.next s ≠ .signal pid number next)

include h hquiet

/-- A step that would have been taken with the pipe as well. -/
theorem of_stepActor {i : Nat} {o' : Pipe} (hstep : m.stepActor ps i = some m₁)
    (hghost : (m.piped k o).stepActor ps i = some (m₁.piped k o')) (ho : o' = o ∨ o' = o.closeWriter)
    (hwrote : m₁.wroteBy wrote (some k) = m.wroteBy wrote (some k)) :
    Outlet ps denote base wrote k l o' m₁ := by
  have hmoves : Moves ps (m.piped k o) (m₁.piped k o') := Moves.refl.step hghost
  have hsize : m₁.pipes.size = m.pipes.size :=
    congrArg Layout.room (layout_of_moves hquiet (Moves.refl.step hstep))
  refine ⟨size_of_step hquiet hstep ▸ h.there, hsize ▸ h.base_le, h.sound.moves hquiet hmoves,
    (layout_of_moves hquiet hmoves).trans h.layout, ?_, ?_, ?_⟩
  · rcases ho with rfl | rfl <;> exact h.readerOpen
  · rcases ho with rfl | rfl <;> exact h.capacity
  · rw [hwrote, ← h.received]
    rcases ho with rfl | rfl <;> rfl

variable (hm : m.Grounded) (hrec : Records ps wrote)

include hm hrec

/-- Somebody takes a step that has nothing to do with the pipe. -/
theorem spares {i : Nat} (hstep : m.stepActor ps i = some m₁) (hspares : ∀ p, i = k →
      m.processes[i]? = some p → (ps.next p.program).Spares) :
    Outlet ps denote base wrote k l o m₁ := by
  have hghost := Machine.stepActor_piped (o := o) hm hquiet fun p hi hp _ => hspares p hi hp
  rw [hstep] at hghost
  refine of_stepActor h hquiet hstep hghost (.inl rfl) ?_
  have hlt : k < m₁.processes.size := size_of_step hquiet hstep ▸ h.there
  have hidle : ∀ p, k = i → m.processes[i]? = some p → ¬ (ps.next p.program).Uses 1 := by
    intro p hi hp huses
    have hsparing := hspares p hi.symm hp
    generalize ps.next p.program = action at hsparing huses
    cases huses <;> exact hsparing rfl
  obtain ⟨p, hp, hwrote, -⟩ := silent_of_step hrec hquiet hstep hidle (Array.getElem?_eq_getElem hlt)
  rw [Machine.wroteBy_eq hp, Machine.wroteBy_eq (Array.getElem?_eq_getElem hlt), hwrote]

omit hrec in
/-- The process wakes. -/
theorem wakes (hp : m.processes[k]? = some p) (hlife : p.life ≠ .running)
    (hstep : m.stepActor ps k = some m₁) : Outlet ps denote base wrote k l o m₁ := by
  have hghost := Machine.stepActor_piped (k := k) (o := o) hm hquiet fun p' _ hp' hrunning => by
    cases hp.symm.trans hp'
    exact absurd hrunning hlife
  rw [hstep] at hghost
  refine of_stepActor h hquiet hstep hghost (.inl rfl) ?_
  unfold Machine.stepActor at hstep
  rw [if_pos h.there] at hstep
  unfold Machine.stepProcess at hstep
  simp only [hp, Option.bind_eq_bind, Option.bind_some] at hstep
  split at hstep
  · exact absurd ‹_› hlife
  · split at hstep <;> cases hstep
    rw [Machine.wroteBy_eq hp, Machine.wroteBy_eq (Machine.processes_modifyProcess_self hp _)]
  · cases hstep

section

variable (hp : m.processes[k]? = some p) (hlife : p.life = .running)

include hp hlife

omit hquiet hm in
/-- The process is told what the file is that it writes to. -/
theorem inspects {fd : Nat} {next : Option FileStatus → S} (hnext : ps.next p.program = .inspect fd next)
    (status : Option FileStatus) : Outlet ps denote base wrote k l o (m.goOn k (next status)) := by
  have hp' := Machine.processes_piped (k := k) (o := o) hp
  have hbeside : (ps.next p.program).Beside (next status) := hnext ▸ .inspect status
  have hrecords := hrec.step p.program
  rw [hnext] at hrecords
  have hsize : (m.goOn k (next status)).processes.size = m.processes.size := Array.size_modify
  refine ⟨hsize ▸ h.there, h.base_le, ?_, ?_, h.readerOpen, h.capacity, ?_⟩
  · rw [← Machine.goOn_piped]
    refine h.sound.beside hp' (Machine.view_life.trans hlife) ?_
    rw [Machine.view_program]
    exact hbeside
  · rw [← Machine.goOn_piped, ← h.layout]
    exact Machine.StepOf.layout hp' (.of_net rfl hp' (Machine.goes_goOn _ _))
  · have hq : (m.goOn k (next status)).processes[k]? = some { p with program := next status } :=
      Machine.processes_modifyProcess_self hp _
    rw [h.received, Machine.wroteBy_eq hp, Machine.wroteBy_eq hq]
    exact (hrecords status).symm

omit hrec in
/-- The process ends. -/
theorem ends (hone : ∀ d ∈ p.descriptors, d.1 = 1 → ∀ j, d.2 ≠ .pipe j) {life : Life}
    (hact : ∀ (m : Machine S) (q : Process S), q.program = p.program →
      Machine.act ps m k q = some (m.retire k life)) :
    ∃ o', Outlet ps denote base wrote k l o' (m.retire k life) := by
  have hp' := Machine.processes_piped (k := k) (o := o) hp
  obtain ⟨o', hretire, ho⟩ := Machine.retire_piped_self (o := o) hm hp hone life
  have hstep : ∀ {m : Machine S} {q : Process S}, k < m.processes.size → m.processes[k]? = some q →
      q.program = p.program → q.life = p.life → m.stepActor ps k = some (m.retire k life) := by
    intro m q hlt hq hprogram hsame
    unfold Machine.stepActor Machine.stepProcess
    rw [if_pos hlt, hq]
    simp only [Option.bind_eq_bind, Option.bind_some]
    rw [hsame, hlife]
    exact hact m q hprogram
  have hsize : (m.piped k o).processes.size = m.processes.size := Array.size_modify
  have hghost := hstep (hsize ▸ h.there) hp' Machine.view_program Machine.view_life
  rw [hretire] at hghost
  refine ⟨o', of_stepActor h hquiet (hstep h.there hp rfl rfl) hghost ho ?_⟩
  obtain ⟨q, hq, -⟩ := (Later.retire m k life).process hp
  rw [Machine.wroteBy_eq hp, Machine.wroteBy_eq hq, Machine.of_retire m life hp hq]

variable {node : Inode} {n f : Nat} {id : FileId} {lent closed : Bool} {given : Bytes}
  (hheld : Held wrote node n f id lent (some k) closed given m)

include hheld

omit hm in
/-- The process writes. -/
theorem writes {bytes : Bytes} {next : Except Nat Nat → S} (hnext : ps.next p.program = .write 1 bytes next)
    (hstep : m.stepActor ps k = some m₁) : ∃ o', Outlet ps denote base wrote k l o' m₁ := by
  obtain ⟨a, hfits, hworks⟩ := h.works hp
  obtain ⟨-, broken, shut, -, -, hds⟩ := hworks.running hlife
  have ha : a.output = m.pipes.size := Option.some.inj (hfits.output.symm.trans rfl)
  have hlookup : (p.piped m.pipes.size).descriptors.lookup 1 = some (.pipe m.pipes.size) := by
    rw [hds, a.lookup_one, ha]
  -- what the standard output leads to is the file
  have hfile : p.descriptors.lookup 1 = some (.opening f) := by
    have hsome := hlookup
    rw [p.lookup_one_piped] at hsome
    obtain ⟨c, hc, -⟩ := Option.map_eq_some_iff.1 hsome
    obtain ⟨before, after, heq, -⟩ := List.lookup_eq_some_iff.1 hc
    rw [hc]
    refine congrArg some (hheld.output rfl hp (1, c) ?_ rfl)
    rw [heq]
    exact List.mem_append_right _ (.head _)
  obtain ⟨m₂, hwrite, -⟩ := (hheld.ends_of_process rfl hp).put bytes
  have hnet := Machine.writeOpening_net hwrite
  obtain rfl : m₂.goOn k (next (.ok bytes.length)) = m₁ := by
    unfold Machine.stepActor Machine.stepProcess at hstep
    rw [if_pos h.there, hp] at hstep
    simp only [Option.bind_eq_bind, Option.bind_some, hlife, Machine.act, hnext, hfile, Machine.writeStep,
      hwrite, Option.some.injEq] at hstep
    exact hstep
  -- with the pipe it would have written as much
  obtain ⟨o', hput, hopen, hcapacity, hreceived⟩ :=
    Pipe.write_all h.readerOpen hworks.quota h.capacity bytes
  have hp' := Machine.processes_piped (k := k) (o := o) hp
  rw [show m.view k k p = p.piped m.pipes.size from if_pos rfl] at hp'
  have hsize : (m.piped k o).processes.size = m.processes.size := Array.size_modify
  have hghost : (m.piped k o).stepActor ps k = some ((m.goOn k (next (.ok bytes.length))).piped k o') := by
    have hnext' : ps.next (p.piped m.pipes.size).program = .write 1 bytes next := hnext
    unfold Machine.stepActor Machine.stepProcess
    rw [if_pos (hsize ▸ h.there), hp']
    simp only [Option.bind_eq_bind, Option.bind_some, show (p.piped m.pipes.size).life = .running from hlife,
      Machine.act, hnext', hlookup, Machine.writeStep, Machine.pipes_piped_self, Option.map_some, hput,
      Machine.modifyPipe_piped_self, Machine.goOn_piped]
  have hmoves : Moves ps (m.piped k o) ((m.goOn k (next (.ok bytes.length))).piped k o') :=
    Moves.refl.step hghost
  have hrecords := hrec.step p.program
  rw [hnext] at hrecords
  have hq : (m.goOn k (next (.ok bytes.length))).processes[k]? =
      some { p with program := next (.ok bytes.length) } := Machine.processes_modifyProcess_self hp _
  have hgone : Outlet ps denote base wrote k l o' (m.goOn k (next (.ok bytes.length))) := by
    refine ⟨?_, h.base_le, h.sound.moves hquiet hmoves, (layout_of_moves hquiet hmoves).trans h.layout,
      hopen, hcapacity, ?_⟩
    · exact (Array.getElem?_eq_some_iff.1 hq).1
    · rw [hreceived, h.received, Machine.wroteBy_eq hp, Machine.wroteBy_eq hq, hrecords.write_output.1,
        List.take_length]
  exact ⟨o', hgone.of_net (congrArg (fun net : Net S => { net with
    processes := net.processes.modify k fun p => { p with program := next (.ok bytes.length) } }) hnet)⟩

/-- The process goes on. -/
theorem acts (hstep : m.stepActor ps k = some m₁) : ∃ o', Outlet ps denote base wrote k l o' m₁ := by
  obtain ⟨a, hfits, hworks⟩ := h.works hp
  obtain ⟨-, broken, shut, hran, -, hds⟩ := hworks.running hlife
  have hstream : (ps.next p.program).IsStream shut := hfits.computes.stream hran
  have hrecords := hrec.step p.program
  have hspares : (ps.next p.program).Spares → ∃ o', Outlet ps denote base wrote k l o' m₁ := by
    intro hsparing
    refine ⟨o, h.spares hquiet hm hrec hstep fun p' _ hp' => ?_⟩
    cases hp.symm.trans hp'
    exact hsparing
  have hone : ∀ d ∈ p.descriptors, d.1 = 1 → ∀ j, d.2 ≠ .pipe j := by
    intro d hd hone j hpipe
    rw [hheld.output rfl hp d hd hone] at hpipe
    cases hpipe
  have hact : Machine.act ps m k p = some m₁ := by
    unfold Machine.stepActor Machine.stepProcess at hstep
    rw [if_pos h.there, hp] at hstep
    simpa only [Option.bind_eq_bind, Option.bind_some, hlife] using hstep
  cases hnext : ps.next p.program with
  | read fd limit next =>
    rw [hnext] at hstream hspares
    obtain ⟨rfl, -, -⟩ := hstream
    exact hspares Nat.zero_ne_one
  | write fd bytes next =>
    rw [hnext] at hspares
    by_cases hfd : fd = 1
    · subst hfd
      exact h.writes hquiet hrec hp hlife hheld hnext hstep
    · exact hspares hfd
  | openFile fd path mode next =>
    rw [hnext] at hstream
    exact hstream.elim
  | close fd next =>
    rw [hnext] at hstream hspares
    obtain rfl : fd = 0 := hstream
    exact hspares Nat.zero_ne_one
  | giveBack fd count next =>
    rw [hnext] at hrecords hspares
    exact hspares hrecords.1
  | inspect fd next =>
    simp only [Machine.act, hnext, Option.some.injEq] at hact
    rw [← hact]
    exact ⟨o, h.inspects hrec hp hlife hnext _⟩
  | look next =>
    rw [hnext] at hspares
    exact hspares trivial
  | identify next =>
    rw [hnext] at hspares
    exact hspares trivial
  | signal pid number next => exact absurd hnext (hquiet _ pid number next)
  | sleep duration next =>
    rw [hnext] at hspares
    exact hspares trivial
  | linger status =>
    simp only [Machine.act, hnext, Option.some.injEq] at hact
    rw [← hact]
    refine h.ends hquiet hm hp hlife hone fun m q hq => ?_
    simp only [Machine.act, hq, hnext]
  | exit status =>
    simp only [Machine.act, hnext, Option.some.injEq] at hact
    rw [← hact]
    refine h.ends hquiet hm hp hlife hone fun m q hq => ?_
    simp only [Machine.act, hq, hnext]

end

variable {node : Inode} {n f : Nat} {id : FileId} {lent closed : Bool} {given : Bytes}
  (hheld : Held wrote node n f id lent (some k) closed given m)

include hheld

/-- **Whoever takes a step**, what the process has written is what would be in the pipe. -/
theorem step {i : Nat} (hstep : m.stepActor ps i = some m₁) :
    ∃ o', Outlet ps denote base wrote k l o' m₁ := by
  by_cases hi : i = k
  · subst hi
    obtain ⟨p, hp⟩ : ∃ p, m.processes[i]? = some p := ⟨_, Array.getElem?_eq_getElem h.there⟩
    by_cases hlife : p.life = .running
    · exact h.acts hquiet hm hrec hp hlife hheld hstep
    · exact ⟨o, h.wakes hquiet hm hp hlife hstep⟩
  · exact ⟨o, h.spares hquiet hm hrec hstep fun _ heq => absurd heq hi⟩

theorem moves (hmoves : Moves ps m m₁) (hnew : OnlyOpens node m.openings.size (fun _ => False) m₁) :
    ∃ o', Outlet ps denote base wrote k l o' m₁ := by
  induction hmoves with
  | refl => exact ⟨o, h⟩
  | @step m₁ m₂ i hmoves hstep ih =>
    have hnew₁ := (Grown.of_step hquiet hstep).onlyOpens hnew
    obtain ⟨o₁, h₁⟩ := ih hnew₁
    exact h₁.step hquiet (hm.of_later (.of_moves hquiet hmoves)) hrec
      (hheld.moves hrec hquiet hmoves hnew₁) hstep
  | pass hmoves turn clock ih =>
    obtain ⟨o₁, h₁⟩ := ih hnew
    exact ⟨o₁, h₁.of_net rfl⟩

end

/-- **When the process has ended**, it has nothing open, and has written all that it makes of what it has
read. -/
theorem ended (h : Outlet ps denote base wrote k l o m) (hp : m.processes[k]? = some p) (hended : p.Ended) :
    p.descriptors = [] ∧ ∀ x : Flow, x.Heard p.intake → (denote p.argv x).IsAll (wrote p.program) := by
  obtain ⟨a, hfits, hworks⟩ := h.works hp
  obtain ⟨broken, shut, -, -, hstands⟩ := hworks.run
  cases hstands with
  | working hlife =>
    rcases hlife with hlife | ⟨time, hlife⟩
    · exact absurd hlife hended.1
    · exact absurd hlife (hended.2 time)
  | ended _ _ hdescriptors hclosed =>
    refine ⟨List.map_eq_nil_iff.1 hdescriptors, fun x hx => ?_⟩
    have hwrote : m.wroteBy wrote (some k) = wrote p.program := Machine.wroteBy_eq hp
    rw [← hwrote, ← h.received]
    exact hworks.complete hfits hclosed h.readerOpen x hx

end Outlet

end LineShell.Host
