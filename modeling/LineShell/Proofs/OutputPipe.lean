import LineShell.Proofs.Grounding
import LineShell.Proofs.HeldRuns
import LineShell.Proofs.Pipelines

namespace LineShell.Host

open Text (Bytes)

/-!
# Reading what a process writes

The pipe that the standard output of a process is, and that only the interpreter reads from.

* `Mute` — a process without a standard output has written what it has written;
* `Spout` — all that a process has written has gone into its pipe, and has been read or is still there;
* `Spout.step`, `Spout.moves` — and so it stays, whoever moves;
* `Spout.tapped`, `Spout.emptied` — so what is read up to the end is all that the process will ever
  have written.
-/

variable {S : Type} {ps : Programs S} {wrote : S → Bytes} {m m₁ m₂ m' : Machine S} {p q : Process S}
  {k j a : Nat} {read written : Bytes} {es : Trace}

/-- A step of a process brings it no descriptor but of a file that it opens. -/
theorem Accesses.descriptor (h : Accesses ps m k p m₁) (hq : m₁.processes[k]? = some q)
    {d : Nat × Channel} (hd : d ∈ q.descriptors) : d ∈ p.descriptors ∨
      ∃ o path mode next, ps.next p.program = .openFile d.1 path mode next ∧ d.2 = .opening o := by
  cases h with
  | none _ hds => exact .inl (hds q hq hd)
  | moves _ _ _ _ hds => exact .inl (hds q hq hd)
  | writes _ _ _ _ hds => exact .inl (hds q hq hd)
  | opens hnext _ _ hds =>
    rw [hds q hq] at hd
    rcases List.mem_cons.1 hd with rfl | hd
    · exact .inr ⟨_, _, _, _, hnext, rfl⟩
    · exact .inl hd

/-! ### Processes without a standard output -/

/-- A process has written something to its standard output, and will write nothing more: it has none. -/
def Mute (wrote : S → Bytes) (k : Nat) (written : Bytes) (m : Machine S) : Prop :=
  ∃ p, m.processes[k]? = some p ∧ wrote p.program = written ∧ ∀ d ∈ p.descriptors, d.1 ≠ 1

/-- A process that has no standard output writes in vain. -/
theorem write_without_output (hrec : Records ps wrote) (hp : m.processes[k]? = some p)
    (hnone : ∀ d ∈ p.descriptors, d.1 ≠ 1) {bytes : Bytes} {next : Except Nat Nat → S}
    (hnext : ps.next p.program = .write 1 bytes next) (hact : Machine.act ps m k p = some m₁)
    (hq : m₁.processes[k]? = some q) : wrote q.program = wrote p.program := by
  have hlookup : p.descriptors.lookup 1 = none := by
    refine List.lookup_eq_none_iff.2 fun d hd => ?_
    exact bne_iff_ne.2 (Ne.symm (hnone d hd))
  have hrecords := hrec.step p.program
  rw [hnext] at hrecords
  unfold Machine.act at hact
  rw [hnext] at hact
  dsimp only at hact
  rw [hlookup] at hact
  cases hact
  rw [Machine.of_modifyProcess hp hq]
  exact hrecords.write_output.2 9

namespace Mute

theorem slackens (h : Mute wrote k written m) (hs : Slackens m m₁) : Mute wrote k written m₁ := by
  obtain ⟨p, hp, hwrote, hnone⟩ := h
  have hlt : k < m₁.processes.size := hs.size ▸ (Array.getElem?_eq_some_iff.1 hp).1
  obtain ⟨p', hp', hprogram, hds⟩ := hs.process (Array.getElem?_eq_getElem hlt)
  cases hp.symm.trans hp'
  exact ⟨_, Array.getElem?_eq_getElem hlt, by rw [hprogram, hwrote], fun d hd => hnone d (hds hd)⟩

theorem of_processes (h : Mute wrote k written m) (hprocesses : m₁.processes[k]? = m.processes[k]?) :
    Mute wrote k written m₁ := by
  unfold Mute
  rw [hprocesses]
  exact h

theorem step (h : Mute wrote k written m) (hrec : Records ps wrote)
    (hquiet : ∀ s pid number next, ps.next s ≠ .signal pid number next)
    (hstep : m.stepActor ps a = some m₁) : Mute wrote k written m₁ := by
  obtain ⟨p, hp, hwrote, hnone⟩ := h
  have hlt : k < m₁.processes.size :=
    size_of_step hquiet hstep ▸ (Array.getElem?_eq_some_iff.1 hp).1
  have hq := Array.getElem?_eq_getElem hlt
  refine ⟨_, hq, ?_⟩
  by_cases hidle : ∀ p, k = a → m.processes[a]? = some p → ¬ (ps.next p.program).Uses 1
  · obtain ⟨p', hp', hsame, hds⟩ := silent_of_step hrec hquiet hstep hidle hq
    cases hp.symm.trans hp'
    exact ⟨hsame.trans hwrote, fun d hd hone => hnone d (hds d hd hone) hone⟩
  · push Not at hidle
    obtain ⟨p', rfl, hp', huses⟩ := hidle
    cases hp.symm.trans hp'
    obtain ⟨bytes, next, hnext⟩ := (hrec.step p.program).uses huses
    unfold Machine.stepActor at hstep
    rw [if_pos (Array.getElem?_eq_some_iff.1 hp).1] at hstep
    obtain ⟨p', hp', haccess⟩ := Machine.stepProcess_accesses hquiet hstep
    cases hp.symm.trans hp'
    constructor
    · unfold Machine.stepProcess at hstep
      simp only [hp, Bind.bind, Option.bind] at hstep
      split at hstep
      · exact (write_without_output hrec hp hnone hnext hstep hq).trans hwrote
      · split at hstep
        · cases hstep
          rw [Machine.of_modifyProcess hp hq]
          exact hwrote
        · cases hstep
      · cases hstep
    · intro d hd
      rcases haccess.descriptor hq hd with hd | ⟨o, path, mode, next', hopen, -⟩
      · exact hnone d hd
      · -- it is about to write, not to open a file
        cases hnext.symm.trans hopen

theorem moves (h : Mute wrote k written m) (hrec : Records ps wrote)
    (hquiet : ∀ s pid number next, ps.next s ≠ .signal pid number next) (hmoves : Moves ps m m₁) :
    Mute wrote k written m₁ := by
  induction hmoves with
  | refl => exact h
  | step _ hstep ih => exact ih.step hrec hquiet hstep
  | pass _ turn clock ih => exact ih.of_processes rfl

/-- Whatever the interpreter asks, a process without a standard output writes nothing more. -/
theorem answer (h : Mute wrote k written m) (host : Host S) (hrec : Records host.programs wrote)
    (hquiet : ∀ s pid number next, host.programs.next s ≠ .signal pid number next) (r : Request) :
    Mute wrote k written (host.answer r m).2 := by
  have hnet : (host.answer r m).2.net = m.net → Mute wrote k written (host.answer r m).2 :=
    fun hnet => h.of_processes (congrArg (fun n : Net S => n.processes[k]?) hnet)
  cases haccess : Request.isAccess r with
  | false =>
    obtain ⟨m₁, hmoves, hslackens⟩ := host.answer_slackens haccess m
    exact (h.moves hrec hquiet hmoves).slackens hslackens
  | true =>
    cases r with
    | spawn argv cwd streams =>
      show Mute wrote k written (host.spawn m argv cwd streams).2
      unfold spawn
      split
      · exact h.of_processes rfl
      · refine h.of_processes ?_
        obtain ⟨p, hp, -⟩ := h
        obtain ⟨-, q, hprocesses, -⟩ := m.processes_addProcess argv cwd streams _
        rw [hprocesses, Array.getElem?_push, if_neg (Nat.ne_of_lt (Array.getElem?_eq_some_iff.1 hp).1)]
    | openFile | flushFile | closeFile | writeHistory =>
      exact hnet (host.answer_net (.inl rfl) (fun _ hr => by cases hr) m)
    | writeFile => exact hnet (host.answer_net (.inr rfl) (fun _ hr => by cases hr) m)
    | _ => cases haccess

theorem plays (h : Mute wrote k written m) (hrec : Records ps wrote)
    (hquiet : ∀ s pid number next, ps.next s ≠ .signal pid number next)
    (hplays : Plays ps m es m') : Mute wrote k written m' := by
  induction es generalizing m with
  | nil => exact h.moves hrec hquiet hplays
  | cons e es ih =>
    obtain ⟨m₁, m₂, host, hmoves, rfl, hanswer, hrest⟩ := hplays
    have h₂ := (h.moves hrec hquiet hmoves).answer host hrec hquiet e.request
    rw [hanswer] at h₂
    exact ih h₂ hrest

end Mute

/-! ### A process and its output pipe -/

/-- All that a process has written is what has gone into a pipe. That has been read, or is still there.
The process holds the pipe by its standard output only, which leads nowhere else. -/
structure Flows (wrote : S → Bytes) (j : Nat) (read : Bytes) (p : Process S) (o : Pipe) : Prop where
  received : o.received = wrote p.program
  unread : o.received = read ++ o.buffer
  output : ∀ d ∈ p.descriptors, d.1 = 1 → d.2 = .pipe j
  held : p.Holds j → o.writerOpen = true

/-- A pipe that is the standard output of a process, and that nobody else has, nor a relay. -/
structure Spout (wrote : S → Bytes) (k j : Nat) (read : Bytes) (m : Machine S) : Prop where
  flows : ∃ p o, m.processes[k]? = some p ∧ m.pipes[j]? = some o ∧ p.outputPipe = some j ∧
    Flows wrote j read p o
  sole : ∀ {i : Nat} {p : Process S}, m.processes[i]? = some p → ∀ d ∈ p.descriptors,
    d.2 = .pipe j → i = k ∧ d.1 = 1
  relays : ∀ {n : Nat} {r : RelayTask}, m.relays[n]? = some r → ¬ r.Touches j
  owner : ∀ {i : Nat} {p : Process S}, m.processes[i]? = some p → p.identity.Owns j →
    i = k ∧ p.inputPipe ≠ some j

theorem Spout.not_holds (h : Spout wrote k j read m) {i : Nat} (hp : m.processes[i]? = some p)
    (hi : i ≠ k) : ¬ p.Holds j := by
  rintro ⟨fd, hfd⟩
  exact hi (h.sole hp _ hfd rfl).1

namespace Machine

/-- Letting go of what a descriptor leads to puts nothing into a pipe and takes nothing out. -/
theorem release_rests (m : Machine S) (p : Process S) (c : Channel) {o : Pipe}
    (ho : m.pipes[j]? = some o) : ∃ o', (m.release p c).pipes[j]? = some o' ∧
      o'.buffer = o.buffer ∧ o'.received = o.received := by
  by_cases hc : c = .pipe j
  · subst hc
    refine ⟨_, release_self ho, ?_⟩
    split <;> exact ⟨rfl, rfl⟩
  · exact ⟨o, (release_ne m p hc).trans ho, rfl, rfl⟩

theorem releaseAll_rests (ds : List (Nat × Channel)) (m : Machine S) (p : Process S) {o : Pipe}
    (ho : m.pipes[j]? = some o) : ∃ o', (ds.foldl (fun m d => m.release p d.2) m).pipes[j]? =
      some o' ∧ o'.buffer = o.buffer ∧ o'.received = o.received := by
  induction ds generalizing m o with
  | nil => exact ⟨o, ho, rfl, rfl⟩
  | cons d ds ih =>
    obtain ⟨o₁, ho₁, hbuffer₁, hreceived₁⟩ := m.release_rests p d.2 ho
    obtain ⟨o', ho', hbuffer, hreceived⟩ := ih (m.release p d.2) ho₁
    exact ⟨o', ho', hbuffer.trans hbuffer₁, hreceived.trans hreceived₁⟩

/-- Nor does letting go of all. -/
theorem retire_rests (m : Machine S) (life : Life) {o : Pipe} (ho : m.pipes[j]? = some o) :
    ∃ o', (m.retire k life).pipes[j]? = some o' ∧ o'.buffer = o.buffer ∧
      o'.received = o.received := by
  unfold retire
  split
  · exact ⟨o, ho, rfl, rfl⟩
  · rename_i p hp
    exact releaseAll_rests p.descriptors m p ho

/-- A read of a process leaves all pipes as they are but the one that it reads from. -/
theorem readStep_pipe {fd limit : Nat} {channel : Option Channel} {next : Except Nat Bytes → S}
    (h : m.readStep k fd limit channel next = some m₁) (hj : channel ≠ some (.pipe j)) :
    m₁.pipes[j]? = m.pipes[j]? := by
  unfold readStep at h
  split at h
  · cases h
    rfl
  · rename_i i
    have hi : i ≠ j := fun hi => hj (by rw [hi])
    split at h <;> cases h
    · exact pipes_modifyPipe_ne hi _
    · rfl
    · rfl
  · split at h <;> cases h
    · rename_i hread
      exact congrArg (fun n : Net S => n.pipes[j]?) (readOpening_net hread)
    · rfl
  · cases h
    rfl

/-- A write of a process leaves all pipes as they are but the one that it writes to. -/
theorem writeStep_pipe {bytes : Bytes} {channel : Option Channel} {next : Except Nat Nat → S}
    (h : m.writeStep k bytes channel next = some m₁) (hj : channel ≠ some (.pipe j)) :
    m₁.pipes[j]? = m.pipes[j]? := by
  unfold writeStep at h
  split at h
  · cases h
    rfl
  · cases h
    rfl
  · cases h
    rfl
  · rename_i i
    have hi : i ≠ j := fun hi => hj (by rw [hi])
    split at h <;> cases h
    · exact pipes_modifyPipe_ne hi _
    all_goals rfl
  · split at h <;> cases h
    · rename_i hwrite
      exact congrArg (fun n : Net S => n.pipes[j]?) (writeOpening_net hwrite)
    · rfl
  · cases h
    rfl

/-- What becomes of the output pipe of a process that does not write to it: nothing, or the process has
closed its standard output. -/
theorem act_pipe (hrec : (ps.next p.program).Records wrote p.program)
    (hquiet : ∀ pid number next, ps.next p.program ≠ .signal pid number next)
    (hsilent : ¬ (ps.next p.program).Uses 1) (hp : m.processes[k]? = some p)
    (hsole : ∀ d ∈ p.descriptors, d.2 = .pipe j → d.1 = 1) (h : act ps m k p = some m₁) :
    m₁.pipes[j]? = m.pipes[j]? ∨ (∀ o, m.pipes[j]? = some o → ∃ o', m₁.pipes[j]? = some o' ∧
      o'.buffer = o.buffer ∧ o'.received = o.received) ∧
        ∀ q, m₁.processes[k]? = some q → ∀ d ∈ q.descriptors, d.1 ≠ 1 := by
  have hother : ∀ {fd : Nat}, fd ≠ 1 → p.descriptors.lookup fd ≠ some (.pipe j) := by
    intro fd hfd hlookup
    obtain ⟨before, after, hds, -⟩ := List.lookup_eq_some_iff.1 hlookup
    refine hfd (hsole (fd, .pipe j) ?_ rfl)
    rw [hds]
    exact List.mem_append_right _ (.head _)
  have hretired : ∀ life, (m.retire k life).pipes[j]? = m.pipes[j]? ∨
      (∀ o, m.pipes[j]? = some o → ∃ o', (m.retire k life).pipes[j]? = some o' ∧
        o'.buffer = o.buffer ∧ o'.received = o.received) ∧
          ∀ q, (m.retire k life).processes[k]? = some q → ∀ d ∈ q.descriptors, d.1 ≠ 1 := by
    intro life
    refine .inr ⟨fun o ho => retire_rests m life ho, fun q hq d hd => ?_⟩
    rw [of_retire m life hp hq] at hd
    cases hd
  unfold act at h
  cases hnext : ps.next p.program with
  | read fd limit next =>
    rw [hnext] at h hrec
    exact .inl (readStep_pipe h (hother hrec.1))
  | write fd bytes next =>
    rw [hnext] at h hsilent
    refine .inl (writeStep_pipe h (hother ?_))
    rintro rfl
    exact hsilent (.write bytes next)
  | openFile fd path mode next =>
    rw [hnext] at h
    simp only at h
    split at h <;> cases h
    · rename_i hopen
      exact .inl (congrArg (fun n : Net S => n.pipes[j]?) (openPath_net hopen))
    · exact .inl rfl
  | close fd next =>
    rw [hnext] at h
    simp only [Option.some.injEq] at h
    by_cases hfd : fd = 1
    · -- it closes its standard output
      subst hfd
      right
      rw [← h]
      constructor
      · intro o ho
        split
        · exact release_rests m p _ ho
        · exact ⟨o, ho, rfl, rfl⟩
      · intro q hq d hd
        rw [modifyProcess, Array.getElem?_modify, if_pos rfl, Option.map_eq_some_iff] at hq
        obtain ⟨p', -, rfl⟩ := hq
        exact bne_iff_ne.1 (List.mem_filter.1 hd).2
    · left
      rw [← h]
      show (Machine.pipes _)[j]? = _
      split
      · rename_i c hc
        exact release_ne m p fun hpipe => hother hfd (by rw [hc, hpipe])
      · rfl
  | giveBack fd count next =>
    rw [hnext] at h
    cases h
    exact .inl (congrArg (fun n : Net S => n.pipes[j]?) (giveBack_net m (p.descriptors.lookup fd) count))
  | signal pid number next => exact absurd hnext (hquiet pid number next)
  | linger | exit =>
    rw [hnext] at h
    cases h
    exact hretired _
  | inspect | look | identify | sleep =>
    rw [hnext] at h
    cases h
    exact .inl rfl

end Machine

/-! ### What a step does -/

namespace Flows

variable {o o' : Pipe}

/-- The process goes on without its standard output. -/
theorem silent (h : Flows wrote j read p o) (hwrote : wrote q.program = wrote p.program)
    (houtput : ∀ d ∈ q.descriptors, d.1 = 1 → d ∈ p.descriptors) (hholds : q.Holds j → p.Holds j) :
    Flows wrote j read q o :=
  ⟨h.received.trans hwrote.symm, h.unread, fun d hd hone => h.output d (houtput d hd hone) hone,
    fun hq => h.held (hholds hq)⟩

/-- The process has closed its standard output. -/
theorem shut (h : Flows wrote j read p o) (hwrote : wrote q.program = wrote p.program)
    (hbuffer : o'.buffer = o.buffer) (hreceived : o'.received = o.received)
    (hnone : ∀ d ∈ q.descriptors, d.1 ≠ 1) (hholds : q.Holds j → ∃ d ∈ q.descriptors, d.1 = 1) :
    Flows wrote j read q o' where
  received := by rw [hreceived, h.received, hwrote]
  unread := by rw [hreceived, hbuffer, h.unread]
  output d hd hone := absurd hone (hnone d hd)
  held hq := by
    obtain ⟨d, hd, hone⟩ := hholds hq
    exact absurd hone (hnone d hd)

/-- The process has written to the pipe. -/
theorem fed (h : Flows wrote j read p o) {bytes : Bytes} {count : Nat}
    (htook : o.write bytes = .took count o')
    (hwrote : wrote q.program = wrote p.program ++ bytes.take count)
    (hds : q.descriptors = p.descriptors) : Flows wrote j read q o' := by
  obtain ⟨hgrew, -⟩ := Pipe.grew_of_write htook
  refine ⟨?_, ?_, hds ▸ h.output, fun hq => ?_⟩
  · rw [hgrew.received, h.received, hwrote]
  · rw [hgrew.received, h.unread, hgrew.buffer, List.append_assoc]
  · rw [hgrew.writerOpen]
    refine h.held ?_
    unfold Process.Holds at hq ⊢
    rw [← hds]
    exact hq

end Flows

namespace Spout

/-- A step of the process. -/
theorem act (h : Spout wrote k j read m) (hrec : Records ps wrote)
    (hquiet : ∀ s pid number next, ps.next s ≠ .signal pid number next) (hp : m.processes[k]? = some p)
    (hact : Machine.act ps m k p = some m₁) (hq : m₁.processes[k]? = some q) (hgoes : p.Goes q)
    (haccess : Accesses ps m k p m₁) :
    ∃ o, m₁.pipes[j]? = some o ∧ Flows wrote j read q o := by
  obtain ⟨p', o, hp', ho, -, hflows⟩ := h.flows
  cases hp.symm.trans hp'
  have hone : ∀ d ∈ q.descriptors, d.1 = 1 → d ∈ p.descriptors := by
    intro d hd hone
    rcases haccess.descriptor hq hd with hd | ⟨o, path, mode, next, hopen, -⟩
    · exact hd
    · -- nothing is opened as the standard output
      have hrecords := hrec.step p.program
      rw [hopen] at hrecords
      exact absurd hone hrecords.1
  by_cases huses : (ps.next p.program).Uses 1
  · obtain ⟨bytes, next, hnext⟩ := (hrec.step p.program).uses huses
    have hrecords := hrec.step p.program
    rw [hnext] at hrecords
    obtain ⟨htook, hfailed⟩ := hrecords.write_output
    unfold Machine.act at hact
    rw [hnext] at hact
    dsimp only at hact
    -- a write that fails changes nothing
    have hfails : ∀ e, some (m.goOn k (next (.error e))) = some m₁ →
        ∃ o, m₁.pipes[j]? = some o ∧ Flows wrote j read q o := by
      intro e he
      cases he
      rw [Machine.of_modifyProcess hp hq] at hone hgoes ⊢
      exact ⟨o, ho, hflows.silent (hfailed e) hone (hgoes.holds j)⟩
    cases hlookup : p.descriptors.lookup 1 with
    | none =>
      rw [hlookup] at hact
      exact hfails 9 hact
    | some c =>
      obtain ⟨before, after, hds, -⟩ := List.lookup_eq_some_iff.1 hlookup
      obtain rfl : c = .pipe j := by
        refine hflows.output (1, c) ?_ rfl
        rw [hds]
        exact List.mem_append_right _ (.head _)
      rw [hlookup] at hact
      unfold Machine.writeStep at hact
      simp only [ho, Option.map_some] at hact
      split at hact
      · rename_i count o' hwrite
        cases hact
        have hp₁ : (m.modifyPipe j fun _ => o').processes[k]? = some p := hp
        rw [Machine.of_modifyProcess hp₁ hq]
        exact ⟨o', Machine.pipes_modifyPipe_self ho _,
          hflows.fed (Option.some.inj hwrite) (htook count) rfl⟩
      · cases hact
      · exact hfails _ hact
      · exact hfails _ hact
      · rename_i hnone
        cases hnone
  · have hwrote := Machine.act_wrote (hrec.step _) (hquiet _) huses hp hact hq
    have hsole : ∀ d ∈ p.descriptors, d.2 = .pipe j → d.1 = 1 := fun d hd hj => (h.sole hp d hd hj).2
    rcases Machine.act_pipe (hrec.step _) (hquiet _) huses hp hsole hact with hsame | ⟨hrests, hnone⟩
    · exact ⟨o, hsame.trans ho, hflows.silent hwrote hone (hgoes.holds j)⟩
    · obtain ⟨o', ho', hbuffer, hreceived⟩ := hrests o ho
      refine ⟨o', ho', hflows.shut hwrote hbuffer hreceived (hnone q hq) ?_⟩
      rintro ⟨fd, hfd⟩
      refine ⟨_, hfd, ?_⟩
      rcases haccess.descriptor hq hfd with hold | ⟨o, path, mode, next, -, hopening⟩
      · exact hsole _ hold rfl
      · cases hopening

/-- **Whoever takes a step**, what is in the pipe, and what has been read from it, is what the process has
written. -/
theorem step (h : Spout wrote k j read m) (hrec : Records ps wrote)
    (hquiet : ∀ s pid number next, ps.next s ≠ .signal pid number next)
    (hstep : m.stepActor ps a = some m₁) : Spout wrote k j read m₁ := by
  obtain ⟨p₀, o, hp₀, ho, houtput, hflows⟩ := h.flows
  unfold Machine.stepActor at hstep
  split at hstep
  · obtain ⟨p, hp, haccess⟩ := Machine.stepProcess_accesses hquiet hstep
    obtain ⟨p', hp', hkept, q, hq, hgoes⟩ := Machine.stepProcess_stepOf hquiet hstep
    cases hp.symm.trans hp'
    refine ⟨?_, fun {i p'} hi d hd hj => ?_, fun {n r} hr => h.relays (hkept.relay n id ▸ hr),
      fun {i p'} hi howns => ?_⟩
    · by_cases ha : k = a
      · subst ha
        cases hp.symm.trans hp₀
        have hidentity : q.outputPipe = some j :=
          (congrArg Identity.outputPipe hgoes.identity).trans houtput
        unfold Machine.stepProcess at hstep
        simp only [hp, Bind.bind, Option.bind] at hstep
        split at hstep
        · obtain ⟨o', ho', hflows'⟩ := h.act hrec hquiet hp hstep hq hgoes haccess
          exact ⟨q, o', hq, ho', hidentity, hflows'⟩
        · split at hstep
          · -- it only wakes
            cases hstep
            obtain rfl := Machine.of_modifyProcess hp hq
            exact ⟨_, o, hq, ho, hidentity, hflows.silent rfl (fun _ hd _ => hd) (hgoes.holds j)⟩
          · cases hstep
        · cases hstep
      · refine ⟨p₀, o, (hkept.process k ha).trans hp₀, ?_, houtput, hflows⟩
        exact (hkept.pipe j (h.not_holds hp (Ne.symm ha))).trans ho
    · by_cases ha : i = a
      · subst ha
        cases hi.symm.trans hq
        rcases haccess.descriptor hq hd with hold | ⟨o, path, mode, next, -, hopening⟩
        · exact h.sole hp d hold hj
        · cases hopening.symm.trans hj
      · exact h.sole (hkept.process i ha ▸ hi) d hd hj
    · by_cases ha : i = a
      · subst ha
        cases hi.symm.trans hq
        have hinput : q.inputPipe = p.inputPipe := congrArg Identity.inputPipe hgoes.identity
        rw [hinput]
        exact h.owner hp (hgoes.identity ▸ howns)
      · exact h.owner (hkept.process i ha ▸ hi) howns
  · obtain ⟨r, hr, -, hkept, r', hr', hends⟩ := Machine.stepRelay_relayOf hstep
    refine ⟨⟨p₀, o, (hkept.process k id).trans hp₀, ?_, houtput, hflows⟩,
      fun {i p'} hi => h.sole (hkept.process i id ▸ hi), fun {n r''} hr'' => ?_,
      fun {i p'} hi => h.owner (hkept.process i id ▸ hi)⟩
    · exact (hkept.pipe j (h.relays hr)).trans ho
    · by_cases hn : n = a - m.processes.size
      · subst hn
        cases hr'.symm.trans hr''
        have hsource : r'.source = r.source := congrArg Ends.source hends
        have hsink : r'.sink = r.sink := congrArg Ends.sink hends
        unfold RelayTask.Touches
        rw [hsource, hsink]
        exact h.relays hr
      · exact h.relays (hkept.relay n hn ▸ hr'')

theorem moves (h : Spout wrote k j read m) (hrec : Records ps wrote)
    (hquiet : ∀ s pid number next, ps.next s ≠ .signal pid number next) (hmoves : Moves ps m m₁) :
    Spout wrote k j read m₁ := by
  induction hmoves with
  | refl => exact h
  | step _ hstep ih => exact ih.step hrec hquiet hstep
  | pass _ turn clock ih => exact ⟨ih.flows, ih.sole, ih.relays, ih.owner⟩

theorem of_net (h : Spout wrote k j read m) (hnet : m₁.net = m.net) : Spout wrote k j read m₁ := by
  have hprocesses : m₁.processes = m.processes := congrArg Net.processes hnet
  have hpipes : m₁.pipes = m.pipes := congrArg Net.pipes hnet
  have hrelays : m₁.relays = m.relays := congrArg Net.relays hnet
  constructor
  · rw [hprocesses, hpipes]
    exact h.flows
  · rw [hprocesses]
    exact h.sole
  · rw [hrelays]
    exact h.relays
  · rw [hprocesses]
    exact h.owner

/-! ### What the interpreter does -/

/-- A process has been started with a new pipe. -/
theorem spawned (hgrounded : m.Grounded) {argv : List String} {streams : Streams} {launch : Launch S}
    {seat : Seat S} (hs : Spawned m argv streams launch seat p m₁) (hwrote : wrote launch.program = [])
    (hreceived : launch.output.received = []) (hbuffer : launch.output.buffer = [])
    (hopen : launch.output.writerOpen = true) :
    Spout wrote m.processes.size seat.output [] m₁ := by
  have hle : m.pipes.size ≤ seat.output := (hs.owns_cases (.inr hs.outputPipe)).1
  have hnew : m₁.processes[m.processes.size]? = some p := by
    rw [hs.processes, Array.getElem?_push_size]
  -- only the standard output of the new process leads to the new pipe
  have hone : ∀ d ∈ p.descriptors, d.2 = .pipe seat.output → d.1 = 1 := by
    rw [hs.descriptors]
    intro d hd hpipe
    simp only [Seat.descriptors, Bool.false_eq_true, if_false, List.cons_append, List.nil_append,
      List.mem_cons, List.not_mem_nil, or_false] at hd
    rcases hd with rfl | rfl | rfl
    · exfalso
      rcases hs.input with ⟨-, -, hin, hout, -⟩ | ⟨-, -, -, hin⟩
      · have hsame := Channel.pipe.inj (hin.symm.trans hpipe)
        omega
      · have := hgrounded.inherited _ (.inl (hin _ hpipe))
        omega
    · rfl
    · have := hgrounded.inherited _ (.inr (.inr (hs.stderr _ hpipe)))
      omega
  refine ⟨⟨p, launch.output, hnew, hs.output, hs.outputPipe, ?_⟩, fun {i q} hq d hd hpipe => ?_,
    fun {n r} hr htouches => ?_, fun {i q} hq howns => ?_⟩
  · refine ⟨by rw [hreceived, hs.program, hwrote], by rw [hreceived, hbuffer, List.append_nil], ?_,
      fun _ => hopen⟩
    rw [hs.descriptors]
    intro d hd hfd
    simp only [Seat.descriptors, Bool.false_eq_true, if_false, List.cons_append, List.nil_append,
      List.mem_cons, List.not_mem_nil, or_false] at hd
    rcases hd with rfl | rfl | rfl
    · cases hfd
    · rfl
    · cases hfd
  · rw [hs.processes] at hq
    rcases getElem?_push_cases hq with hold | ⟨rfl, rfl⟩
    · have := (hgrounded.process hold).2 seat.output (.inr ⟨d.1, by rw [← hpipe]; exact hd⟩)
      omega
    · exact ⟨rfl, hone d hd hpipe⟩
  · rw [hs.relays] at hr
    obtain ⟨hsource, hsink⟩ := hgrounded.relay hr
    rcases htouches with heq | hsome
    · omega
    · have := hsink _ hsome
      omega
  · rw [hs.processes] at hq
    rcases getElem?_push_cases hq with hold | ⟨rfl, rfl⟩
    · have := (hgrounded.process hold).2 seat.output (.inl howns)
      omega
    · refine ⟨rfl, fun hinput => ?_⟩
      rcases hs.input with ⟨-, hin, -, hout, -⟩ | ⟨-, hnone, -⟩
      · have hsame := Option.some.inj (hin.symm.trans hinput)
        omega
      · cases hnone.symm.trans hinput

/-- A relay has been started from another process. -/
theorem relayed (h : Spout wrote k j read m) {writer : ProcessId} {reader : Option ProcessId}
    {chunk : Int} (hwriter : m.indexOf? writer ≠ some k) :
    Spout wrote k j read (m.addRelay writer reader chunk).2 := by
  unfold Machine.addRelay
  split
  · exact h
  · rename_i source hsource
    refine ⟨h.flows, h.sole, fun {n r} hr htouches => ?_, h.owner⟩
    rcases getElem?_push_cases hr with hold | ⟨-, rfl⟩
    · exact h.relays hold htouches
    · rcases htouches with rfl | hsink
      · obtain ⟨p, hp, hout⟩ := Option.bind_eq_some_iff.1 hsource
        obtain ⟨i, hi, hget⟩ := Option.bind_eq_some_iff.1 hp
        exact hwriter ((h.owner hget (.inr hout)).1 ▸ hi)
      · obtain ⟨pid, -, hpid⟩ := Option.bind_eq_some_iff.1 hsink
        obtain ⟨p, hp, hin⟩ := Option.bind_eq_some_iff.1 hpid
        obtain ⟨i, -, hget⟩ := Option.bind_eq_some_iff.1 hp
        exact (h.owner hget (.inl hin)).2 hin

/-- Some bytes have been read. -/
theorem drawn (h : Spout wrote k j read m) {o o' : Pipe} {line : Bytes} (ho : m.pipes[j]? = some o)
    (hs : o.Shrank o' line) : Spout wrote k j (read ++ line) (m.modifyPipe j fun _ => o') := by
  obtain ⟨p, o₁, hp, ho₁, houtput, hflows⟩ := h.flows
  cases ho.symm.trans ho₁
  refine ⟨⟨p, o', hp, Machine.pipes_modifyPipe_self ho _, houtput, ?_, ?_, hflows.output,
    fun hholds => ?_⟩, h.sole, h.relays, h.owner⟩
  · rw [hs.received, hflows.received]
  · rw [hs.received, hflows.unread, hs.buffer, List.append_assoc]
  · rw [hs.writerOpen, hflows.held hholds]

end Spout

end LineShell.Host
