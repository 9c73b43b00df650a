import LineShell.Proofs.Kept
import LineShell.Proofs.PipeFlow
import LineShell.Proofs.StreamProgram

namespace LineShell.Host

open Text (Bytes)

/-!
# Stream programs at their seats

A process of a pipeline, seen between its input pipe and its output pipe.

* `Seat` — the program that a process began with, and where its streams led;
* `Works` — how far a process has come, told from its output pipe, and whether it has ended;
* `Draws` — what the reads of a process have brought is what has gone into its input pipe;
* `Takes` — what a step of a process may do to its input pipe;
* `stepProcess_went` — a process that runs a stream program goes on working and drawing.
-/

variable {S : Type}

/-- The program that a process began with, and where its streams led. -/
structure Seat (S : Type) where
  start : S
  stdin : Channel
  stderr : Channel
  /-- The pipe that its standard output is. -/
  output : Nat

/-- The descriptors that belong to a seat. The input may have been closed. -/
def Seat.descriptors (a : Seat S) (shut : Bool) : List (Nat × Channel) :=
  (if shut then [] else [(0, a.stdin)]) ++ [(1, .pipe a.output), (2, a.stderr)]

/-- The seat is that of a process whose program computes what its words denote. Pipes of its own are
not below `base`, others are. -/
structure Seat.Fits (a : Seat S) (ps : Programs S) (denote : List String → Flow → Flow) (base : Nat)
    (who : Identity) : Prop where
  computes : Computes ps a.start (denote who.argv)
  output : who.outputPipe = some a.output
  base_le : base ≤ a.output
  input : ∀ i, who.inputPipe = some i → a.stdin = .pipe i ∧ base ≤ i ∧ i ≠ a.output
  stdin : ∀ i, a.stdin = .pipe i → who.inputPipe = some i ∨ i < base
  stderr : ∀ i, a.stderr = .pipe i → i < base
  null : who.streams.stdin = .null → a.stdin = .nothing

/-- The pipe is the input or the output pipe of a process. -/
def Identity.Owns (who : Identity) (j : Nat) : Prop :=
  who.inputPipe = some j ∨ who.outputPipe = some j

/-- The process has its standard input open. -/
def Process.HoldsInput (p : Process S) : Prop := ∃ c, (0, c) ∈ p.descriptors

/-- Whether a process is at work or has ended. -/
inductive Stands (ps : Programs S) (a : Seat S) (p : Process S) (shut writerOpen : Bool) : Prop
  | working (hlife : p.life = .running ∨ ∃ time, p.life = .sleeping time)
      (hdescriptors : p.descriptors = a.descriptors shut) (hopen : writerOpen = true)
  | ended (hrunning : p.life ≠ .running) (hsleeping : ∀ time, p.life ≠ .sleeping time)
      (hdescriptors : p.descriptors = []) (hclosed : writerOpen = false)
      (hend : (ps.next p.program).isEnd = true)

/-- A process has run its program as far as its output pipe tells. A write of it has failed only if
nobody reads that pipe any more. -/
structure Works (ps : Programs S) (a : Seat S) (p : Process S) (o : Pipe) : Prop where
  quota : o.quota = none
  ending : o.ending = none
  nothing : a.stdin = .nothing → ∀ e ∈ p.intake, e = .ok []
  run : ∃ broken shut, Ran ps a.start p.program p.intake o.received broken shut ∧
    (broken = true → o.readerOpen = false) ∧ Stands ps a p shut o.writerOpen

/-- What the reads of a process have brought, and what is in its input pipe, is all that has gone
into that pipe. -/
structure Draws (p : Process S) (i : Pipe) : Prop where
  quota : i.quota = none
  proper : Proper p.intake
  received : i.received = taken p.intake ++ i.buffer
  ended : .ok [] ∈ p.intake → i.writerOpen = false ∧ i.buffer = []
  held : p.HoldsInput → i.readerOpen = true

/-- What a step of a process may do to its input pipe. -/
inductive Takes (p : Process S) (i : Pipe) (q : Process S) : Pipe → Prop
  | keeps (hintake : q.intake = p.intake) : Takes p i q i
  | gets {i' : Pipe} {b : UInt8} {bytes : Bytes} (hs : i.Shrank i' (b :: bytes))
      (hintake : q.intake = .ok (b :: bytes) :: p.intake) : Takes p i q i'
  | ends (hbuffer : i.buffer = []) (hclosed : i.writerOpen = false) (hopen : i.readerOpen = true)
      (hintake : q.intake = .ok [] :: p.intake) : Takes p i q i
  | quits (hintake : q.intake = p.intake) : Takes p i q i.closeReader

variable {ps : Programs S} {denote : List String → Flow → Flow} {base : Nat} {a : Seat S}
  {p q : Process S} {o o' i i' : Pipe}

theorem Takes.drawn (h : Takes p i q i') : i.Drawn i' := by
  cases h with
  | keeps => exact .same i
  | gets hs => exact .read hs
  | ends => exact .same i
  | quits => exact .closed i

/-! ### Drawing -/

theorem Draws.fed (h : Draws p i) (hf : i.Fed i') : Draws p i' := by
  refine ⟨hf.quota h.quota, h.proper, ?_, ?_, fun hp => hf.readerOpen.trans (h.held hp)⟩
  · cases hf with
    | same => exact h.received
    | wrote _ hg => rw [hg.received, h.received, hg.buffer, List.append_assoc]
    | closed => exact h.received
  · intro hend
    obtain ⟨hclosed, hbuffer⟩ := h.ended hend
    cases hf with
    | same => exact ⟨hclosed, hbuffer⟩
    | wrote hopen =>
      -- behind the end nobody writes
      rw [hopen] at hclosed
      cases hclosed
    | closed => exact ⟨rfl, hbuffer⟩

theorem Draws.takes (h : Draws p i) (ht : Takes p i q i')
    (hheld : q.HoldsInput → i'.readerOpen = true) : Draws q i' := by
  refine ⟨ht.drawn.quota h.quota, ?_, ?_, ?_, hheld⟩
  · cases ht with
    | keeps hintake => exact hintake ▸ h.proper
    | gets hs hintake =>
      -- behind the end there is nothing to get
      rw [hintake]
      refine ⟨fun hend => ?_, h.proper⟩
      have hbuffer := (h.ended hend).2
      rw [hs.buffer] at hbuffer
      cases hbuffer
    | ends _ _ _ hintake =>
      rw [hintake]
      exact h.proper
    | quits hintake => exact hintake ▸ h.proper
  · cases ht with
    | keeps hintake => rw [hintake, h.received]
    | gets hs hintake => rw [hs.received, h.received, hintake, hs.buffer, taken, List.append_assoc]
    | ends _ _ _ hintake => rw [hintake, taken, List.append_nil, h.received]
    | quits hintake => rw [hintake]; exact h.received
  · intro hend
    cases ht with
    | keeps hintake => exact h.ended (hintake ▸ hend)
    | gets hs hintake =>
      rw [hintake] at hend
      rcases List.mem_cons.1 hend with hnow | hend
      · cases hnow
      · have hbuffer := (h.ended hend).2
        rw [hs.buffer] at hbuffer
        cases hbuffer
    | ends hbuffer hclosed => exact ⟨hclosed, hbuffer⟩
    | quits hintake => exact h.ended (hintake ▸ hend)

/-! ### Working -/

namespace Works

theorem drawn (h : Works ps a p o) (hd : o.Drawn o') : Works ps a p o' := by
  obtain ⟨hquota, hending, hnothing, broken, shut, hran, hbroken, hstands⟩ := h
  refine ⟨hd.quota hquota, hd.ending.trans hending, hnothing, broken, shut, ?_, fun hb => hd.readerOpen (hbroken hb), ?_⟩
  · rw [hd.received]
    exact hran
  · rw [hd.writerOpen]
    exact hstands

/-- A running process has not ended. -/
theorem running (h : Works ps a p o) (hlife : p.life = .running) :
    o.writerOpen = true ∧ ∃ broken shut, Ran ps a.start p.program p.intake o.received broken shut ∧
      (broken = true → o.readerOpen = false) ∧ p.descriptors = a.descriptors shut := by
  obtain ⟨-, -, -, broken, shut, hran, hbroken, hstands⟩ := h
  cases hstands with
  | working _ hdescriptors hopen => exact ⟨hopen, broken, shut, hran, hbroken, hdescriptors⟩
  | ended hrunning => exact absurd hlife hrunning

theorem beside (h : Works ps a p o) (hlife : p.life = .running)
    (hnext : (ps.next p.program).Beside q.program) (hintake : q.intake = p.intake)
    (hdescriptors : q.descriptors = p.descriptors)
    (hlife' : q.life = .running ∨ ∃ time, q.life = .sleeping time) : Works ps a q o := by
  obtain ⟨hopen, broken, shut, hran, hbroken, hd⟩ := h.running hlife
  refine ⟨h.quota, h.ending, by rw [hintake]; exact h.nothing, broken, shut, ?_, hbroken,
    .working hlife' (hdescriptors.trans hd) hopen⟩
  rw [hintake]
  exact hran.beside hnext

theorem wake (h : Works ps a p o) {time : Nat} (hlife : p.life = .sleeping time) :
    Works ps a { p with life := .running } o := by
  obtain ⟨hquota, hending, hnothing, broken, shut, hran, hbroken, hstands⟩ := h
  refine ⟨hquota, hending, hnothing, broken, shut, hran, hbroken, ?_⟩
  cases hstands with
  | working _ hdescriptors hopen => exact .working (.inl rfl) hdescriptors hopen
  | ended _ hsleeping => exact absurd hlife (hsleeping time)

theorem hear (h : Works ps a p o) (hlife : p.life = .running) {limit : Nat}
    {next : Except Nat Bytes → S} (hnext : ps.next p.program = .read 0 limit next)
    {answer : Except Nat Bytes} (hanswer : a.stdin = .nothing → answer = .ok []) :
    Works ps a { p with program := next answer, intake := answer :: p.intake } o := by
  obtain ⟨hopen, broken, shut, hran, hbroken, hd⟩ := h.running hlife
  refine ⟨h.quota, h.ending, fun hstdin e he => ?_, broken, shut, hran.read hnext answer, hbroken,
    .working (.inl hlife) hd hopen⟩
  rcases List.mem_cons.1 he with rfl | he
  · exact hanswer hstdin
  · exact h.nothing hstdin e he

theorem wrote (h : Works ps a p o) (hlife : p.life = .running) {bytes : Bytes}
    {next : Except Nat Nat → S} (hnext : ps.next p.program = .write 1 bytes next) {count : Nat}
    (hw : o.write bytes = .took count o') :
    o.Fed o' ∧ Works ps a { p with program := next (.ok count) } o' := by
  obtain ⟨hopen, broken, shut, hran, hbroken, hd⟩ := h.running hlife
  obtain ⟨hgrew, hcount⟩ := Pipe.grew_of_write hw
  -- a pipe that takes bytes is read, so no write of the program has failed before
  have hunbroken : broken = false := by
    cases broken with
    | false => rfl
    | true =>
      have hreader := Pipe.readerOpen_of_write hw
      rw [hbroken rfl] at hreader
      cases hreader
  rw [hunbroken] at hran
  refine ⟨.wrote hopen hgrew, hgrew.quota h.quota, hgrew.ending.trans h.ending, h.nothing, false, shut, ?_, nofun,
    .working (.inl hlife) hd (hgrew.writerOpen.trans hopen)⟩
  rw [hgrew.received]
  exact hran.write hnext count hcount

theorem failed (h : Works ps a p o) (hlife : p.life = .running) {bytes : Bytes}
    {next : Except Nat Nat → S} (hnext : ps.next p.program = .write 1 bytes next)
    (hw : o.write bytes = .broken) (code : Nat) :
    Works ps a { p with program := next (.error code) } o := by
  obtain ⟨hopen, broken, shut, hran, -, hd⟩ := h.running hlife
  exact ⟨h.quota, h.ending, h.nothing, true, shut, hran.fail hnext code,
    fun _ => Pipe.readerOpen_of_broken hw, .working (.inl hlife) hd hopen⟩

theorem shut (h : Works ps a p o) (hlife : p.life = .running) {next : S}
    (hnext : ps.next p.program = .close 0 next) :
    Works ps a { p with
      program := next, descriptors := p.descriptors.filter (·.1 != 0) } o := by
  obtain ⟨hopen, broken, shut, hran, hbroken, hd⟩ := h.running hlife
  refine ⟨h.quota, h.ending, h.nothing, broken, true, hran.close hnext, hbroken,
    .working (.inl hlife) ?_ hopen⟩
  show p.descriptors.filter (·.1 != 0) = _
  rw [hd]
  cases shut <;> rfl

theorem retired (h : Works ps a p o) (hlife : p.life = .running)
    (hend : (ps.next p.program).isEnd = true) {life : Life} (hrunning : life ≠ .running)
    (hsleeping : ∀ time, life ≠ .sleeping time) :
    Works ps a { p with life, descriptors := [] } o.closeWriter := by
  obtain ⟨-, broken, shut, hran, hbroken, -⟩ := h.running hlife
  exact ⟨h.quota, h.ending, h.nothing, broken, shut, hran, hbroken, .ended hrunning hsleeping rfl rfl hend⟩

end Works

/-! ### Steps -/

/-- A process sits between its pipes. -/
structure Seated (ps : Programs S) (a : Seat S) (p : Process S) (pipes : Array Pipe) : Prop where
  output : ∃ o, pipes[a.output]? = some o ∧ Works ps a p o
  input : ∀ j, p.inputPipe = some j → ∃ i, pipes[j]? = some i ∧ Draws p i

/-- A process has gone on between its pipes. -/
structure Went (ps : Programs S) (a : Seat S) (p q : Process S) (pipes pipes' : Array Pipe) :
    Prop where
  output : ∃ o o', pipes[a.output]? = some o ∧ pipes'[a.output]? = some o' ∧ o.Fed o' ∧
    Works ps a q o'
  input : ∀ j, p.inputPipe = some j → ∃ i i', pipes[j]? = some i ∧ pipes'[j]? = some i' ∧
    Takes p i q i' ∧ Draws q i'

namespace Seat

theorem lookup_one (a : Seat S) (shut : Bool) :
    (a.descriptors shut).lookup 1 = some (.pipe a.output) := by
  cases shut <;> rfl

theorem lookup_other {fd : Nat} {c : Channel} {shut : Bool} (h0 : fd ≠ 0) (h1 : fd ≠ 1)
    (h : (a.descriptors shut).lookup fd = some c) : c = a.stderr := by
  obtain ⟨before, after, hds, -⟩ := List.lookup_eq_some_iff.1 h
  have hmem : (fd, c) ∈ a.descriptors shut := by
    rw [hds]
    exact List.mem_append_right _ (.head _)
  cases shut <;> simp [descriptors, h0, h1] at hmem <;> exact hmem.2

end Seat

variable {pipes pipes' : Array Pipe}

/-- No process of a pipeline reads what it writes. -/
theorem Seat.Fits.stdin_ne_output {who : Identity} (h : a.Fits ps denote base who) :
    a.stdin ≠ .pipe a.output := by
  intro hstdin
  rcases h.stdin _ hstdin with hown | hlt
  · exact (h.input _ hown).2.2 rfl
  · exact absurd hlt (Nat.not_lt.2 h.base_le)

/-- A process goes on that leaves its pipes alone. -/
theorem Seated.went (h : Seated ps a p pipes) (hfits : a.Fits ps denote base p.identity)
    (hsame : ∀ j, p.identity.Owns j → base ≤ j → pipes'[j]? = pipes[j]?)
    (hworks : ∀ o, Works ps a p o → Works ps a q o) (hintake : q.intake = p.intake)
    (hheld : q.HoldsInput → p.HoldsInput) : Went ps a p q pipes pipes' := by
  obtain ⟨o, ho, hw⟩ := h.output
  refine ⟨⟨o, o, ho, (hsame _ (.inr hfits.output) hfits.base_le).trans ho, .same o, hworks o hw⟩,
    fun j hj => ?_⟩
  obtain ⟨i, hi, hd⟩ := h.input j hj
  refine ⟨i, i, hi, (hsame _ (.inl hj) (hfits.input j hj).2.1).trans hi, .keeps hintake, ?_⟩
  exact hd.takes (.keeps hintake) fun hq => hd.held (hheld hq)

/-- A process at its seat holds no pipes but its own, and some below `base`. -/
theorem Seated.owns_of_holds (h : Seated ps a p pipes) (hfits : a.Fits ps denote base p.identity)
    {j : Nat} (hj : p.Holds j) (hbase : base ≤ j) : p.identity.Owns j := by
  obtain ⟨o, -, -, -, -, broken, shut, -, -, hstands⟩ := h.output
  obtain ⟨fd, hfd⟩ := hj
  cases hstands with
  | working _ hdescriptors =>
    -- of the three channels of a seat, the error stream leads to no pipe of a pipeline
    have hmem : a.stdin = .pipe j ∨ j = a.output ∨ a.stderr = .pipe j := by
      rw [hdescriptors] at hfd
      cases shut <;> simp [Seat.descriptors] at hfd
      · rcases hfd with ⟨-, hfd⟩ | ⟨-, hfd⟩ | ⟨-, hfd⟩
        · exact .inl hfd.symm
        · exact .inr (.inl hfd)
        · exact .inr (.inr hfd.symm)
      · rcases hfd with ⟨-, hfd⟩ | ⟨-, hfd⟩
        · exact .inr (.inl hfd)
        · exact .inr (.inr hfd.symm)
    rcases hmem with hstdin | rfl | hstderr
    · rcases hfits.stdin j hstdin with hown | hlt
      · exact .inl hown
      · omega
    · exact .inr hfits.output
    · have := hfits.stderr j hstderr
      omega
  | ended _ _ hdescriptors =>
    rw [hdescriptors] at hfd
    cases hfd

namespace Machine

variable {m m₁ : Machine S} {k : Nat}

theorem release_ne (m : Machine S) (p : Process S) {c : Channel} {j : Nat} (h : c ≠ .pipe j) :
    (m.release p c).pipes[j]? = m.pipes[j]? := by
  cases c with
  | pipe j' => exact pipes_modifyPipe_ne (fun hj => h (congrArg Channel.pipe hj)) _
  | _ => rfl

theorem release_self {p : Process S} {j : Nat} (h : m.pipes[j]? = some i) :
    (m.release p (.pipe j)).pipes[j]? =
      some (if p.inputPipe = some j then i.closeReader else i.closeWriter) :=
  pipes_modifyPipe_self h _

/-! What concerns no pipe of the seat changes none. -/

theorem readStep_elsewhere (hp : m.processes[k]? = some p) {limit : Nat} {channel : Option Channel}
    {next : Except Nat Bytes → S} (h : m.readStep k 0 limit channel next = some m₁)
    (hc : ∀ j, channel = some (.pipe j) → j < base) :
    ∃ answer, (channel = some .nothing → answer = .ok []) ∧
      m₁.processes[k]? = some { p with
        program := next answer, intake := answer :: p.intake } ∧
      ∀ j, base ≤ j → m₁.pipes[j]? = m.pipes[j]? := by
  unfold readStep at h
  split at h
  · cases h
    exact ⟨_, fun _ => rfl, processes_modifyProcess_self hp _, fun _ _ => rfl⟩
  · rename_i j
    have hj := hc j rfl
    split at h <;> cases h
    · refine ⟨_, nofun, processes_modifyProcess_self hp _, fun j' hj' => ?_⟩
      exact pipes_modifyPipe_ne (by omega) _
    all_goals exact ⟨_, nofun, processes_modifyProcess_self hp _, fun _ _ => rfl⟩
  · split at h <;> cases h
    · rename_i heq
      have hnet := readOpening_net heq
      exact ⟨_, nofun, processes_modifyProcess_self ((congrArg (·.processes[k]?) hnet).trans hp) _,
        fun j _ => congrArg (·.pipes[j]?) hnet⟩
    · exact ⟨_, nofun, processes_modifyProcess_self hp _, fun _ _ => rfl⟩
  · rename_i hnothing _ _
    cases h
    exact ⟨_, fun h => absurd h hnothing, processes_modifyProcess_self hp _, fun _ _ => rfl⟩

theorem writeStep_elsewhere (hp : m.processes[k]? = some p) {bytes : Bytes}
    {channel : Option Channel} {next : Except Nat Nat → S}
    (h : m.writeStep k bytes channel next = some m₁)
    (hc : ∀ j, channel = some (.pipe j) → j < base) :
    ∃ answer, m₁.processes[k]? = some { p with program := next answer } ∧
      ∀ j, base ≤ j → m₁.pipes[j]? = m.pipes[j]? := by
  unfold writeStep at h
  split at h
  · cases h
    exact ⟨_, processes_modifyProcess_self hp _, fun _ _ => rfl⟩
  · cases h
    exact ⟨_, processes_modifyProcess_self hp _, fun _ _ => rfl⟩
  · cases h
    exact ⟨_, processes_modifyProcess_self hp _, fun _ _ => rfl⟩
  · rename_i j
    have hj := hc j rfl
    split at h <;> cases h
    · refine ⟨_, processes_modifyProcess_self hp _, fun j' hj' => ?_⟩
      exact pipes_modifyPipe_ne (by omega) _
    all_goals exact ⟨_, processes_modifyProcess_self hp _, fun _ _ => rfl⟩
  · split at h <;> cases h
    · rename_i heq
      have hnet := writeOpening_net heq
      exact ⟨_, processes_modifyProcess_self ((congrArg (·.processes[k]?) hnet).trans hp) _,
        fun j _ => congrArg (·.pipes[j]?) hnet⟩
    · exact ⟨_, processes_modifyProcess_self hp _, fun _ _ => rfl⟩
  · cases h
    exact ⟨_, processes_modifyProcess_self hp _, fun _ _ => rfl⟩

/-! What concerns a pipe of the seat. -/

/-- A process reads what comes from no pipe of its own. -/
theorem read_elsewhere (h : Seated ps a p m.pipes) (hfits : a.Fits ps denote base p.identity)
    (hp : m.processes[k]? = some p) (hlife : p.life = .running) {limit : Nat}
    {next : Except Nat Bytes → S} (hnext : ps.next p.program = .read 0 limit next)
    (hc : ∀ j, a.stdin = .pipe j → j < base)
    (hread : m.readStep k 0 limit (some a.stdin) next = some m₁) :
    ∃ q, m₁.processes[k]? = some q ∧ Went ps a p q m.pipes m₁.pipes := by
  obtain ⟨answer, hanswer, hq, hsame⟩ :=
    readStep_elsewhere hp hread fun j hj => hc j (Option.some.inj hj)
  obtain ⟨o, ho, hw⟩ := h.output
  refine ⟨_, hq, ⟨o, o, ho, (hsame _ hfits.base_le).trans ho, .same o,
    hw.hear hlife hnext fun hstdin => hanswer (congrArg some hstdin)⟩, fun j hj => ?_⟩
  obtain ⟨hstdin, hbase, -⟩ := hfits.input j hj
  exact absurd (hc j hstdin) (Nat.not_lt.2 hbase)

/-- A process reads from its own input pipe. -/
theorem read_input (h : Seated ps a p m.pipes) (hfits : a.Fits ps denote base p.identity)
    (hp : m.processes[k]? = some p) (hlife : p.life = .running) {limit j : Nat}
    {next : Except Nat Bytes → S} (hnext : ps.next p.program = .read 0 limit next)
    (hlimit : 0 < limit) (hheld : p.HoldsInput) (hj : p.inputPipe = some j)
    (hread : m.readStep k 0 limit (some (.pipe j)) next = some m₁) :
    ∃ q, m₁.processes[k]? = some q ∧ Went ps a p q m.pipes m₁.pipes := by
  obtain ⟨o, ho, hw⟩ := h.output
  obtain ⟨i, hi, hd⟩ := h.input j hj
  obtain ⟨hstdin, -, hne⟩ := hfits.input j hj
  -- whatever the read brings, the program goes on with it
  have hworks : ∀ answer, Works ps a { p with
      program := next answer, intake := answer :: p.intake } o :=
    fun answer => hw.hear hlife hnext fun hnothing => by
      rw [hstdin] at hnothing
      cases hnothing
  have hopen := hd.held hheld
  simp only [readStep, hi, Option.map_some] at hread
  cases hr : i.read (some limit) with
  | blocked => simp [hr] at hread
  | ended fault =>
    simp only [hr, Option.some.injEq] at hread
    rw [← hread]
    obtain ⟨hbuffer, hclosed, -⟩ := Pipe.ended_of_read hr
    refine ⟨_, processes_modifyProcess_self hp _, ⟨o, o, ho, ho, .same o, hworks _⟩, fun j' hj' => ?_⟩
    cases hj.symm.trans hj'
    have htakes : Takes p i { p with
        program := next (.ok []), intake := .ok [] :: p.intake } i := .ends hbuffer hclosed hopen rfl
    exact ⟨i, i, hi, hi, htakes, hd.takes htakes fun _ => hopen⟩
  | gave bytes i' =>
    simp only [hr, Option.some.injEq] at hread
    rw [← hread]
    have hshrank := Pipe.shrank_of_read hr
    have hnonempty := Pipe.ne_nil_of_read hr (by simpa using Nat.pos_iff_ne_zero.1 hlimit)
    obtain ⟨b, bytes, rfl⟩ := List.exists_cons_of_ne_nil hnonempty
    refine ⟨_, processes_modifyProcess_self hp _, ⟨o, o, ho, ?_, .same o, hworks _⟩, fun j' hj' => ?_⟩
    · exact (pipes_modifyPipe_ne hne _).trans ho
    · cases hj.symm.trans hj'
      have htakes : Takes p i { p with
          program := next (.ok (b :: bytes)), intake := .ok (b :: bytes) :: p.intake } i' :=
        .gets hshrank rfl
      exact ⟨i, i', hi, pipes_modifyPipe_self hi _, htakes,
        hd.takes htakes fun _ => hshrank.readerOpen.trans hopen⟩

/-- A process writes to its output pipe. -/
theorem write_output (h : Seated ps a p m.pipes) (hfits : a.Fits ps denote base p.identity)
    (hp : m.processes[k]? = some p) (hlife : p.life = .running) {bytes : Bytes}
    {next : Except Nat Nat → S} (hnext : ps.next p.program = .write 1 bytes next)
    (hwrite : m.writeStep k bytes (some (.pipe a.output)) next = some m₁) :
    ∃ q, m₁.processes[k]? = some q ∧ Went ps a p q m.pipes m₁.pipes := by
  obtain ⟨o, ho, hw⟩ := h.output
  -- a write leaves the input pipe alone
  have hinput : ∀ program j, p.inputPipe = some j → ∃ i, m.pipes[j]? = some i ∧
      Takes p i { p with program } i ∧ Draws { p with program } i := by
    intro program j hj
    obtain ⟨i, hi, hd⟩ := h.input j hj
    exact ⟨i, hi, .keeps rfl, hd.takes (.keeps rfl) hd.held⟩
  simp only [writeStep, ho, Option.map_some] at hwrite
  cases hr : o.write bytes with
  | blocked => simp [hr] at hwrite
  | broken =>
    simp only [hr, Option.some.injEq] at hwrite
    rw [← hwrite]
    refine ⟨_, processes_modifyProcess_self hp _, ⟨o, o, ho, ho, .same o, hw.failed hlife hnext hr _⟩,
      fun j hj => ?_⟩
    obtain ⟨i, hi, htakes, hdraws⟩ := hinput (next (.error Fault.pipeBroken)) j hj
    exact ⟨i, i, hi, hi, htakes, hdraws⟩
  | refused f => exact absurd hr (Pipe.write_ne_refused hw.quota f)
  | took count o' =>
    simp only [hr, Option.some.injEq] at hwrite
    rw [← hwrite]
    obtain ⟨hfed, hworks⟩ := hw.wrote hlife hnext hr
    refine ⟨_, processes_modifyProcess_self hp _, ⟨o, o', ho, pipes_modifyPipe_self ho _, hfed, hworks⟩,
      fun j hj => ?_⟩
    obtain ⟨i, hi, htakes, hdraws⟩ := hinput (next (.ok count)) j hj
    have hne := (hfits.input j hj).2.2
    exact ⟨i, i, hi, (pipes_modifyPipe_ne (Ne.symm hne) _).trans hi, htakes, hdraws⟩

/-- A process reads, from its own input pipe or from elsewhere. -/
theorem read_went (h : Seated ps a p m.pipes) (hfits : a.Fits ps denote base p.identity)
    (hp : m.processes[k]? = some p) (hlife : p.life = .running) {limit : Nat}
    {next : Except Nat Bytes → S} (hnext : ps.next p.program = .read 0 limit next)
    (hlimit : 0 < limit) (hd : p.descriptors = a.descriptors false)
    (hread : m.readStep k 0 limit (p.descriptors.lookup 0) next = some m₁) :
    ∃ q, m₁.processes[k]? = some q ∧ Went ps a p q m.pipes m₁.pipes := by
  have hlookup : p.descriptors.lookup 0 = some a.stdin := by rw [hd]; rfl
  have hheld : p.HoldsInput := ⟨a.stdin, by rw [hd]; exact .head _⟩
  rw [hlookup] at hread
  cases hin : p.inputPipe with
  | some j =>
    rw [(hfits.input j hin).1] at hread
    exact read_input h hfits hp hlife hnext hlimit hheld hin hread
  | none =>
    refine read_elsewhere h hfits hp hlife hnext (fun j hj => ?_) hread
    refine (hfits.stdin j hj).resolve_left fun hown => ?_
    cases hin.symm.trans hown

/-- A process writes, to its output pipe or elsewhere. -/
theorem write_went (h : Seated ps a p m.pipes) (hfits : a.Fits ps denote base p.identity)
    (hp : m.processes[k]? = some p) (hlife : p.life = .running) {fd : Nat} {bytes : Bytes}
    {next : Except Nat Nat → S} (hnext : ps.next p.program = .write fd bytes next) (h0 : fd ≠ 0)
    {shut : Bool} (hd : p.descriptors = a.descriptors shut)
    (hwrite : m.writeStep k bytes (p.descriptors.lookup fd) next = some m₁) :
    ∃ q, m₁.processes[k]? = some q ∧ Went ps a p q m.pipes m₁.pipes := by
  by_cases h1 : fd = 1
  · subst h1
    rw [hd, a.lookup_one] at hwrite
    exact write_output h hfits hp hlife hnext hwrite
  · -- any other descriptor is the error stream's
    have hforeign : ∀ j, p.descriptors.lookup fd = some (.pipe j) → j < base := by
      intro j hj
      rw [hd] at hj
      exact hfits.stderr j (Seat.lookup_other h0 h1 hj).symm
    obtain ⟨answer, hq, hsame⟩ := writeStep_elsewhere hp hwrite hforeign
    have hbeside : (ps.next p.program).Beside (next answer) := by
      rw [hnext]
      exact .write h1 answer
    refine ⟨_, hq, h.went hfits (fun j _ => hsame j) (fun o hw => ?_) rfl id⟩
    exact hw.beside hlife hbeside rfl rfl (.inl hlife)

/-- A process closes its standard input. -/
theorem close_input (h : Seated ps a p m.pipes) (hfits : a.Fits ps denote base p.identity)
    (hlife : p.life = .running) {next : S} (hnext : ps.next p.program = .close 0 next) :
    Went ps a p { p with program := next, descriptors := p.descriptors.filter (·.1 != 0) } m.pipes
      (match p.descriptors.lookup 0 with
        | some channel => m.release p channel
        | none => m).pipes := by
  obtain ⟨o, ho, hw⟩ := h.output
  obtain ⟨-, broken, shut, -, -, hd⟩ := hw.running hlife
  have hshut : ¬ Process.HoldsInput { p with
      program := next, descriptors := p.descriptors.filter (·.1 != 0) } := by
    rintro ⟨c, hc⟩
    have hne := (List.mem_filter.1 hc).2
    simp at hne
  cases shut with
  | true =>
    -- it has been closed before
    have hlookup : p.descriptors.lookup 0 = none := by rw [hd]; rfl
    rw [hlookup]
    exact h.went hfits (fun _ _ _ => rfl) (fun o hw => hw.shut hlife hnext) rfl fun hq =>
      absurd hq hshut
  | false =>
    have hlookup : p.descriptors.lookup 0 = some a.stdin := by rw [hd]; rfl
    rw [hlookup]
    have ho' := (release_ne m p hfits.stdin_ne_output).trans ho
    refine ⟨⟨o, o, ho, ho', .same o, hw.shut hlife hnext⟩, ?_⟩
    intro j hj
    obtain ⟨i, hi, hdraws⟩ := h.input j hj
    have hrelease := release_self (p := p) hi
    rw [if_pos hj, ← (hfits.input j hj).1] at hrelease
    exact ⟨i, _, hi, hrelease, .quits rfl, hdraws.takes (.quits rfl) fun hq => absurd hq hshut⟩

/-- A process lets go of all that it holds. -/
theorem retire_went (h : Seated ps a p m.pipes) (hfits : a.Fits ps denote base p.identity)
    (hp : m.processes[k]? = some p) (hlife : p.life = .running)
    (hend : (ps.next p.program).isEnd = true) {life : Life} (hrunning : life ≠ .running)
    (hsleeping : ∀ time, life ≠ .sleeping time) :
    ∃ q, (m.retire k life).processes[k]? = some q ∧
      Went ps a p q m.pipes (m.retire k life).pipes := by
  obtain ⟨o, ho, hw⟩ := h.output
  obtain ⟨-, broken, shut, -, -, hd⟩ := hw.running hlife
  have hprocesses := (releaseAll_kept (K := (· = k)) (R := fun _ => False) (J := fun _ => True)
    p.descriptors m p fun _ _ _ => trivial).2
  -- the descriptors of a seat are let go of one after another, the input's if it is still open
  have hpipes : (p.descriptors.foldl (fun m d => m.release p d.2) m).pipes =
      (((if shut then m else m.release p a.stdin).release p (.pipe a.output)).release p
        a.stderr).pipes := by
    rw [hd]
    cases shut <;> rfl
  have hstderr : ∀ j, base ≤ j → a.stderr ≠ .pipe j := fun j hj hstderr =>
    absurd (hfits.stderr j hstderr) (Nat.not_lt.2 hj)
  have hnot : p.inputPipe ≠ some a.output := fun hown => (hfits.input _ hown).2.2 rfl
  unfold retire
  rw [hp]
  refine ⟨_, processes_modifyProcess_self ((congrArg (·[k]?) hprocesses).trans hp) _, ?_⟩
  show Went ps a p { p with life, descriptors := [] } m.pipes
    (p.descriptors.foldl (fun m d => m.release p d.2) m).pipes
  rw [hpipes]
  refine ⟨⟨o, o.closeWriter, ho, ?_, .closed o, hw.retired hlife hend hrunning hsleeping⟩, ?_⟩
  · rw [release_ne _ _ (hstderr _ hfits.base_le), release_self (i := o), if_neg hnot]
    cases shut with
    | true => exact ho
    | false => exact (release_ne m p hfits.stdin_ne_output).trans ho
  · intro j hj
    obtain ⟨i, hi, hdraws⟩ := h.input j hj
    obtain ⟨hown, hbase, hne⟩ := hfits.input j hj
    have hleft : ¬ Process.HoldsInput { p with life, descriptors := [] } := by
      rintro ⟨c, hc⟩
      cases hc
    -- the output and the error stream are other pipes than the input
    have hothers : ∀ m' : Machine S,
        ((m'.release p (.pipe a.output)).release p a.stderr).pipes[j]? = m'.pipes[j]? := fun m' =>
      (release_ne _ _ (hstderr j hbase)).trans
        (release_ne _ _ fun hj' => hne (Channel.pipe.inj hj').symm)
    cases shut with
    | true =>
      exact ⟨i, i, hi, (hothers m).trans hi, .keeps rfl,
        hdraws.takes (.keeps rfl) fun hq => absurd hq hleft⟩
    | false =>
      have hrelease := release_self (p := p) hi
      rw [if_pos hj, ← hown] at hrelease
      exact ⟨i, _, hi, (hothers (m.release p a.stdin)).trans hrelease, .quits rfl,
        hdraws.takes (.quits rfl) fun hq => absurd hq hleft⟩

/-- **A step at a seat.** A process that runs a stream program goes on working at its output pipe and
drawing from its input pipe. -/
theorem act_went (h : Seated ps a p m.pipes) (hfits : a.Fits ps denote base p.identity)
    (hp : m.processes[k]? = some p) (hlife : p.life = .running) (hact : act ps m k p = some m₁) :
    ∃ q, m₁.processes[k]? = some q ∧ Went ps a p q m.pipes m₁.pipes := by
  obtain ⟨o, ho, hw⟩ := h.output
  obtain ⟨-, broken, shut, hran, -, hd⟩ := hw.running hlife
  have hstream := hfits.computes.stream hran
  -- the machine may change in what no pipe is part of, the program for what it is told
  have hbeside : ∀ {m' : Machine S} {program : S}, m'.net = m.net →
      (ps.next p.program).Beside program → ∃ q, (m'.goOn k program).processes[k]? = some q ∧
        Went ps a p q m.pipes (m'.goOn k program).pipes := by
    intro m' program hnet hnext
    refine ⟨_, processes_modifyProcess_self ((congrArg (·.processes[k]?) hnet).trans hp) _, ?_⟩
    exact h.went hfits (fun j _ _ => congrArg (·.pipes[j]?) hnet)
      (fun o hw => hw.beside hlife hnext rfl rfl (.inl hlife)) rfl id
  unfold act at hact
  split at hact <;> rename_i hnext <;> rw [hnext] at hstream
  · obtain ⟨rfl, hlimit, rfl⟩ := hstream
    exact read_went h hfits hp hlife hnext hlimit hd hact
  · exact write_went h hfits hp hlife hnext hstream hd hact
  · exact hstream.elim
  · cases hstream
    cases hact
    exact ⟨_, processes_modifyProcess_self (by
      split
      · exact (congrArg (·[k]?) (release_processes m p _)).trans hp
      · exact hp) _, close_input h hfits hlife hnext⟩
  · cases hact
    exact hbeside (giveBack_net m _ _) (hnext ▸ .giveBack)
  · cases hact
    exact hbeside rfl (hnext ▸ .inspect _)
  · cases hact
    exact hbeside rfl (hnext ▸ .look _)
  · cases hact
    exact hbeside rfl (hnext ▸ .identify _)
  · exact hstream.elim
  · cases hact
    exact ⟨_, processes_modifyProcess_self hp _, h.went hfits (fun _ _ _ => rfl)
      (fun o hw => hw.beside hlife (hnext ▸ .sleep) rfl rfl (.inr ⟨_, rfl⟩)) rfl id⟩
  · cases hact
    exact retire_went h hfits hp hlife (hnext ▸ rfl) nofun nofun
  · cases hact
    exact retire_went h hfits hp hlife (hnext ▸ rfl) nofun nofun

theorem stepProcess_went (h : Seated ps a p m.pipes) (hfits : a.Fits ps denote base p.identity)
    (hp : m.processes[k]? = some p) (hstep : stepProcess ps m k = some m₁) :
    ∃ q, m₁.processes[k]? = some q ∧ Went ps a p q m.pipes m₁.pipes := by
  simp only [stepProcess, hp, Bind.bind, Option.bind] at hstep
  split at hstep
  · exact act_went h hfits hp ‹_› hstep
  · rename_i time hlife
    split at hstep
    · cases hstep
      exact ⟨_, processes_modifyProcess_self hp _, h.went hfits (fun _ _ _ => rfl)
        (fun o hw => hw.wake hlife) rfl id⟩
    · cases hstep
  · cases hstep

end Machine

end LineShell.Host
