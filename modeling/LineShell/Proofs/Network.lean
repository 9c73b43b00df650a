import LineShell.Proofs.Linking

namespace LineShell.Host

open Text (Bytes)

/-!
# Processes and relays as a network

What holds of a machine on which pipelines of stream programs run, whoever takes a step.

* `Machine.layout` — who is there and which pipes are whose, which no step changes;
* `Laid` — each pipe has one writer and one reader at most;
* `Sound` — each process of a pipeline sits between its pipes, each relay links two of them, and
  nothing has been lost of what nobody has read or written yet;
* `Sound.stepProcess`, `Sound.stepRelay` — every step of a process or a relay keeps this.

Pipes below `base`, and processes and relays that have no others, were there before.
-/

variable {S : Type}

/-! ### The layout of a machine -/

/-- Who is there, and which pipes are whose. -/
structure Layout where
  processes : Array Identity
  relays : Array Ends
  nextPid : ProcessId
  inherited : Channel × Channel × Channel
  /-- How many pipes there are. -/
  room : Nat

/-- Who is there on a machine, and which pipes are whose. -/
def Machine.layout (m : Machine S) : Layout where
  processes := m.processes.map Process.identity
  relays := m.relays.map RelayTask.ends
  nextPid := m.nextPid
  inherited := m.inherited
  room := m.pipes.size

/-- A relay leads from the output of a process to the input of another one, if anywhere. -/
structure Joins (base : Nat) (l : Layout) (e : Ends) : Prop where
  base_le : base ≤ e.source
  chunk : 1 ≤ e.chunk
  source : ∃ (k : Nat) (who : Identity), l.processes[k]? = some who ∧
    who.outputPipe = some e.source
  sink : ∀ s, e.sink = some s → base ≤ s ∧ ∃ (k : Nat) (who : Identity),
    l.processes[k]? = some who ∧ who.inputPipe = some s ∧ who.outputPipe ≠ some e.source

/-- Each pipe has one writer and one reader at most, and processes are told apart by their
numbers. -/
structure Laid (base : Nat) (l : Layout) : Prop where
  base_le : base ≤ l.room
  inherited : ∀ j, l.inherited.1 = .pipe j ∨ l.inherited.2.2 = .pipe j → j < base
  pid_lt : ∀ {k : Nat} {who : Identity}, l.processes[k]? = some who → who.pid < l.nextPid
  pid_inj : ∀ {k k' : Nat} {who who' : Identity}, l.processes[k]? = some who →
    l.processes[k']? = some who' → who'.pid = who.pid →
    ∀ j, who.outputPipe = some j → base ≤ j → k' = k
  own_lt : ∀ {k : Nat} {who : Identity}, l.processes[k]? = some who →
    ∀ j, who.Owns j → j < l.room
  own_inj : ∀ {k k' : Nat} {who who' : Identity}, l.processes[k]? = some who →
    l.processes[k']? = some who' → ∀ j, base ≤ j → who.Owns j → who'.Owns j → k' = k
  relays : ∀ {n : Nat} {e : Ends}, l.relays[n]? = some e →
    (e.source < base ∧ ∀ s, e.sink = some s → s < base) ∨ Joins base l e
  source_inj : ∀ {n n' : Nat} {e e' : Ends}, l.relays[n]? = some e → l.relays[n']? = some e' →
    base ≤ e.source → e'.source = e.source → n' = n
  sink_inj : ∀ {n n' : Nat} {e e' : Ends}, l.relays[n]? = some e → l.relays[n']? = some e' →
    ∀ s, base ≤ s → e.sink = some s → e'.sink = some s → n' = n

/-- The process has only pipes that were there before. -/
def Process.Foreign (base : Nat) (p : Process S) : Prop :=
  ∀ j, p.identity.Owns j ∨ p.Holds j → j < base

/-- Pipelines of stream programs run on a machine. From pipes that no relay reads, the interpreter
has read `read`. -/
structure Sound (ps : Programs S) (denote : List String → Flow → Flow) (base : Nat)
    (read : Nat → Bytes) (m : Machine S) : Prop where
  laid : Laid base m.layout
  process : ∀ {k : Nat} {p : Process S}, m.processes[k]? = some p →
    p.Foreign base ∨ ∃ a : Seat S, a.Fits ps denote base p.identity ∧ Seated ps a p m.pipes
  link : ∀ {n k k' s : Nat} {r : RelayTask} {p q : Process S} {o i : Pipe},
    m.relays[n]? = some r → base ≤ r.source → r.sink = some s →
    m.processes[k]? = some p → p.outputPipe = some r.source → m.pipes[r.source]? = some o →
    m.processes[k']? = some q → q.inputPipe = some s → m.pipes[s]? = some i →
    Link denote r p q o i
  unfed : ∀ {k j : Nat} {p : Process S} {i : Pipe}, m.processes[k]? = some p →
    p.inputPipe = some j → base ≤ j → m.pipes[j]? = some i →
    (∀ {n : Nat} {e : Ends}, m.layout.relays[n]? = some e → e.sink ≠ some j) →
    i.writerOpen = true ∧ i.received = []
  unread : ∀ {k j : Nat} {p : Process S} {o : Pipe}, m.processes[k]? = some p →
    p.outputPipe = some j → base ≤ j → m.pipes[j]? = some o →
    (∀ {n : Nat} {e : Ends}, m.layout.relays[n]? = some e → e.source ≠ j) →
    o.readerOpen = true ∧ o.received = read j ++ o.buffer

variable {ps : Programs S} {denote : List String → Flow → Flow} {base : Nat} {read : Nat → Bytes}
  {m m₁ : Machine S} {p q : Process S} {r r' : RelayTask} {k n : Nat}

namespace Machine

theorem layout_process (h : m.processes[k]? = some p) :
    m.layout.processes[k]? = some p.identity := by
  simp [layout, h]

theorem layout_relay (h : m.relays[n]? = some r) : m.layout.relays[n]? = some r.ends := by
  simp [layout, h]

theorem of_layout_process {who : Identity} (h : m.layout.processes[k]? = some who) :
    ∃ p, m.processes[k]? = some p ∧ p.identity = who := by
  simpa [layout] using h

theorem of_layout_relay {e : Ends} (h : m.layout.relays[n]? = some e) :
    ∃ r, m.relays[n]? = some r ∧ r.ends = e := by
  simpa [layout] using h

theorem StepOf.layout (hp : m.processes[k]? = some p) (h : StepOf k p m m₁) :
    m₁.layout = m.layout := by
  obtain ⟨hkept, q, hq, hgoes⟩ := h
  have hprocesses : m₁.processes.map Process.identity = m.processes.map Process.identity := by
    refine Array.ext_getElem? fun j => ?_
    by_cases hj : j = k
    · rw [hj]
      simp [hp, hq, hgoes.identity]
    · simp [hkept.process j hj]
  have hrelays : m₁.relays = m.relays := Array.ext_getElem? fun j => hkept.relay j id
  unfold Machine.layout
  rw [hprocesses, hrelays, hkept.nextPid, hkept.inherited, hkept.pipes_size]

theorem RelayOf.layout (hr : m.relays[n]? = some r) (h : RelayOf n r m m₁) :
    m₁.layout = m.layout := by
  obtain ⟨hkept, r', hr', hends⟩ := h
  have hrelays : m₁.relays.map RelayTask.ends = m.relays.map RelayTask.ends := by
    refine Array.ext_getElem? fun j => ?_
    by_cases hj : j = n
    · rw [hj]
      simp [hr, hr', hends]
    · simp [hkept.relay j hj]
  have hprocesses : m₁.processes = m.processes := Array.ext_getElem? fun j => hkept.process j id
  unfold Machine.layout
  rw [hprocesses, hrelays, hkept.nextPid, hkept.inherited, hkept.pipes_size]

end Machine

/-! ### Who is at a seat -/

theorem Went.seated {a : Seat S} {pipes pipes' : Array Pipe} (h : Went ps a p q pipes pipes')
    (hidentity : q.identity = p.identity) : Seated ps a q pipes' := by
  obtain ⟨o, o', -, ho', -, hworks⟩ := h.output
  refine ⟨⟨o', ho', hworks⟩, fun j hj => ?_⟩
  have hj' : p.inputPipe = some j := (congrArg Identity.inputPipe hidentity).symm.trans hj
  obtain ⟨i, i', -, hi', -, hdraws⟩ := h.input j hj'
  exact ⟨i', hi', hdraws⟩

theorem Process.Foreign.goes (h : p.Foreign base) (hgoes : p.Goes q) : q.Foreign base := by
  intro j hj
  rw [hgoes.identity] at hj
  exact h j (hj.imp_right (hgoes.holds j))

/-- All processes have gone on, those at seats between their pipes. -/
def Machine.GoesOn (ps : Programs S) (denote : List String → Flow → Flow) (base : Nat)
    (m m₁ : Machine S) : Prop :=
  ∀ (k : Nat) (q : Process S), m₁.processes[k]? = some q → ∃ p, m.processes[k]? = some p ∧
    p.Goes q ∧ ∀ a : Seat S, a.Fits ps denote base p.identity → Seated ps a p m.pipes →
      Went ps a p q m.pipes m₁.pipes

namespace Sound

variable (h : Sound ps denote base read m)
include h

/-- A process that has a pipe of its own sits at a seat. -/
theorem seat {j : Nat} (hp : m.processes[k]? = some p) (hj : p.identity.Owns j) (hbase : base ≤ j) :
    ∃ a : Seat S, a.Fits ps denote base p.identity ∧ Seated ps a p m.pipes := by
  refine (h.process hp).resolve_left fun hforeign => ?_
  have := hforeign j (.inl hj)
  omega

theorem seat_of_output {j : Nat} (hp : m.processes[k]? = some p) (hj : p.outputPipe = some j)
    (hbase : base ≤ j) : ∃ a : Seat S, a.Fits ps denote base p.identity ∧ a.output = j ∧
      Seated ps a p m.pipes := by
  obtain ⟨a, hfits, hseated⟩ := h.seat hp (.inr hj) hbase
  exact ⟨a, hfits, Option.some.inj (hfits.output.symm.trans hj), hseated⟩

theorem joins (hr : m.relays[n]? = some r) (hbase : base ≤ r.source) :
    Joins base m.layout r.ends := by
  refine (h.laid.relays (Machine.layout_relay hr)).resolve_left fun hlt => ?_
  have hsource : r.source < base := hlt.1
  omega

/-! ### Steps of processes -/

/-- What a process does leaves the pipes of all others alone. -/
theorem pipe_of_other (hp : m.processes[k]? = some p)
    (hkept : Machine.Kept (· = k) (fun _ => False) p.Holds m m₁) {k' j : Nat}
    (hq : m.processes[k']? = some q) (hne : k' ≠ k) (hj : q.identity.Owns j) (hbase : base ≤ j) :
    m₁.pipes[j]? = m.pipes[j]? := by
  -- a process holds no pipes but its own, and each pipe of a pipeline is one process's
  refine hkept.pipe j fun hholds => hne ?_
  have howns : p.identity.Owns j := by
    rcases h.process hp with hforeign | ⟨a, hfits, hseated⟩
    · exact absurd (hforeign j (.inr hholds)) (Nat.not_lt.2 hbase)
    · exact hseated.owns_of_holds hfits hholds hbase
  exact h.laid.own_inj (Machine.layout_process hp) (Machine.layout_process hq) j hbase howns hj

/-- After a step of a process, all have gone on. -/
theorem goesOn (hp : m.processes[k]? = some p) (hstepOf : Machine.StepOf k p m m₁)
    (hwent : ∀ a : Seat S, a.Fits ps denote base p.identity → Seated ps a p m.pipes →
      ∀ q, m₁.processes[k]? = some q → Went ps a p q m.pipes m₁.pipes) :
    Machine.GoesOn ps denote base m m₁ := by
  obtain ⟨hkept, q, hq, hgoes⟩ := hstepOf
  intro k' q' hq'
  by_cases hk : k' = k
  · subst hk
    cases hq.symm.trans hq'
    exact ⟨p, hp, hgoes, fun a hfits hseated => hwent a hfits hseated q hq⟩
  · have hold := (hkept.process k' hk).symm.trans hq'
    exact ⟨q', hold, Machine.goes_refl q', fun a hfits hseated =>
      hseated.went hfits (fun _ => h.pipe_of_other hp hkept hold hk) (fun _ hw => hw) rfl id⟩

section

variable (hgoesOn : Machine.GoesOn ps denote base m m₁) {j : Nat} (hq : m₁.processes[k]? = some q)

include hgoesOn hq

theorem output_of_goesOn {o₁ : Pipe} (hj : q.outputPipe = some j) (hbase : base ≤ j)
    (ho₁ : m₁.pipes[j]? = some o₁) : ∃ p o, m.processes[k]? = some p ∧ p.outputPipe = some j ∧
      m.pipes[j]? = some o ∧ p.Goes q ∧ o.Fed o₁ := by
  obtain ⟨p, hp, hgoes, hwent⟩ := hgoesOn _ _ hq
  have hj' := (congrArg Identity.outputPipe hgoes.identity).symm.trans hj
  obtain ⟨a, hfits, rfl, hseated⟩ := h.seat_of_output hp hj' hbase
  obtain ⟨o, o', ho, ho', hfed, -⟩ := (hwent a hfits hseated).output
  cases ho'.symm.trans ho₁
  exact ⟨p, o, hp, hj', ho, hgoes, hfed⟩

theorem input_of_goesOn {i₁ : Pipe} (hj : q.inputPipe = some j) (hbase : base ≤ j)
    (hi₁ : m₁.pipes[j]? = some i₁) : ∃ p i, m.processes[k]? = some p ∧ p.inputPipe = some j ∧
      m.pipes[j]? = some i ∧ Takes p i q i₁ := by
  obtain ⟨p, hp, hgoes, hwent⟩ := hgoesOn _ _ hq
  have hj' : p.inputPipe = some j := (congrArg Identity.inputPipe hgoes.identity).symm.trans hj
  obtain ⟨a, hfits, hseated⟩ := h.seat hp (.inl hj') hbase
  obtain ⟨i, i', hi, hi', htakes, -⟩ := (hwent a hfits hseated).input j hj'
  cases hi'.symm.trans hi₁
  exact ⟨p, i, hp, hj', hi, htakes⟩

end

/-- All have gone on, and nothing has happened to relays. -/
theorem of_goesOn (hp : m.processes[k]? = some p) (hstepOf : Machine.StepOf k p m m₁)
    (hgoesOn : Machine.GoesOn ps denote base m m₁) : Sound ps denote base read m₁ := by
  have hlayout := hstepOf.layout hp
  have hrelay : ∀ n, m₁.relays[n]? = m.relays[n]? := fun n => hstepOf.1.relay n id
  constructor
  · rw [hlayout]
    exact h.laid
  · intro k' q hq
    obtain ⟨p, hp, hgoes, hwent⟩ := hgoesOn _ _ hq
    rcases h.process hp with hforeign | ⟨a, hfits, hseated⟩
    · exact .inl (hforeign.goes hgoes)
    · refine .inr ⟨a, ?_, (hwent a hfits hseated).seated hgoes.identity⟩
      rw [hgoes.identity]
      exact hfits
  · -- a link lasts while the processes at its ends go on
    intro n k₁ k₂ s r p₁ q₁ o₁ i₁ hr hbase hs hp₁ hout ho₁ hq₁ hin hi₁
    rw [hrelay] at hr
    obtain ⟨p, o, hp, hout', ho, hgoes, hfed⟩ := h.output_of_goesOn hgoesOn hp₁ hout hbase ho₁
    obtain ⟨q, i, hq, hin', hi, htakes⟩ :=
      h.input_of_goesOn hgoesOn hq₁ hin ((h.joins hr hbase).sink s hs).1 hi₁
    exact ((h.link hr hbase hs hp hout' ho hq hin' hi).source hgoes hfed).sink htakes
  · -- who reads from a pipe adds nothing to it, and who writes to one takes nothing from it
    intro k' j q i₁ hq hj hbase hi₁ hnone
    rw [hlayout] at hnone
    obtain ⟨p, i, hp, hj', hi, htakes⟩ := h.input_of_goesOn hgoesOn hq hj hbase hi₁
    obtain ⟨hopen, hempty⟩ := h.unfed hp hj' hbase hi hnone
    exact ⟨htakes.drawn.writerOpen.trans hopen, htakes.drawn.received.trans hempty⟩
  · intro k' j q o₁ hq hj hbase ho₁ hnone
    rw [hlayout] at hnone
    obtain ⟨p, o, hp, hj', ho, -, hfed⟩ := h.output_of_goesOn hgoesOn hq hj hbase ho₁
    obtain ⟨hopen, hread⟩ := h.unread hp hj' hbase ho hnone
    exact ⟨hfed.readerOpen.trans hopen, hfed.buffered hread⟩

/-- **A step of a process.** -/
theorem stepProcess (hquiet : ∀ s pid number next, ps.next s ≠ .signal pid number next)
    (hstep : Machine.stepProcess ps m k = some m₁) : Sound ps denote base read m₁ := by
  obtain ⟨p, hp, hstepOf⟩ := Machine.stepProcess_stepOf hquiet hstep
  refine h.of_goesOn hp hstepOf (h.goesOn hp hstepOf fun a hfits hseated q hq => ?_)
  obtain ⟨q', hq', hwent⟩ := Machine.stepProcess_went hseated hfits hp hstep
  cases hq.symm.trans hq'
  exact hwent

/-- A process becomes what it may become by an action that concerns neither its standard input nor its
standard output. -/
theorem beside (hp : m.processes[k]? = some p) (hlife : p.life = .running) {program : S}
    (hnext : (ps.next p.program).Beside program) : Sound ps denote base read (m.goOn k program) := by
  have hstepOf : Machine.StepOf k p m (m.goOn k program) := .of_net rfl hp (Machine.goes_goOn p program)
  refine h.of_goesOn hp hstepOf (h.goesOn hp hstepOf fun a hfits hseated q hq => ?_)
  have hself : (m.goOn k program).processes[k]? = some { p with program } :=
    Machine.processes_modifyProcess_self hp _
  cases hq.symm.trans hself
  exact hseated.went hfits (fun _ _ _ => rfl)
    (fun o hw => hw.beside hlife hnext rfl rfl (.inl hlife)) rfl id

/-! ### Steps of relays -/

omit h in
/-- What changes but processes, relays and pipes that were there before changes nothing. -/
theorem elsewhere (h : Sound ps denote base read m) (hlayout : m₁.layout = m.layout)
    (hprocess : ∀ {k : Nat} {q : Process S}, m₁.processes[k]? = some q →
      q.Foreign base ∨ m.processes[k]? = some q)
    (hrelay : ∀ {n : Nat} {r : RelayTask}, m₁.relays[n]? = some r → base ≤ r.source →
      m.relays[n]? = some r)
    (hpipe : ∀ j, base ≤ j → m₁.pipes[j]? = m.pipes[j]?) : Sound ps denote base read m₁ := by
  have hown : ∀ {k j : Nat} {q : Process S}, m₁.processes[k]? = some q → q.identity.Owns j →
      base ≤ j → m.processes[k]? = some q := by
    intro k j q hq hj hbase
    refine (hprocess hq).resolve_left fun hforeign => ?_
    have := hforeign j (.inl hj)
    omega
  constructor
  · rw [hlayout]
    exact h.laid
  · intro k q hq
    rcases hprocess hq with hforeign | hq'
    · exact .inl hforeign
    · refine (h.process hq').imp_right fun ⟨a, hfits, hseated⟩ => ⟨a, hfits, ?_⟩
      exact (hseated.went hfits (fun j _ => hpipe j) (fun _ hw => hw) rfl id).seated rfl
  · intro n k₁ k₂ s r p₁ q₁ o₁ i₁ hr hbase hs hp₁ hout ho₁ hq₁ hin hi₁
    have hr' := hrelay hr hbase
    have hsbase : base ≤ s := ((h.joins hr' hbase).sink s hs).1
    rw [hpipe _ hbase] at ho₁
    rw [hpipe _ hsbase] at hi₁
    exact h.link hr' hbase hs (hown hp₁ (.inr hout) hbase) hout ho₁ (hown hq₁ (.inl hin) hsbase)
      hin hi₁
  · intro k j p₁ i₁ hp₁ hj hbase hi₁ hnone
    rw [hlayout] at hnone
    rw [hpipe j hbase] at hi₁
    exact h.unfed (hown hp₁ (.inl hj) hbase) hj hbase hi₁ hnone
  · intro k j p₁ o₁ hp₁ hj hbase ho₁ hnone
    rw [hlayout] at hnone
    rw [hpipe j hbase] at ho₁
    exact h.unread (hown hp₁ (.inr hj) hbase) hj hbase ho₁ hnone

/-- No pipe is the input of one process and the output of another one. -/
theorem input_ne_output {k' s j : Nat} (hp : m.processes[k]? = some p) (hs : p.inputPipe = some s)
    (hbase : base ≤ s) (hq : m.processes[k']? = some q) (hj : q.outputPipe = some j) : s ≠ j := by
  rintro rfl
  have hk := h.laid.own_inj (Machine.layout_process hp) (Machine.layout_process hq) s hbase
    (.inl hs) (.inr hj)
  rw [hk] at hq
  cases hp.symm.trans hq
  obtain ⟨a, hfits, ha, -⟩ := h.seat_of_output hp hj hbase
  exact (hfits.input s hs).2.2 ha.symm

/-- What a relay of a pipeline leads from, and to. -/
theorem relay_source (hr : m.relays[n]? = some r) (hbase : base ≤ r.source) :
    ∃ (k : Nat) (p : Process S) (a : Seat S) (o : Pipe), m.processes[k]? = some p ∧
      p.outputPipe = some r.source ∧ a.Fits ps denote base p.identity ∧
      m.pipes[r.source]? = some o ∧ Works ps a p o := by
  obtain ⟨k, who, hwho, hout⟩ := (h.joins hr hbase).source
  obtain ⟨p, hp, rfl⟩ := Machine.of_layout_process hwho
  obtain ⟨a, hfits, ha, hseated⟩ := h.seat_of_output hp hout hbase
  obtain ⟨o, ho, hworks⟩ := hseated.output
  rw [ha] at ho
  exact ⟨k, p, a, o, hp, hout, hfits, ho, hworks⟩

theorem relay_sink (hr : m.relays[n]? = some r) (hbase : base ≤ r.source) {s : Nat}
    (hs : r.sink = some s) : base ≤ s ∧ ∃ (k : Nat) (q : Process S) (i : Pipe),
      m.processes[k]? = some q ∧ q.inputPipe = some s ∧ m.pipes[s]? = some i ∧ Draws q i := by
  obtain ⟨hsbase, k, who, hwho, hin, -⟩ := (h.joins hr hbase).sink s hs
  obtain ⟨q, hq, rfl⟩ := Machine.of_layout_process hwho
  obtain ⟨a, -, hseated⟩ := h.seat hq (.inl hin) hsbase
  obtain ⟨i, hi, hdraws⟩ := hseated.input s hin
  exact ⟨hsbase, k, q, i, hq, hin, hi, hdraws⟩

/-- A relay of a pipeline takes a turn between any two processes that it links. -/
theorem turned (hr : m.relays[n]? = some r) (hbase : base ≤ r.source) {s k' : Nat}
    (hs : r.sink = some s) {o i : Pipe} (hp : m.processes[k]? = some p)
    (hout : p.outputPipe = some r.source) (ho : m.pipes[r.source]? = some o)
    (hq : m.processes[k']? = some q) (hin : q.inputPipe = some s) (hi : m.pipes[s]? = some i)
    (hstep : m.stepRelay n = some m₁) : Machine.Turned denote n r s p q o i m₁ := by
  have hsbase := (h.relay_sink hr hbase hs).1
  obtain ⟨a, hfits, ha, hseated⟩ := h.seat_of_output hp hout hbase
  obtain ⟨o', ho', hworks⟩ := hseated.output
  rw [ha] at ho'
  cases ho.symm.trans ho'
  obtain ⟨b, -, hseated'⟩ := h.seat hq (.inl hin) hsbase
  obtain ⟨i', hi', hdraws⟩ := hseated'.input s hin
  cases hi.symm.trans hi'
  exact Machine.stepRelay_turned hr hs (h.input_ne_output hq hin hsbase hp hout)
    (h.joins hr hbase).chunk ho hi hworks.ending hdraws.quota (h.link hr hbase hs hp hout ho hq hin hi)
    (hworks.complete hfits) hstep

/-- What a step of a relay of a pipeline does to its pipes. -/
theorem relay_pipes (hr : m.relays[n]? = some r) (hbase : base ≤ r.source)
    (hstep : m.stepRelay n = some m₁) :
    (∃ o o₁, m.pipes[r.source]? = some o ∧ m₁.pipes[r.source]? = some o₁ ∧ o.Drawn o₁) ∧
      ∀ s, r.sink = some s →
        ∃ i i₁, m.pipes[s]? = some i ∧ m₁.pipes[s]? = some i₁ ∧ i.Fed i₁ := by
  obtain ⟨k, p, a, o, hp, hout, -, ho, -⟩ := h.relay_source hr hbase
  cases hs : r.sink with
  | none =>
    obtain ⟨o₁, ho₁, hdrawn⟩ := Machine.stepRelay_source hr hs ho hstep
    exact ⟨⟨o, o₁, ho, ho₁, hdrawn⟩, nofun⟩
  | some s =>
    obtain ⟨-, k', q, i, hq, hin, hi, -⟩ := h.relay_sink hr hbase hs
    obtain ⟨r₁, o₁, i₁, -, ho₁, hi₁, hdrawn, hfed, -⟩ :=
      h.turned hr hbase hs hp hout ho hq hin hi hstep
    refine ⟨⟨o, o₁, ho, ho₁, hdrawn⟩, ?_⟩
    rintro _ ⟨⟩
    exact ⟨i, i₁, hi, hi₁, hfed⟩

section

variable (hr : m.relays[n]? = some r) (hrelayOf : Machine.RelayOf n r m m₁)

include hr hrelayOf

omit h in
/-- The relay itself is the one that has changed. -/
theorem relay_of_relayOf {n' : Nat} {r₁ : RelayTask} (hr₁ : m₁.relays[n']? = some r₁) :
    n' = n ∧ r₁.ends = r.ends ∨ n' ≠ n ∧ m.relays[n']? = some r₁ := by
  obtain ⟨hkept, r', hr', hends⟩ := hrelayOf
  by_cases hn : n' = n
  · subst hn
    cases hr'.symm.trans hr₁
    exact .inl ⟨rfl, hends⟩
  · exact .inr ⟨hn, (hkept.relay n' hn).symm.trans hr₁⟩

/-- A relay goes on that was there before, and so were its pipes. -/
theorem of_earlier_relay (hlt : r.source < base) (hslt : ∀ s, r.sink = some s → s < base) :
    Sound ps denote base read m₁ := by
  have hprocess : ∀ k, m₁.processes[k]? = m.processes[k]? := fun k => hrelayOf.1.process k id
  refine h.elsewhere (hrelayOf.layout hr) (fun {k q} hq => .inr (by rwa [hprocess] at hq)) ?_
    fun j hj => ?_
  · intro n' r₁ hr₁ hbase
    rcases relay_of_relayOf hr hrelayOf hr₁ with ⟨-, hends⟩ | ⟨-, hold⟩
    · have hsource : r₁.source = r.source := congrArg Ends.source hends
      omega
    · exact hold
  · refine hrelayOf.1.pipe j ?_
    rintro (rfl | hs)
    · exact absurd hlt (Nat.not_lt.2 hj)
    · exact absurd (hslt j hs) (Nat.not_lt.2 hj)

variable (hbase : base ≤ r.source) {j : Nat} (hp : m.processes[k]? = some p)

include hbase hp

/-- An input pipe is no source of a relay of a pipeline. -/
theorem input_of_relayOf (hj : p.inputPipe = some j) (hjbase : base ≤ j)
    (hs : r.sink ≠ some j) : m₁.pipes[j]? = m.pipes[j]? := by
  obtain ⟨k₀, p₀, -, -, hp₀, hout₀, -⟩ := h.relay_source hr hbase
  refine hrelayOf.1.pipe j ?_
  rintro (hj' | hs')
  · exact h.input_ne_output hp hj hjbase hp₀ hout₀ hj'
  · exact hs hs'

/-- An output pipe is no sink of it. -/
theorem output_of_relayOf (hj : p.outputPipe = some j) (hne : j ≠ r.source) :
    m₁.pipes[j]? = m.pipes[j]? := by
  refine hrelayOf.1.pipe j ?_
  rintro (hj' | hs)
  · exact hne hj'
  · obtain ⟨hsbase, k', q, -, hq, hin, -⟩ := h.relay_sink hr hbase hs
    exact h.input_ne_output hq hin hsbase hp hj rfl

/-- Whoever sits at a seat sits there when a relay has gone on. -/
theorem seated_of_relayOf (hstep : m.stepRelay n = some m₁) {a : Seat S}
    (hfits : a.Fits ps denote base p.identity) (hseated : Seated ps a p m.pipes) :
    Seated ps a p m₁.pipes := by
  obtain ⟨⟨o, o₁, ho, ho₁, hdrawn⟩, hsink⟩ := h.relay_pipes hr hbase hstep
  refine ⟨?_, fun j hj => ?_⟩
  · obtain ⟨o', ho', hworks⟩ := hseated.output
    by_cases hne : a.output = r.source
    · rw [hne] at ho' ⊢
      cases ho.symm.trans ho'
      exact ⟨o₁, ho₁, hworks.drawn hdrawn⟩
    · exact ⟨o', (h.output_of_relayOf hr hrelayOf hbase hp hfits.output hne).trans ho', hworks⟩
  · obtain ⟨i', hi', hdraws⟩ := hseated.input j hj
    by_cases hs : r.sink = some j
    · obtain ⟨i, i₁, hi, hi₁, hfed⟩ := hsink j hs
      cases hi.symm.trans hi'
      exact ⟨i₁, hi₁, hdraws.fed hfed⟩
    · have hsame := h.input_of_relayOf hr hrelayOf hbase hp hj (hfits.input j hj).2.1 hs
      exact ⟨i', hsame.trans hi', hdraws⟩

end

/-- **A step of a relay.** -/
theorem stepRelay (hstep : m.stepRelay n = some m₁) : Sound ps denote base read m₁ := by
  obtain ⟨r, hr, -, hrelayOf⟩ := Machine.stepRelay_relayOf hstep
  have hlayout := hrelayOf.layout hr
  have hprocess : ∀ k, m₁.processes[k]? = m.processes[k]? := fun k => hrelayOf.1.process k id
  rcases h.laid.relays (Machine.layout_relay hr) with ⟨hlt, hslt⟩ | hjoins
  · exact h.of_earlier_relay hr hrelayOf hlt hslt
  have hbase : base ≤ r.source := hjoins.base_le
  constructor
  · rw [hlayout]
    exact h.laid
  · intro k p hp
    rw [hprocess] at hp
    exact (h.process hp).imp_right fun ⟨a, hfits, hseated⟩ =>
      ⟨a, hfits, h.seated_of_relayOf hr hrelayOf hbase hp hstep hfits hseated⟩
  · intro n₁ k₁ k₂ s r₁ p q o₁ i₁ hr₁ hbase₁ hs hp hout ho₁ hq hin hi₁
    rw [hprocess] at hp hq
    rcases relay_of_relayOf hr hrelayOf hr₁ with ⟨rfl, hends⟩ | ⟨hn, hold⟩
    · -- the relay itself takes its turn
      have hsource : r₁.source = r.source := congrArg Ends.source hends
      have hs' : r.sink = some s := (congrArg Ends.sink hends).symm.trans hs
      rw [hsource] at hout ho₁
      obtain ⟨⟨o, -, ho, -⟩, hsink⟩ := h.relay_pipes hr hbase hstep
      obtain ⟨i, -, hi, -⟩ := hsink s hs'
      obtain ⟨r₂, o₂, i₂, hr₂, ho₂, hi₂, -, -, hlink⟩ :=
        h.turned hr hbase hs' hp hout ho hq hin hi hstep
      cases hr₁.symm.trans hr₂
      cases ho₁.symm.trans ho₂
      cases hi₁.symm.trans hi₂
      exact hlink
    · -- any other one has other pipes
      have hne : r₁.source ≠ r.source := fun heq =>
        hn (h.laid.source_inj (Machine.layout_relay hr) (Machine.layout_relay hold) hbase heq)
      have hsbase := (h.relay_sink hold hbase₁ hs).1
      have hsne : r.sink ≠ some s := fun heq =>
        hn (h.laid.sink_inj (Machine.layout_relay hr) (Machine.layout_relay hold) s hsbase heq hs)
      rw [h.output_of_relayOf hr hrelayOf hbase hp hout hne] at ho₁
      rw [h.input_of_relayOf hr hrelayOf hbase hq hin hsbase hsne] at hi₁
      exact h.link hold hbase₁ hs hp hout ho₁ hq hin hi₁
  · intro k j p i hp hj hjbase hi hnone
    rw [hprocess] at hp
    rw [hlayout] at hnone
    rw [h.input_of_relayOf hr hrelayOf hbase hp hj hjbase (hnone (Machine.layout_relay hr))] at hi
    exact h.unfed hp hj hjbase hi hnone
  · intro k j p o hp hj hjbase ho hnone
    rw [hprocess] at hp
    rw [hlayout] at hnone
    rw [h.output_of_relayOf hr hrelayOf hbase hp hj
      (Ne.symm (hnone (Machine.layout_relay hr)))] at ho
    exact h.unread hp hj hjbase ho hnone

end Sound

end LineShell.Host
