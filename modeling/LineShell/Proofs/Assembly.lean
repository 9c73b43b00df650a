import LineShell.Host.Answer
import LineShell.Proofs.Network

namespace LineShell.Host

open Text (Bytes)

/-!
# Putting pipelines together

What the interpreter does to a machine on which pipelines run keeps it `Sound`.

* `Sound.spawned` — it starts a process with an output pipe;
* `Sound.joined` — it starts a relay where nobody reads or writes yet;
* `Sound.drawn` — it reads from a pipe that no relay reads.
-/

variable {S : Type} {ps : Programs S} {denote : List String → Flow → Flow} {base : Nat}
  {read : Nat → Bytes} {m m₁ : Machine S} {p : Process S}

/-! ### Layouts that grow -/

theorem Joins.mono {l l₁ : Layout} {e : Ends} (h : Joins base l e)
    (hprocesses : ∀ (k : Nat) (who : Identity), l.processes[k]? = some who →
      l₁.processes[k]? = some who) : Joins base l₁ e := by
  obtain ⟨hbase, hchunk, ⟨k, who, hwho, hout⟩, hsink⟩ := h
  refine ⟨hbase, hchunk, ⟨k, who, hprocesses k who hwho, hout⟩, fun s hs => ?_⟩
  obtain ⟨hsbase, k', who', hwho', hin⟩ := hsink s hs
  exact ⟨hsbase, k', who', hprocesses k' who' hwho', hin⟩

/-- What is at a place of an array with one more entry. -/
theorem getElem?_push_cases {α : Type} {xs : Array α} {x y : α} {i : Nat}
    (h : (xs.push x)[i]? = some y) : xs[i]? = some y ∨ i = xs.size ∧ y = x := by
  rw [Array.getElem?_push] at h
  split at h
  · exact .inr ⟨‹_›, (Option.some.inj h).symm⟩
  · exact .inl h

theorem getElem?_push_of_some {α : Type} {xs : Array α} {y : α} {i : Nat} (x : α)
    (h : xs[i]? = some y) : (xs.push x)[i]? = some y := by
  obtain ⟨hi, -⟩ := Array.getElem?_eq_some_iff.1 h
  rw [Array.getElem?_push, if_neg (Nat.ne_of_lt hi), h]

namespace Laid

variable {l : Layout}

/-- One process more, with pipes of its own. -/
theorem push (h : Laid base l) {who : Identity} {room : Nat} (hpid : who.pid = l.nextPid)
    (hown : ∀ j, who.Owns j → l.room ≤ j ∧ j < room) (hroom : l.room ≤ room) :
    Laid base { l with
      processes := l.processes.push who, nextPid := l.nextPid + 1, room } where
  base_le := Nat.le_trans h.base_le hroom
  inherited := h.inherited
  pid_lt {k who'} hwho' := by
    show who'.pid < l.nextPid + 1
    rcases getElem?_push_cases hwho' with hold | ⟨-, rfl⟩
    · exact Int.lt_trans (h.pid_lt hold) (Int.lt_succ _)
    · rw [hpid]
      exact Int.lt_succ _
  -- the number of the newcomer is above those of all others
  pid_inj {k k' w w'} hw hw' heq j hj hbase := by
    rcases getElem?_push_cases hw with hold | ⟨rfl, rfl⟩ <;>
      rcases getElem?_push_cases hw' with hold' | ⟨rfl, rfl⟩
    · exact h.pid_inj hold hold' heq j hj hbase
    · have hlt := h.pid_lt hold
      rw [← heq, hpid] at hlt
      exact absurd hlt (Int.lt_irrefl _)
    · have hlt := h.pid_lt hold'
      rw [heq, hpid] at hlt
      exact absurd hlt (Int.lt_irrefl _)
    · rfl
  own_lt {k w} hw j hj := by
    rcases getElem?_push_cases hw with hold | ⟨-, rfl⟩
    · exact Nat.lt_of_lt_of_le (h.own_lt hold j hj) hroom
    · exact (hown j hj).2
  -- and so are its pipes
  own_inj {k k' w w'} hw hw' j hbase hj hj' := by
    rcases getElem?_push_cases hw with hold | ⟨rfl, rfl⟩ <;>
      rcases getElem?_push_cases hw' with hold' | ⟨rfl, rfl⟩
    · exact h.own_inj hold hold' j hbase hj hj'
    · exact absurd (h.own_lt hold j hj) (Nat.not_lt.2 (hown j hj').1)
    · exact absurd (h.own_lt hold' j hj') (Nat.not_lt.2 (hown j hj).1)
    · rfl
  relays {n e} he := (h.relays he).imp_right fun hjoins =>
    hjoins.mono fun k w hw => getElem?_push_of_some who hw
  source_inj he he' := h.source_inj he he'
  sink_inj he he' := h.sink_inj he he'

/-- One relay more, between pipes that no relay has. -/
theorem join (h : Laid base l) {e : Ends} (hjoins : Joins base l e)
    (hsource : ∀ {n : Nat} {e' : Ends}, l.relays[n]? = some e' → e'.source ≠ e.source)
    (hsink : ∀ s, e.sink = some s → ∀ {n : Nat} {e' : Ends}, l.relays[n]? = some e' →
      e'.sink ≠ some s) : Laid base { l with relays := l.relays.push e } where
  base_le := h.base_le
  inherited := h.inherited
  pid_lt := h.pid_lt
  pid_inj := h.pid_inj
  own_lt := h.own_lt
  own_inj := h.own_inj
  relays {n e'} he' := by
    rcases getElem?_push_cases he' with hold | ⟨-, rfl⟩
    · exact (h.relays hold).imp_right fun hj => hj.mono fun _ _ hw => hw
    · exact .inr (hjoins.mono fun _ _ hw => hw)
  source_inj {n n' a a'} ha ha' hbase heq := by
    rcases getElem?_push_cases ha with hold | ⟨rfl, rfl⟩ <;>
      rcases getElem?_push_cases ha' with hold' | ⟨rfl, rfl⟩
    · exact h.source_inj hold hold' hbase heq
    · exact absurd heq.symm (hsource hold)
    · exact absurd heq (hsource hold')
    · rfl
  sink_inj {n n' a a'} ha ha' s hbase hs hs' := by
    rcases getElem?_push_cases ha with hold | ⟨rfl, rfl⟩ <;>
      rcases getElem?_push_cases ha' with hold' | ⟨rfl, rfl⟩
    · exact h.sink_inj hold hold' s hbase hs hs'
    · exact absurd hs (hsink s hs' hold)
    · exact absurd hs' (hsink s hs hold')
    · rfl

end Laid

/-! ### Starting a process -/

/-- A process has been started with an output pipe, and with an input pipe if that is asked for. -/
structure Spawned (m : Machine S) (argv : List String) (streams : Streams) (launch : Launch S)
    (a : Seat S) (p : Process S) (m₁ : Machine S) : Prop where
  processes : m₁.processes = m.processes.push p
  relays : m₁.relays = m.relays
  nextPid : m₁.nextPid = m.nextPid + 1
  inherited : m₁.inherited = m.inherited
  pipes_size : m₁.pipes.size = a.output + 1
  pipes : ∀ j, j < m.pipes.size → m₁.pipes[j]? = m.pipes[j]?
  pid : p.pid = m.nextPid
  argv_eq : p.argv = argv
  streams_eq : p.streams = streams
  outputPipe : p.outputPipe = some a.output
  output : m₁.pipes[a.output]? = some launch.output
  input : (streams.stdin = .pipe ∧ p.inputPipe = some m.pipes.size ∧
      a.stdin = .pipe m.pipes.size ∧ a.output = m.pipes.size + 1 ∧
      m₁.pipes[m.pipes.size]? = some launch.input) ∨
    (streams.stdin ≠ .pipe ∧ p.inputPipe = none ∧ a.output = m.pipes.size ∧
      ∀ j, a.stdin = .pipe j → m.inherited.1 = .pipe j)
  null : streams.stdin = .null → a.stdin = .nothing
  stderr : ∀ j, a.stderr = .pipe j → m.inherited.2.2 = .pipe j
  start : a.start = launch.program
  program : p.program = launch.program
  descriptors : p.descriptors = a.descriptors false
  intake : p.intake = []
  life : p.life = .running

theorem Machine.channel_pipe {s : Stream} {c : Channel} {j : Nat}
    (h : m.channel s c none = .pipe j) : c = .pipe j := by
  unfold channel at h
  split at h
  · cases ‹none = some _›
  · split at h <;> cases h
  · exact h
  · cases h

/-- A process that is about to run. -/
def Machine.newcomer (m : Machine S) (argv : List String) (cwd : Path) (streams : Streams)
    (launch : Launch S) (inputPipe outputPipe : Option Nat) : Process S where
  pid := m.nextPid
  argv
  cwd
  streams
  program := launch.program
  inputPipe
  outputPipe
  descriptors := [(0, m.channel streams.stdin m.inherited.1 inputPipe),
    (1, m.channel streams.stdout m.inherited.2.1 outputPipe),
    (2, m.channel streams.stderr m.inherited.2.2 none)]
  manner := launch.manner
  interruptsWait := launch.interruptsWait
  status := launch.status

section

variable (m) (argv : List String) (cwd : Path) (launch : Launch S) (stderr : Stream)

theorem Machine.addProcess_piped : m.addProcess argv cwd ⟨.pipe, .pipe, stderr⟩ launch =
    (m.nextPid, { m with
      nextPid := m.nextPid + 1
      pipes := (m.pipes.push launch.input).push launch.output
      processes := m.processes.push (m.newcomer argv cwd ⟨.pipe, .pipe, stderr⟩ launch
        (some m.pipes.size) (some (m.pipes.push launch.input).size)) }) := rfl

theorem Machine.addProcess_unpiped {stdin : Stream} (h : stdin ≠ .pipe) :
    m.addProcess argv cwd ⟨stdin, .pipe, stderr⟩ launch =
      (m.nextPid, { m with
        nextPid := m.nextPid + 1
        pipes := m.pipes.push launch.output
        processes := m.processes.push (m.newcomer argv cwd ⟨stdin, .pipe, stderr⟩ launch
          none (some m.pipes.size)) }) := by
  cases stdin with
  | pipe => exact absurd rfl h
  | _ => rfl

end

theorem Machine.addProcess_spawned (m : Machine S) (argv : List String) (cwd : Path)
    {streams : Streams} (launch : Launch S) (hout : streams.stdout = .pipe) :
    (m.addProcess argv cwd streams launch).1 = m.nextPid ∧
      ∃ a p, Spawned m argv streams launch a p (m.addProcess argv cwd streams launch).2 := by
  obtain ⟨stdin, stdout, stderr⟩ := streams
  cases hout
  have hpush : ∀ (xs : Array Pipe) (x : Pipe) (j : Nat), j < xs.size →
      (xs.push x)[j]? = xs[j]? := fun xs x j hj => by
    rw [Array.getElem?_push, if_neg (Nat.ne_of_lt hj)]
  by_cases hin : stdin = .pipe
  · -- the input pipe is made first, so the output pipe is the one behind it
    subst hin
    rw [addProcess_piped]
    have hinput : ((m.pipes.push launch.input).push launch.output)[m.pipes.size]? =
        some launch.input := by
      rw [Array.getElem?_push, if_neg (by simp), Array.getElem?_push, if_pos rfl]
    refine ⟨rfl, ⟨launch.program, .pipe m.pipes.size, m.channel stderr m.inherited.2.2 none,
      m.pipes.size + 1⟩, _, rfl, rfl, rfl, rfl, by simp, fun j hj => ?_, rfl, rfl, rfl, by
      simp [newcomer], by rw [Array.getElem?_push, if_pos (by simp)], .inl ⟨rfl, rfl, rfl, rfl,
      hinput⟩, nofun,
      fun j hj => channel_pipe hj, rfl, rfl, ?_, rfl, rfl⟩
    · exact (hpush _ _ j (by simp; omega)).trans (hpush _ _ j hj)
    · simp [newcomer, Seat.descriptors, channel]
  · rw [addProcess_unpiped _ _ _ _ _ hin]
    refine ⟨rfl, ⟨launch.program, m.channel stdin m.inherited.1 none,
      m.channel stderr m.inherited.2.2 none, m.pipes.size⟩, _, rfl, rfl, rfl, rfl, by simp,
      fun j hj => hpush _ _ j hj, rfl, rfl, rfl, rfl, by simp,
      .inr ⟨hin, rfl, rfl, fun j hj => channel_pipe hj⟩, ?_, fun j hj => channel_pipe hj, rfl, rfl,
      rfl, rfl, rfl⟩
    rintro ⟨⟩
    rfl

namespace Spawned

variable {argv : List String} {streams : Streams} {launch : Launch S} {a : Seat S}

theorem owns_cases (h : Spawned m argv streams launch a p m₁) {j : Nat} (hj : p.identity.Owns j) :
    m.pipes.size ≤ j ∧ j < m₁.pipes.size := by
  rw [h.pipes_size]
  have houtput : m.pipes.size ≤ a.output := by
    rcases h.input with ⟨-, -, -, ha, -⟩ | ⟨-, -, ha, -⟩ <;> omega
  rcases hj with hin | hout
  · rcases h.input with ⟨-, hown, -, ha, -⟩ | ⟨-, hnone, -⟩
    · cases hown.symm.trans hin
      omega
    · cases hnone.symm.trans hin
  · cases h.outputPipe.symm.trans hout
    omega

theorem process_cases (h : Spawned m argv streams launch a p m₁) {k : Nat}
    (hq : m₁.processes[k]? = some q) : m.processes[k]? = some q ∨ q = p := by
  rw [h.processes] at hq
  exact (getElem?_push_cases hq).imp_right And.right

/-- Whoever has a pipe that was there before was there before. -/
theorem process_of_owns (h : Spawned m argv streams launch a p m₁) {k j : Nat}
    (hq : m₁.processes[k]? = some q) (hj : q.identity.Owns j) (hlt : j < m.pipes.size) :
    m.processes[k]? = some q := by
  refine (h.process_cases hq).resolve_right ?_
  rintro rfl
  exact absurd (h.owns_cases hj).1 (Nat.not_le.2 hlt)

/-- Whoever was there before has the pipes that he had. -/
theorem pipe_of_owns (h : Spawned m argv streams launch a p m₁) (hlaid : Laid base m.layout)
    {k j : Nat} (hq : m.processes[k]? = some q) (hj : q.identity.Owns j) :
    j < m.pipes.size ∧ m₁.pipes[j]? = m.pipes[j]? := by
  have hlt := hlaid.own_lt (Machine.layout_process hq) j hj
  exact ⟨hlt, h.pipes j hlt⟩

theorem layout (h : Spawned m argv streams launch a p m₁) : m₁.layout =
    { m.layout with
      processes := m.layout.processes.push p.identity, nextPid := m.nextPid + 1
      room := m₁.pipes.size } := by
  unfold Machine.layout
  rw [h.processes, h.relays, h.nextPid, h.inherited, Array.map_push]

theorem size_le (h : Spawned m argv streams launch a p m₁) : m.pipes.size ≤ m₁.pipes.size := by
  obtain ⟨hle, hlt⟩ := h.owns_cases (.inr h.outputPipe)
  omega

theorem fits (h : Spawned m argv streams launch a p m₁) (hlaid : Laid base m.layout)
    (hcomputes : Computes ps launch.program (denote argv)) :
    a.Fits ps denote base p.identity := by
  have hroom : base ≤ m.pipes.size := hlaid.base_le
  refine ⟨?_, h.outputPipe, Nat.le_trans hroom (h.owns_cases (.inr h.outputPipe)).1, fun i hi => ?_,
    fun i hi => ?_, fun i hi => hlaid.inherited i (.inr (h.stderr i hi)), fun hnull => ?_⟩
  · show Computes ps a.start (denote p.argv)
    rw [h.start, h.argv_eq]
    exact hcomputes
  · rcases h.input with ⟨-, hown, hstdin, ha, -⟩ | ⟨-, hnone, -⟩
    · cases hown.symm.trans hi
      exact ⟨hstdin, hroom, by omega⟩
    · cases hnone.symm.trans hi
  · rcases h.input with ⟨-, hown, hstdin, -⟩ | ⟨-, -, -, hinherited⟩
    · cases hstdin.symm.trans hi
      exact .inl hown
    · exact .inr (hlaid.inherited i (.inl (hinherited i hi)))
  · exact h.null (h.streams_eq ▸ hnull)

theorem seated (h : Spawned m argv streams launch a p m₁) (hin : launch.input.IsFresh)
    (hout : launch.output.IsFresh) : Seated ps a p m₁.pipes := by
  constructor
  · refine ⟨launch.output, h.output, ?_, ?_, ?_, false, false, ?_, nofun,
      .working (.inl h.life) h.descriptors ?_⟩
    · rw [hout]
    · rw [hout]
    · rw [h.intake]
      nofun
    · rw [hout, h.program, h.intake, ← h.start]
      exact .start
    · rw [hout]
  · intro j hj
    rcases h.input with ⟨-, hown, -, -, hinput⟩ | ⟨-, hnone, -⟩
    · cases hown.symm.trans hj
      refine ⟨launch.input, hinput, ?_, ?_, ?_, ?_, fun _ => ?_⟩
      · rw [hin]
      · rw [h.intake]
        trivial
      · rw [h.intake, hin]
        rfl
      · rw [h.intake]
        nofun
      · rw [hin]
    · cases hnone.symm.trans hj

end Spawned

/-- **A process more.** -/
theorem Sound.spawned (h : Sound ps denote base (fun _ => []) m) {argv : List String}
    {streams : Streams} {launch : Launch S} {a : Seat S}
    (hspawned : Spawned m argv streams launch a p m₁)
    (hcomputes : Computes ps launch.program (denote argv)) (hin : launch.input.IsFresh)
    (hout : launch.output.IsFresh) : Sound ps denote base (fun _ => []) m₁ := by
  have hlaid := h.laid
  have hlayout := hspawned.layout
  have hrelays : ∀ {n : Nat}, m₁.layout.relays[n]? = m.layout.relays[n]? := by
    intro n
    rw [hlayout]
  constructor
  · rw [hlayout]
    exact hlaid.push hspawned.pid (fun j hj => hspawned.owns_cases hj) hspawned.size_le
  · intro k q hq
    rcases hspawned.process_cases hq with hq' | rfl
    · refine (h.process hq').imp_right fun ⟨b, hfits, hseated⟩ => ⟨b, hfits, ?_⟩
      have hsame := fun j (hj : q.identity.Owns j) => (hspawned.pipe_of_owns hlaid hq' hj).2
      exact (hseated.went hfits (fun j hj _ => hsame j hj) (fun _ hw => hw) rfl id).seated rfl
    · exact .inr ⟨a, hspawned.fits hlaid hcomputes, hspawned.seated hin hout⟩
  · -- the pipes of a relay were there before, and so were the processes at its ends
    intro n k₁ k₂ s r p₁ q₁ o i hr hbase hs hp₁ hout₁ ho hq₁ hin₁ hi
    rw [hspawned.relays] at hr
    obtain ⟨k, p', -, o', hp', hout', -⟩ := h.relay_source hr hbase
    obtain ⟨hsbase, k', q', i', hq', hin', -⟩ := h.relay_sink hr hbase hs
    obtain ⟨hlt, hsame⟩ := hspawned.pipe_of_owns hlaid hp' (.inr hout')
    obtain ⟨hslt, hssame⟩ := hspawned.pipe_of_owns hlaid hq' (.inl hin')
    rw [hsame] at ho
    rw [hssame] at hi
    exact h.link hr hbase hs (hspawned.process_of_owns hp₁ (.inr hout₁) hlt) hout₁ ho
      (hspawned.process_of_owns hq₁ (.inl hin₁) hslt) hin₁ hi
  · intro k j q i hq hj hbase hi hnone
    rcases hspawned.process_cases hq with hq' | rfl
    · rw [(hspawned.pipe_of_owns hlaid hq' (.inl hj)).2] at hi
      exact h.unfed hq' hj hbase hi fun he => hnone (hrelays.trans he)
    · -- nobody has written to a new pipe
      rcases hspawned.input with ⟨-, hown, -, -, hinput⟩ | ⟨-, hno, -⟩
      · cases hown.symm.trans hj
        cases hinput.symm.trans hi
        rw [hin]
        exact ⟨rfl, rfl⟩
      · cases hno.symm.trans hj
  · intro k j q o hq hj hbase ho hnone
    rcases hspawned.process_cases hq with hq' | rfl
    · rw [(hspawned.pipe_of_owns hlaid hq' (.inr hj)).2] at ho
      exact h.unread hq' hj hbase ho fun he => hnone (hrelays.trans he)
    · cases hspawned.outputPipe.symm.trans hj
      cases hspawned.output.symm.trans ho
      rw [hout]
      exact ⟨rfl, rfl⟩

/-! ### Starting a relay -/

theorem Machine.layout_push (m : Machine S) (r : RelayTask) :
    Machine.layout { m with relays := m.relays.push r } =
      { m.layout with relays := m.layout.relays.push r.ends } := by
  unfold Machine.layout
  rw [Array.map_push]

/-- **A relay more.** It finds its source as the process there has left it, and its sink empty. -/
theorem Sound.joined (h : Sound ps denote base (fun _ => []) m) {source : Nat} {sink : Option Nat}
    {chunk : Int} (hjoins : Joins base m.layout ⟨source, sink, chunk⟩)
    (hsource : ∀ {n : Nat} {e : Ends}, m.layout.relays[n]? = some e → e.source ≠ source)
    (hsink : ∀ s, sink = some s → ∀ {n : Nat} {e : Ends}, m.layout.relays[n]? = some e →
      e.sink ≠ some s) :
    Sound ps denote base (fun _ => []) { m with
      relays := m.relays.push { source, sink, chunk } } := by
  have hlayout : Machine.layout { m with relays := m.relays.push { source, sink, chunk } } =
      { m.layout with relays := m.layout.relays.push ⟨source, sink, chunk⟩ } :=
    m.layout_push _
  have hrelays : ∀ {n : Nat} {e : Ends}, m.layout.relays[n]? = some e →
      (Machine.layout { m with relays := m.relays.push { source, sink, chunk } }).relays[n]? =
        some e := by
    intro n e he
    rw [hlayout]
    exact getElem?_push_of_some _ he
  constructor
  · rw [hlayout]
    exact h.laid.join hjoins hsource hsink
  · exact h.process
  · intro n k k' s r p q o i hr hbase hs hp hout ho hq hin hi
    rcases getElem?_push_cases hr with hold | ⟨-, rfl⟩
    · exact h.link hold hbase hs hp hout ho hq hin hi
    · -- the new relay holds nothing, nothing has been taken from its source, and its sink is empty
      have hsbase := (hjoins.sink s hs).1
      obtain ⟨hopen, hbuffer⟩ := h.unread hp hout hbase ho hsource
      obtain ⟨hwriter, hempty⟩ := h.unfed hq hin hsbase hi (hsink s hs)
      refine ⟨⟨fun _ => ⟨hwriter, hopen, ?_⟩, nofun⟩, fun hend => ?_, fun _ => ⟨rfl, rfl⟩,
        fun _ => ⟨rfl, hempty⟩⟩
      · rw [hempty]
        exact hbuffer
      · -- its reader has not met the end, since the sink is still open
        obtain ⟨b, -, hseated⟩ := h.seat hq (.inl hin) hsbase
        obtain ⟨i', hi', hdraws⟩ := hseated.input s hin
        cases hi.symm.trans hi'
        rw [(hdraws.ended hend).1] at hwriter
        cases hwriter
  · intro k j p i hp hj hbase hi hnone
    exact h.unfed hp hj hbase hi fun he => hnone (hrelays he)
  · intro k j p o hp hj hbase ho hnone
    exact h.unread hp hj hbase ho fun he => hnone (hrelays he)

/-! ### Reading -/

theorem Machine.layout_modifyPipe (m : Machine S) (j : Nat) (f : Pipe → Pipe) :
    (m.modifyPipe j f).layout = m.layout := by
  unfold layout modifyPipe
  rw [Array.size_modify]

/-- **The interpreter reads** from a pipe that no relay reads. -/
theorem Sound.drawn (h : Sound ps denote base read m) {k j : Nat} {o o' : Pipe} {part : Bytes}
    (hp : m.processes[k]? = some p) (hout : p.outputPipe = some j) (hbase : base ≤ j)
    (ho : m.pipes[j]? = some o)
    (hnone : ∀ {n : Nat} {e : Ends}, m.layout.relays[n]? = some e → e.source ≠ j)
    (hs : o.Shrank o' part) :
    Sound ps denote base (fun i => if i = j then read i ++ part else read i)
      (m.modifyPipe j fun _ => o') := by
  have hself : (m.modifyPipe j fun _ => o').pipes[j]? = some o' :=
    Machine.pipes_modifyPipe_self ho _
  have hother : ∀ {i : Nat}, i ≠ j → (m.modifyPipe j fun _ => o').pipes[i]? = m.pipes[i]? :=
    fun hi => Machine.pipes_modifyPipe_ne (Ne.symm hi) _
  have hlayout : (m.modifyPipe j fun _ => o').layout = m.layout := m.layout_modifyPipe j _
  -- the pipe is an output, so nobody's input has changed
  have hinput : ∀ {k i : Nat} {q : Process S}, m.processes[k]? = some q → q.inputPipe = some i →
      base ≤ i → (m.modifyPipe j fun _ => o').pipes[i]? = m.pipes[i]? :=
    fun hq hi hibase => hother (h.input_ne_output hq hi hibase hp hout)
  constructor
  · rw [hlayout]
    exact h.laid
  · intro k q hq
    refine (h.process hq).imp_right fun ⟨a, hfits, hseated⟩ => ⟨a, hfits, ?_, fun i hi => ?_⟩
    · obtain ⟨x, hx, hworks⟩ := hseated.output
      by_cases ha : a.output = j
      · rw [ha] at hx ⊢
        cases ho.symm.trans hx
        exact ⟨o', hself, hworks.drawn (.read hs)⟩
      · exact ⟨x, (hother ha).trans hx, hworks⟩
    · obtain ⟨x, hx, hdraws⟩ := hseated.input i hi
      exact ⟨x, (hinput hq hi (hfits.input i hi).2.1).trans hx, hdraws⟩
  · intro n k₁ k₂ s r p₁ q₁ x y hr hrbase hs hp₁ hout₁ hx hq₁ hin₁ hy
    have hne : r.source ≠ j := hnone (Machine.layout_relay hr)
    rw [hother hne] at hx
    rw [hinput hq₁ hin₁ ((h.joins hr hrbase).sink s hs).1] at hy
    exact h.link hr hrbase hs hp₁ hout₁ hx hq₁ hin₁ hy
  · intro k i q y hq hi hibase hy hno
    rw [hlayout] at hno
    rw [hinput hq hi hibase] at hy
    exact h.unfed hq hi hibase hy hno
  · intro k i q x hq hi hibase hx hno
    rw [hlayout] at hno
    by_cases hij : i = j
    · subst hij
      cases hself.symm.trans hx
      obtain ⟨hopen, hread⟩ := h.unread hq hi hibase ho hno
      refine ⟨hs.readerOpen.trans hopen, ?_⟩
      rw [if_pos rfl, hs.received, hread, hs.buffer, List.append_assoc]
    · rw [hother hij] at hx
      rw [if_neg hij]
      exact h.unread hq hi hibase hx hno

end LineShell.Host
