import LineShell.Proofs.Plays

namespace LineShell.Host

open Text (Bytes)
open Shell (Predecessor Plan Started Linked Launched)

/-!
# A pipeline on a machine

* `Sound.moves`, `Sound.aside` — a sound machine stays so whatever moves, and whatever the
  interpreter does aside;
* `Leads`, `Chained` — which process leads to the next stage, and how each stage got its input;
* `Sound.launched` — when the stages of a line have been started, they are chained.
-/

variable {S : Type} {ps : Programs S} {denote : List String → Flow → Flow} {base : Nat}
  {read : Nat → Bytes} {m m₁ m' : Machine S} {p : Process S} {es : Trace}

theorem layout_of_moves (hquiet : ∀ s pid number next, ps.next s ≠ .signal pid number next)
    (hm : Moves ps m m₁) : m₁.layout = m.layout := (Later.of_moves hquiet hm).layout

namespace Sound

theorem of_net (h : Sound ps denote base read m) (hnet : m₁.net = m.net) :
    Sound ps denote base read m₁ := by
  refine h.elsewhere (layout_of_net hnet) (fun {k q} hq => .inr ?_) (fun {n r} hr _ => ?_)
    fun j _ => congrArg (·.pipes[j]?) hnet
  · exact (congrArg (·.processes[k]?) hnet).symm.trans hq
  · exact (congrArg (·.relays[n]?) hnet).symm.trans hr

theorem moves (h : Sound ps denote base read m)
    (hquiet : ∀ s pid number next, ps.next s ≠ .signal pid number next) (hm : Moves ps m m₁) :
    Sound ps denote base read m₁ := by
  induction hm with
  | refl => exact h
  | step _ hstep ih =>
    unfold Machine.stepActor at hstep
    split at hstep
    · exact ih.stepProcess hquiet hstep
    · exact ih.stepRelay hstep
  | pass _ turn clock ih => exact ih.of_net rfl

/-- What concerns neither processes nor relays keeps all of it. -/
theorem aside (h : Sound ps denote base read m)
    (hquiet : ∀ s pid number next, ps.next s ≠ .signal pid number next)
    (hplays : Plays ps m es m')
    (hes : ∀ e ∈ es, (e.request.isAside = true ∨ e.request.isDrain = true) ∧
      ∀ pid, e.request ≠ .readOutput pid) :
    Sound ps denote base read m' ∧ m'.layout = m.layout := by
  induction es generalizing m with
  | nil => exact ⟨h.moves hquiet hplays, layout_of_moves hquiet hplays⟩
  | cons e es ih =>
    obtain ⟨m₁, m₂, host, hmoves, rfl, hanswer, hrest⟩ := hplays
    obtain ⟨hkind, hread⟩ := hes e (.head _)
    have hnet := host.answer_net hkind hread m₁
    rw [hanswer] at hnet
    obtain ⟨hsound, hlayout⟩ := ih ((h.moves hquiet hmoves).of_net hnet) hrest
      fun e he => hes e (.tail _ he)
    exact ⟨hsound, hlayout.trans ((layout_of_net hnet).trans (layout_of_moves hquiet hmoves))⟩

/-- A process of a pipeline is found by its number. -/
theorem process?_eq (h : Sound ps denote base read m) {k j : Nat} (hp : m.processes[k]? = some p)
    (hout : p.outputPipe = some j) (hbase : base ≤ j) : m.process? p.pid = some p := by
  -- no process before it has its number, since numbers of processes with pipes are not shared
  have hindex : m.indexOf? p.pid = some k := by
    obtain ⟨hk, hget⟩ := Array.getElem?_eq_some_iff.1 hp
    refine Array.findIdx?_eq_some_iff_getElem.2 ⟨hk, by simp [hget], fun i hi => ?_⟩
    have hlt : i < m.processes.size := by omega
    have hi' : m.processes[i]? = some m.processes[i] := Array.getElem?_eq_getElem hlt
    intro heq
    have hpid : m.processes[i].pid = p.pid := by simpa using heq
    have hsame := h.laid.pid_inj (Machine.layout_process hp) (Machine.layout_process hi') hpid j
      hout hbase
    omega
  unfold Machine.process?
  rw [hindex]
  exact hp

section

variable {who : Identity} {k j : Nat} (hwho : m.layout.processes[k]? = some who)
  (hout : who.outputPipe = some j) (hbase : base ≤ j)

include hwho hout hbase

/-- The output pipe of a process of a pipeline is found by its number. -/
theorem outputPipe?_eq (h : Sound ps denote base read m) : m.outputPipe? who.pid = some j := by
  obtain ⟨p, hp, rfl⟩ := Machine.of_layout_process hwho
  show (m.process? p.pid).bind Process.outputPipe = _
  rw [h.process?_eq hp hout hbase]
  exact hout

/-- So is its input pipe, if it has one. -/
theorem inputPipe?_eq (h : Sound ps denote base read m) :
    m.inputPipe? who.pid = who.inputPipe := by
  obtain ⟨p, hp, rfl⟩ := Machine.of_layout_process hwho
  show (m.process? p.pid).bind Process.inputPipe = _
  rw [h.process?_eq hp hout hbase]
  rfl

end

end Sound

/-! ### Who leads to whom -/

/-- All who are there in a layout are there in another one. -/
structure Layout.Extends (l l₁ : Layout) : Prop where
  process : ∀ {k : Nat} {who : Identity}, l.processes[k]? = some who → l₁.processes[k]? = some who
  relay : ∀ {n : Nat} {e : Ends}, l.relays[n]? = some e → l₁.relays[n]? = some e

/-- The stage before the next one has a process whose output nobody reads yet. -/
def Leads (base : Nat) (l : Layout) : Predecessor → Prop
  | .running up => ∃ (k j : Nat) (who : Identity), l.processes[k]? = some who ∧ who.pid = up ∧
      who.outputPipe = some j ∧ base ≤ j ∧
        ∀ {n : Nat} {e : Ends}, l.relays[n]? = some e → e.source ≠ j
  | _ => True

/-- Where a process of a pipeline gets its input from. -/
def Fed (base : Nat) (l : Layout) : Predecessor → Identity → Prop
  | .none, _ => True
  | .missing, who => who.streams.stdin = .null
  | .running up, who => ∃ (n k s : Nat) (e : Ends) (w : Identity), l.relays[n]? = some e ∧
      base ≤ e.source ∧ e.sink = some s ∧ l.processes[k]? = some w ∧ w.pid = up ∧
        w.outputPipe = some e.source ∧ who.inputPipe = some s

/-- The stages of a pipeline that have processes get their input from those before them. -/
inductive Chained (base : Nat) (l : Layout) : Predecessor → List Shell.Stage → Prop
  | nil (before : Predecessor) : Chained base l before []
  | missing {before : Predecessor} {command : Command} {stages : List Shell.Stage}
      (h : Chained base l .missing stages) : Chained base l before (⟨command, none⟩ :: stages)
  | running {before : Predecessor} {command : Command} {pid : ProcessId} {stages : List Shell.Stage}
      {k j : Nat} {who : Identity} (hwho : l.processes[k]? = some who) (hpid : who.pid = pid)
      (hargv : who.argv = command.argv) (hout : who.outputPipe = some j) (hbase : base ≤ j)
      (hfed : Fed base l before who) (h : Chained base l (.running pid) stages) :
      Chained base l before (⟨command, some pid⟩ :: stages)

/-- The stage before the one that would come behind some stages. -/
def lastOf : Predecessor → List Shell.Stage → Predecessor
  | before, [] => before
  | _, stage :: stages => lastOf (.of stage.pid) stages

variable {l l₁ l₂ : Layout} {who : Identity} {before : Predecessor} {stages : List Shell.Stage}

namespace Layout.Extends

theorem refl (l : Layout) : l.Extends l := ⟨id, id⟩

theorem trans (h : l.Extends l₁) (h' : l₁.Extends l₂) : l.Extends l₂ :=
  ⟨fun hk => h'.process (h.process hk), fun hn => h'.relay (h.relay hn)⟩

end Layout.Extends

theorem Fed.mono (h : Fed base l before who) (hl : l.Extends l₁) : Fed base l₁ before who := by
  cases before with
  | none => trivial
  | missing => exact h
  | running up =>
    obtain ⟨n, k, s, e, w, he, hbase, hs, hw, hrest⟩ := h
    exact ⟨n, k, s, e, w, hl.relay he, hbase, hs, hl.process hw, hrest⟩

/-- Relays have pipes that are there. -/
theorem Laid.relay_lt (h : Laid base l) {n : Nat} {e : Ends} (he : l.relays[n]? = some e) :
    e.source < l.room ∧ ∀ s, e.sink = some s → s < l.room := by
  have hbase := h.base_le
  rcases h.relays he with ⟨hlt, hslt⟩ | ⟨-, -, ⟨k, w, hw, hout⟩, hsink⟩
  · refine ⟨by omega, fun s hs => ?_⟩
    have := hslt s hs
    omega
  · refine ⟨h.own_lt hw _ (.inr hout), fun s hs => ?_⟩
    obtain ⟨-, k', w', hw', hin, -⟩ := hsink s hs
    exact h.own_lt hw' s (.inl hin)

/-! ### Starting the stages -/

/-- Whenever a command is started, it is a program that computes what its words denote, and its
pipes are empty. -/
def Denotes (ps : Programs S) (denote : List String → Flow → Flow) (cwd : Path)
    (command : Command) : Prop :=
  ∀ files launch, ps.find files cwd command.argv = .ok launch →
    Computes ps launch.program (denote command.argv) ∧ launch.input.IsFresh ∧
      launch.output.IsFresh

/-- The layout has a process that was not there in another one. -/
def Entered (l l₁ : Layout) (argv : List String) (streams : Streams) (pid : ProcessId)
    (who : Identity) : Prop :=
  (∃ k : Nat, l₁.processes[k]? = some who) ∧ who.pid = pid ∧ who.argv = argv ∧
    who.streams = streams ∧ (∃ j, who.outputPipe = some j ∧ l.room ≤ j) ∧
      (streams.stdin = .pipe → ∃ i, who.inputPipe = some i ∧ l.room ≤ i)

variable {argv : List String} {streams : Streams} {launch : Launch S} {a : Seat S}

theorem Spawned.entered (h : Spawned m argv streams launch a p m₁) :
    Entered m.layout m₁.layout argv streams m.nextPid p.identity := by
  refine ⟨⟨m.processes.size, ?_⟩, h.pid, h.argv_eq, h.streams_eq,
    ⟨a.output, h.outputPipe, (h.owns_cases (.inr h.outputPipe)).1⟩, fun hin => ?_⟩
  · rw [h.layout, Array.getElem?_push, if_pos]
    simp [Machine.layout]
  · rcases h.input with ⟨-, hown, -⟩ | ⟨hnot, -⟩
    · exact ⟨_, hown, (h.owns_cases (.inl hown)).1⟩
    · exact absurd hin hnot

theorem Spawned.extends (h : Spawned m argv streams launch a p m₁) :
    m.layout.Extends m₁.layout := by
  rw [h.layout]
  exact ⟨fun hk => getElem?_push_of_some _ hk, id⟩

/-- Requests that concern neither processes nor relays, or hand bytes on. -/
theorem apart_of_aside (hes : es.Aside) : ∀ e ∈ es,
    (e.request.isAside = true ∨ e.request.isDrain = true) ∧ ∀ pid, e.request ≠ .readOutput pid := by
  intro e he
  refine ⟨.inl (hes e he), fun pid hread => ?_⟩
  have hkind := hes e he
  rw [hread] at hkind
  cases hkind

namespace Sound

section

variable {pid : Option ProcessId} {chunk : Int}

/-- Whoever has entered with an input pipe is found by his number. -/
theorem inputPipe?_of_entered (h : Sound ps denote base read m) (hbase : base ≤ l.room)
    {n : ProcessId} (hw : Entered l m.layout argv streams n who) (hin : streams.stdin = .pipe) :
    ∃ i, m.inputPipe? n = some i ∧ who.inputPipe = some i ∧ l.room ≤ i := by
  obtain ⟨⟨k, hk⟩, rfl, -, -, ⟨j, hj, hjlt⟩, hinput⟩ := hw
  obtain ⟨i, hi, hilt⟩ := hinput hin
  exact ⟨i, (inputPipe?_eq hk hj (Nat.le_trans hbase hjlt) h).trans hi, hi, hilt⟩

/-- A relay to a process that has entered writes to a pipe that was not there before. -/
theorem sink_of_entered (h : Sound ps denote base read m) (hbase : base ≤ l.room)
    (hentered : ∀ n, pid = some n → ∃ who, Entered l m.layout argv streams n who)
    (hin : streams.stdin = .pipe) {s : Nat} (hs : pid.bind m.inputPipe? = some s) :
    l.room ≤ s ∧ ∃ (k : Nat) (who : Identity), m.layout.processes[k]? = some who ∧
      who.inputPipe = some s ∧ ∀ j, who.outputPipe = some j → l.room ≤ j := by
  obtain ⟨n, rfl, hs⟩ := Option.bind_eq_some_iff.1 hs
  obtain ⟨who, hw⟩ := hentered n rfl
  obtain ⟨i, hi, hwi, hilt⟩ := h.inputPipe?_of_entered hbase hw hin
  cases hi.symm.trans hs
  obtain ⟨⟨k, hk⟩, -, -, -, ⟨j, hj, hjlt⟩, -⟩ := hw
  refine ⟨hilt, k, who, hk, hwi, fun j' hj' => ?_⟩
  cases hj.symm.trans hj'
  exact hjlt

/-- A relay more, from a pipe that was there to one that was not. -/
theorem relayed (h : Sound ps denote base (fun _ => []) m) (hlaid : Laid base l)
    (hrelays : m.layout.relays = l.relays) {source k : Nat} {sink : Option Nat}
    (hwho : m.layout.processes[k]? = some who) (hout : who.outputPipe = some source)
    (hbase : base ≤ source) (hlt : source < l.room)
    (hunread : ∀ {n : Nat} {e : Ends}, l.relays[n]? = some e → e.source ≠ source)
    (hchunk : 1 ≤ chunk) (hsink : ∀ s, sink = some s → l.room ≤ s ∧
      ∃ (k : Nat) (who : Identity), m.layout.processes[k]? = some who ∧
        who.inputPipe = some s ∧ ∀ j, who.outputPipe = some j → l.room ≤ j) :
    Sound ps denote base (fun _ => []) { m with
      relays := m.relays.push { source, sink, chunk } } := by
  refine h.joined ⟨hbase, hchunk, ⟨k, who, hwho, hout⟩, fun s hs => ?_⟩ (fun he => ?_)
    fun s hs n e he hsame => ?_
  · obtain ⟨hle, k', who', hwho', hin, hnew⟩ := hsink s hs
    refine ⟨Nat.le_trans hlaid.base_le hle, k', who', hwho', hin, fun hout' => ?_⟩
    exact absurd (hnew source hout') (Nat.not_le.2 hlt)
  · rw [hrelays] at he
    exact hunread he
  · rw [hrelays] at he
    exact absurd ((hlaid.relay_lt he).2 s hsame) (Nat.not_lt.2 (hsink s hs).1)

end

variable (h : Sound ps denote base (fun _ => []) m)
  (hquiet : ∀ s pid number next, ps.next s ≠ .signal pid number next)

include h hquiet

/-- A stage is started, or is not. -/
theorem started {command : Command} {streams : Streams} {s : Session} {pid : Option ProcessId}
    (hdenotes : Denotes ps denote s.cwd command) (hout : streams.stdout = .pipe)
    (hstarted : Started command streams s pid es) (hplays : Plays ps m es m') :
    Sound ps denote base (fun _ => []) m' ∧ m.layout.Extends m'.layout ∧
      m'.layout.relays = m.layout.relays ∧
        ∀ n, pid = some n → ∃ who, Entered m.layout m'.layout command.argv streams n who := by
  obtain ⟨before, after, o, rfl, hbefore, hafter, hbrings⟩ := hstarted
  obtain ⟨m₀, hplays₀, m₁, m₂, host, hmoves, rfl, hanswer, hplays₂⟩ := plays_append.1 hplays
  obtain ⟨h₀, hlayout₀⟩ := h.aside hquiet hplays₀ (apart_of_aside hbefore)
  have h₁ := h₀.moves hquiet hmoves
  have hlayout₁ : m₁.layout = m.layout := (layout_of_moves hquiet hmoves).trans hlayout₀
  rcases host.answer_spawn hanswer with ⟨f, rfl, hnet⟩ | ⟨launch, hfind, heq⟩
  · -- the program could not be started, and nobody has come
    obtain ⟨h₂, hlayout₂⟩ := (h₁.of_net hnet).aside hquiet hplays₂ (apart_of_aside hafter)
    have hlayout : m'.layout = m.layout :=
      hlayout₂.trans ((layout_of_net hnet).trans hlayout₁)
    rw [hlayout]
    refine ⟨h₂, .refl _, rfl, ?_⟩
    rintro n rfl
    cases hbrings
  · -- the process has come last, and what follows is done aside
    obtain ⟨hpid, a, p, hspawned⟩ := m₁.addProcess_spawned command.argv s.cwd launch hout
    obtain ⟨hcomputes, hin, hfresh⟩ := hdenotes m₁.files launch hfind
    cases heq
    obtain ⟨h₂, hlayout₂⟩ :=
      (h₁.spawned hspawned hcomputes hin hfresh).aside hquiet hplays₂ (apart_of_aside hafter)
    have hextends := hspawned.extends
    have hentered := hspawned.entered
    have hrelays := congrArg Layout.relays hspawned.layout
    rw [hlayout₁] at hextends hentered hrelays
    rw [hlayout₂]
    refine ⟨h₂, hextends, hrelays, ?_⟩
    rintro n rfl
    refine ⟨p.identity, ?_⟩
    have hn : m₁.nextPid = n := hpid.symm.trans (Outcome.returned.inj hbrings)
    rw [← hn]
    exact hentered

/-- A layout when a stage has been linked to the one before it: each relay reads from a pipe that was
there before the stage, and the process of the stage gets its input. -/
structure Supplied (base : Nat) (l l₁ l₂ : Layout) (before : Predecessor) (argv : List String)
    (streams : Streams) (pid : Option ProcessId) : Prop where
  grows : l₁.Extends l₂
  source_lt : ∀ {n : Nat} {e : Ends}, l₂.relays[n]? = some e → e.source < l.room
  fed : ∀ n who, pid = some n → Entered l l₁ argv streams n who → Fed base l₂ before who

section

variable {l : Layout} (hlaid : Laid base l) {argv : List String} {streams : Streams}
  {pid : Option ProcessId} {chunk : Int}

include hlaid

omit hquiet in
/-- A relay more, from a process that was there to one that has entered. -/
theorem relays_entered {up : ProcessId} {source : Nat} (hextends : l.Extends m.layout)
    (hrelays : m.layout.relays = l.relays) (hleads : Leads base l (.running up))
    (hentered : ∀ n, pid = some n → ∃ who, Entered l m.layout argv streams n who)
    (hin : streams.stdin = .pipe) (hchunk : 1 ≤ chunk) (hsource : m.outputPipe? up = some source)
    (heq : m₁ = { m with relays := m.relays.push { source, sink := pid.bind m.inputPipe?, chunk } }) :
    Sound ps denote base (fun _ => []) m₁ ∧
      Supplied base l m.layout m₁.layout (.running up) argv streams pid := by
  subst heq
  -- the source is the output pipe of the process before, which no relay reads from
  obtain ⟨k, j, w, hk, rfl, hj, hbase, hunread⟩ := hleads
  have hlt : j < l.room := hlaid.own_lt hk j (.inr hj)
  have hk₂ := hextends.process hk
  cases hsource.symm.trans (outputPipe?_eq hk₂ hj hbase h)
  have h₃ := h.relayed hlaid hrelays hk₂ hj hbase hlt hunread hchunk fun s hs =>
    h.sink_of_entered hlaid.base_le hentered hin hs
  rw [Machine.layout_push]
  refine ⟨h₃, ⟨id, fun he => getElem?_push_of_some _ he⟩, fun {n e} he => ?_, fun n who hn hw => ?_⟩
  · -- the relays of before have pipes of before, and so has the source of the new one
    rcases getElem?_push_cases he with hold | ⟨-, rfl⟩
    · rw [hrelays] at hold
      exact (hlaid.relay_lt hold).1
    · exact hlt
  · obtain ⟨i, hi, hwi, -⟩ := h.inputPipe?_of_entered hlaid.base_le hw hin
    refine ⟨_, k, i, _, w, Array.getElem?_push_size, hbase, ?_, hk₂, rfl, hj, hwi⟩
    rw [hn]
    exact hi

/-- A relay is started from a process that was there to one that has entered. -/
theorem linked_running {up : ProcessId} {relay : RelayId} (hextends : l.Extends m.layout)
    (hrelays : m.layout.relays = l.relays) (hleads : Leads base l (.running up))
    (hentered : ∀ n, pid = some n → ∃ who, Entered l m.layout argv streams n who)
    (hin : streams.stdin = .pipe) (hchunk : 1 ≤ chunk)
    (hplays : Plays ps m [⟨.startRelay up pid chunk, .returned relay⟩] m') :
    Sound ps denote base (fun _ => []) m' ∧
      Supplied base l m.layout m'.layout (.running up) argv streams pid := by
  obtain ⟨m₂, m₃, host, hmoves, rfl, hanswer, hmoves'⟩ := hplays
  have h₂ := h.moves hquiet hmoves
  rw [← layout_of_moves hquiet hmoves] at hextends hrelays hentered ⊢
  obtain ⟨source, hsource, rfl⟩ := host.answer_startRelay hanswer
  obtain ⟨h₃, hsupplied⟩ :=
    h₂.relays_entered hlaid hextends hrelays hleads hentered hin hchunk hsource rfl
  rw [layout_of_moves hquiet hmoves']
  exact ⟨h₃.moves hquiet hmoves', hsupplied⟩

/-- Where there is no process before a stage, no relay is started. -/
theorem unlinked (hrelays : m.layout.relays = l.relays) (hnot : ∀ up, before ≠ .running up)
    (hmissing : before = .missing → streams.stdin = .null) (hplays : Plays ps m [] m') :
    Sound ps denote base (fun _ => []) m' ∧
      Supplied base l m.layout m'.layout before argv streams pid := by
  have hlayout := layout_of_moves hquiet hplays
  rw [hlayout]
  refine ⟨h.moves hquiet hplays, .refl _, fun {n e} he => ?_, fun n who _ hw => ?_⟩
  · rw [hrelays] at he
    exact (hlaid.relay_lt he).1
  · obtain ⟨-, -, -, hstreams, -⟩ := hw
    cases before with
    | none => trivial
    | missing => exact (congrArg Streams.stdin hstreams).trans (hmissing rfl)
    | running up => exact absurd rfl (hnot up)

/-- A stage that has been started is linked to the one before it, if that has a process. -/
theorem linked (hextends : l.Extends m.layout) (hrelays : m.layout.relays = l.relays)
    (hleads : Leads base l before)
    (hentered : ∀ n, pid = some n → ∃ who, Entered l m.layout argv streams n who)
    (hmissing : before = .missing → streams.stdin = .null)
    (hrunning : ∀ up, before = .running up → streams.stdin = .pipe) (hchunk : 1 ≤ chunk)
    {relays : List RelayId} (hlinked : Linked chunk before pid relays es)
    (hplays : Plays ps m es m') :
    Sound ps denote base (fun _ => []) m' ∧
      Supplied base l m.layout m'.layout before argv streams pid := by
  cases before with
  | running up =>
    obtain ⟨relay, -, rfl⟩ := hlinked
    exact h.linked_running hquiet hlaid hextends hrelays hleads hentered (hrunning up rfl) hchunk
      hplays
  | none =>
    obtain ⟨-, rfl⟩ := hlinked
    exact h.unlinked hquiet hlaid hrelays (fun _ => nofun) hmissing hplays
  | missing =>
    obtain ⟨-, rfl⟩ := hlinked
    exact h.unlinked hquiet hlaid hrelays (fun _ => nofun) hmissing hplays

end

/-- A stage is started, and linked to the one before it. -/
theorem stage {command : Command} {streams : Streams} {s : Session} {pid : Option ProcessId}
    {chunk : Int} {relays : List RelayId} {es' : Trace}
    (hdenotes : Denotes ps denote s.cwd command) (hout : streams.stdout = .pipe)
    (hmissing : before = .missing → streams.stdin = .null)
    (hrunning : ∀ up, before = .running up → streams.stdin = .pipe) (hchunk : 1 ≤ chunk)
    (hleads : Leads base m.layout before) (hstarted : Started command streams s pid es)
    (hlinked : Linked chunk before pid relays es') (hplays : Plays ps m (es ++ es') m') :
    Sound ps denote base (fun _ => []) m' ∧ m.layout.Extends m'.layout ∧
      Leads base m'.layout (.of pid) ∧ ∀ n, pid = some n → ∃ (k j : Nat) (who : Identity),
        m'.layout.processes[k]? = some who ∧ who.pid = n ∧ who.argv = command.argv ∧
          who.outputPipe = some j ∧ base ≤ j ∧ Fed base m'.layout before who := by
  have hlaid := h.laid
  obtain ⟨mid, hplays₁, hplays₂⟩ := plays_append.1 hplays
  obtain ⟨h₁, hextends₁, hrelays₁, hentered⟩ := h.started hquiet hdenotes hout hstarted hplays₁
  obtain ⟨h₂, hextends₂, hrelays₂, hfed⟩ := h₁.linked hquiet hlaid hextends₁ hrelays₁ hleads
    hentered hmissing hrunning hchunk hlinked hplays₂
  -- whoever has entered writes to a pipe that is new, so no relay reads it
  have hplace : ∀ n who, Entered m.layout mid.layout command.argv streams n who →
      ∃ (k j : Nat), m'.layout.processes[k]? = some who ∧ who.outputPipe = some j ∧ base ≤ j ∧
        ∀ {n : Nat} {e : Ends}, m'.layout.relays[n]? = some e → e.source ≠ j := by
    rintro n who ⟨⟨k, hk⟩, -, -, -, ⟨j, hj, hjlt⟩, -⟩
    refine ⟨k, j, hextends₂.process hk, hj, Nat.le_trans hlaid.base_le hjlt, fun he => ?_⟩
    have := hrelays₂ he
    omega
  refine ⟨h₂, hextends₁.trans hextends₂, ?_, ?_⟩
  · cases pid with
    | none => trivial
    | some n =>
      obtain ⟨who, hw⟩ := hentered n rfl
      obtain ⟨k, j, hk, hj, hbase, hnone⟩ := hplace n who hw
      exact ⟨k, j, who, hk, hw.2.1, hj, hbase, hnone⟩
  · rintro n rfl
    obtain ⟨who, hw⟩ := hentered n rfl
    obtain ⟨k, j, hk, hj, hbase, -⟩ := hplace n who hw
    exact ⟨k, j, who, hk, hw.2.1, hw.2.2.1, hj, hbase, hfed n who rfl hw⟩

end Sound

/-- Each stage that is not the last one writes to a pipe, and each that is not the first one reads
from a pipe. -/
def Wired : Predecessor → List Plan → Prop
  | _, [] => True
  | before, plan :: plans => (before ≠ .none → plan.wiring.stdin = .pipe) ∧
      (plans ≠ [] → plan.wiring.stdout = .pipe) ∧ ∀ pid, Wired (.of pid) plans

theorem stageStreams_stdout {before : Predecessor} {plan : Plan} {plans : List Plan}
    (h : plans ≠ [] → plan.wiring.stdout = .pipe) :
    (Shell.stageStreams true before plan plans.isEmpty).stdout = .pipe := by
  have hpipe : (plan.files.streams plan.wiring false (plans.isEmpty && true)).stdout = .pipe := by
    cases plans with
    | nil => simp [StageFiles.streams]
    | cons next plans => simp [StageFiles.streams, h]
  unfold Shell.stageStreams
  split <;> exact hpipe

theorem stageStreams_running {foreground : Bool} {up : ProcessId} {plan : Plan} {last : Bool}
    (h : plan.wiring.stdin = .pipe) :
    (Shell.stageStreams foreground (.running up) plan last).stdin = .pipe := by
  simp [Shell.stageStreams, StageFiles.streams, h]

/-- **The stages have been started.** Whatever moved meanwhile, each stage that has a process is
linked to the one before it, and nobody has read yet what the last one writes. -/
theorem Sound.launched {chunk : Int} {s : Session} {plans : List Plan} {relays : List RelayId}
    (hquiet : ∀ s pid number next, ps.next s ≠ .signal pid number next) (hchunk : 1 ≤ chunk)
    (hlaunched : Launched true chunk s before plans stages relays es)
    (h : Sound ps denote base (fun _ => []) m)
    (hdenotes : ∀ plan ∈ plans, Denotes ps denote s.cwd plan.command)
    (hwired : Wired before plans) (hleads : Leads base m.layout before)
    (hplays : Plays ps m es m') :
    Sound ps denote base (fun _ => []) m' ∧ m.layout.Extends m'.layout ∧
      Chained base m'.layout before stages ∧ Leads base m'.layout (lastOf before stages) := by
  induction hlaunched generalizing m with
  | nil before =>
    have hlayout := layout_of_moves hquiet hplays
    rw [hlayout]
    exact ⟨h.moves hquiet hplays, .refl _, .nil before, hleads⟩
  | @cons before plan plans pid stages _ _ _ _ _ hstarted hlinked _ ih =>
    -- the first stage is started and linked, and then the rest behind it
    obtain ⟨hin, hout, hrest⟩ := hwired
    obtain ⟨mid, hplays₁, hplays₂⟩ := plays_append.1 hplays
    obtain ⟨h₁, hextends₁, hleads₁, hplace⟩ := h.stage hquiet
      (hdenotes plan (.head _)) (stageStreams_stdout hout) (fun hmissing => by rw [hmissing]; rfl)
      (fun up hup => by
        rw [hup]
        exact stageStreams_running (hin (by rw [hup]; nofun)))
      hchunk hleads hstarted hlinked hplays₁
    obtain ⟨h₂, hextends₂, hchained, hleads₂⟩ := ih h₁
      (fun plan hplan => hdenotes plan (.tail _ hplan)) (hrest pid) hleads₁ hplays₂
    refine ⟨h₂, hextends₁.trans hextends₂, ?_, hleads₂⟩
    cases pid with
    | none => exact .missing hchained
    | some n =>
      obtain ⟨k, j, who, hk, hpid, hargv, hj, hbase, hfed⟩ := hplace n rfl
      exact .running (hextends₂.process hk) hpid hargv hj hbase (hfed.mono hextends₂) hchained

end LineShell.Host
