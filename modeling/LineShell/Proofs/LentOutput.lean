import LineShell.Proofs.LineOutput
import LineShell.Proofs.Outlets
import LineShell.Proofs.Passage

namespace LineShell.Host

open Text (Bytes)
open Shell (Predecessor Plan Started Linked Launched)

/-!
# Output files that are lent to pipelines

In the background the last process of a pipeline writes to the output file by itself.

* `Outlet.spawned`, `Outlet.leads` — were there a pipe in the place of the file, its process would start and
  be linked as any other;
* `Lent` — a process has the file, and what it writes there is what would be in the pipe;
* `Lent.ended` — when it has ended the file holds what was given, and what comes out of the stages;
* `Sound.lent_last`, `Sound.lent_launched` — the stages of a background line are started, and the last one
  gets the file.
-/

variable {S : Type} {ps : Programs S} {denote : List String → Flow → Flow} {base : Nat}
  {wrote : S → Bytes} {m m₁ m' : Machine S} {p q : Process S} {k : Nat} {l : Layout} {o : Pipe} {es : Trace}

/-! ### Starting the process -/

namespace Machine

/-- A process that is started to write to a file is the same as one that is started to write to a pipe,
but for that. -/
theorem piped_addProcess (m : Machine S) (argv : List String) (cwd : Path) {streams : Streams}
    (launch : Launch S) (hout : streams.stdout ≠ .pipe) :
    ((m.addProcess argv cwd streams launch).2.piped m.processes.size {}).net =
      (m.addProcess argv cwd { streams with stdout := .pipe } { launch with output := {} }).2.net := by
  obtain ⟨stdin, stdout, stderr⟩ := streams
  by_cases hin : stdin = .pipe
  · subst hin
    rw [addProcess_piped]
    unfold addProcess addPipe piped net
    simp only [if_neg hout, if_true, modify_push_size]
    rfl
  · rw [addProcess_unpiped _ _ _ _ _ hin]
    unfold addProcess addPipe piped net
    simp only [if_neg hout, if_neg hin, modify_push_size]
    rfl

theorem indexOf?_piped (pid : ProcessId) : (m.piped k o).indexOf? pid = m.indexOf? pid := by
  have hpids : (m.piped k o).processes.map Process.pid = m.processes.map Process.pid := by
    refine Array.ext_getElem? fun i => ?_
    unfold piped
    rw [Array.getElem?_map, Array.getElem?_map, Array.getElem?_modify]
    split
    · rw [Option.map_map]
      rfl
    · rfl
  have hindex : ∀ m : Machine S, m.indexOf? pid = (m.processes.map Process.pid).findIdx? (· == pid) := by
    intro m
    rw [Array.findIdx?_map]
    rfl
  rw [hindex, hpids, hindex]

/-- A pipe that another process writes to is found where the process is seen to write to a pipe. -/
theorem outputPipe?_of_piped {pid : ProcessId} {j : Nat} (hj : (m.piped k o).outputPipe? pid = some j)
    (hne : j ≠ m.pipes.size) : m.outputPipe? pid = some j := by
  unfold outputPipe? process? at hj ⊢
  rw [indexOf?_piped] at hj
  cases hi : m.indexOf? pid with
  | none =>
    rw [hi] at hj
    cases hj
  | some i =>
    obtain ⟨p, hp, -⟩ := process_of_indexOf? hi
    rw [hi, Option.bind_some, processes_piped hp, Option.bind_some] at hj
    rw [Option.bind_some, hp, Option.bind_some]
    unfold view at hj
    split at hj
    · exact absurd (Option.some.inj hj).symm hne
    · exact hj

theorem inputPipe?_piped (pid : ProcessId) : (m.piped k o).inputPipe? pid = m.inputPipe? pid := by
  unfold inputPipe? process?
  rw [indexOf?_piped]
  cases hi : m.indexOf? pid with
  | none => rfl
  | some i =>
    obtain ⟨p, hp, -⟩ := process_of_indexOf? hi
    rw [Option.bind_some, Option.bind_some, processes_piped hp, hp]
    exact view_inputPipe

/-- Whatever a process writes to, it has read the same. -/
theorem Reads.piped {pid : ProcessId} {x : Flow} (h : m.Reads pid x) : (m.piped k o).Reads pid x := by
  intro i p hp hpid
  have hlt : i < m.processes.size := by
    have hsize : (m.piped k o).processes.size = m.processes.size := Array.size_modify
    exact hsize ▸ (Array.getElem?_eq_some_iff.1 hp).1
  have hq : m.processes[i]? = some m.processes[i] := Array.getElem?_eq_getElem hlt
  cases (processes_piped hq).symm.trans hp
  have hread : m.processes[i].pid = pid → x.Heard m.processes[i].intake := h hq
  unfold view at hpid ⊢
  split at hpid
  · rw [if_pos ‹_›]
    exact hread hpid
  · rw [if_neg ‹_›]
    exact hread hpid

end Machine

/-- **A process gets the file.** It is there, and it would be if there were a pipe in its place. -/
theorem Outlet.spawned (h : Sound ps denote base (fun _ => []) m) {argv : List String} (cwd : Path)
    {streams : Streams} {launch : Launch S} (hout : streams.stdout ≠ .pipe)
    (hcomputes : Computes ps launch.program (denote argv)) (hin : launch.input.IsFresh)
    (hwrote : wrote launch.program = []) :
    ∃ l who, Outlet ps denote base wrote m.processes.size l {} (m.addProcess argv cwd streams launch).2 ∧
      m.layout.Extends l ∧ l.relays = m.layout.relays ∧
        Entered m.layout l argv { streams with stdout := .pipe } m.nextPid who := by
  have hnet := m.piped_addProcess argv cwd launch hout
  have hpipe : ({ streams with stdout := .pipe } : Streams).stdout = .pipe := rfl
  obtain ⟨-, a, p, hspawned⟩ := m.addProcess_spawned argv cwd { launch with output := {} } hpipe
  have hsound := (h.spawned hspawned hcomputes hin rfl).of_net hnet
  have hrelays := congrArg Layout.relays hspawned.layout
  obtain ⟨-, q, hprocesses, -⟩ := m.processes_addProcess argv cwd streams launch
  have hq : (m.addProcess argv cwd streams launch).2.processes[m.processes.size]? = some q := by
    rw [hprocesses, Array.getElem?_push_size]
  refine ⟨_, p.identity, ⟨?_, ?_, hsound, layout_of_net hnet, rfl, rfl, ?_⟩, hspawned.extends, hrelays,
    hspawned.entered⟩
  · rw [hprocesses, Array.size_push]
    exact Nat.lt_succ_self _
  · -- the pipe is the last one
    have hsize := congrArg (fun net : Net S => net.pipes.size) hnet
    obtain ⟨hle, -⟩ := hspawned.owns_cases (.inr hspawned.outputPipe)
    have hbase : base ≤ m.pipes.size := h.laid.base_le
    have hpipes := hspawned.pipes_size
    simp only [Machine.net, Machine.piped, Array.size_push] at hsize
    omega
  · have hview := Machine.processes_piped (k := m.processes.size) (o := {}) hq
    have hsame := congrArg (fun net : Net S => net.processes[m.processes.size]?) hnet
    have hlast : (m.addProcess argv cwd { streams with stdout := .pipe }
        { launch with output := {} }).2.processes[m.processes.size]? = some p := by
      rw [hspawned.processes, Array.getElem?_push_size]
    obtain rfl := Option.some.inj (hview.symm.trans (hsame.trans hlast))
    have hprogram := hspawned.program
    rw [Machine.view_program] at hprogram
    rw [Machine.wroteBy_eq hq, hprogram, hwrote]
    rfl

/-- A relay to the process leads from where it would with the pipe. -/
theorem Outlet.leads (h : Outlet ps denote base wrote k l o m) {l₀ : Layout} (hlaid : Laid base l₀)
    (hextends : l₀.Extends l) {up pid : ProcessId} (hleads : Leads base l₀ (.running up))
    {argv : List String} {streams : Streams} {who : Identity}
    (hentered : Entered l₀ l argv streams pid who) {source : Nat}
    (hsource : m.outputPipe? up = some source) : (m.piped k o).outputPipe? up = some source := by
  obtain rfl : (m.piped k o).layout = l := h.layout
  obtain ⟨k', j, w, hw, rfl, hj, hbase, -⟩ := hleads
  have hghost := Sound.outputPipe?_eq (hextends.process hw) hj hbase h.sound
  -- the pipe was there before the process
  have hold : j ≠ m.pipes.size := by
    obtain ⟨⟨i, hi⟩, -, -, -, ⟨j', hj', hle⟩, -⟩ := hentered
    have hlt := hlaid.own_lt hw j (.inr hj)
    have hlt' := h.sound.laid.own_lt hi j' (.inr hj')
    have hroom : (m.piped k o).layout.room = m.pipes.size + 1 := Array.size_push _
    omega
  cases hsource.symm.trans (Machine.outputPipe?_of_piped hghost hold)
  exact hghost

/-! ### What becomes of it -/

/-- A file of the interpreter's is lent to a process, which writes to it as it would to a pipe. -/
structure Lent (ps : Programs S) (denote : List String → Flow → Flow) (base : Nat) (wrote : S → Bytes)
    (node : Inode) (n : Nat) (id : FileId) (given : Bytes) (pid : ProcessId) (l : Layout)
    (m : Machine S) : Prop where
  grounded : m.Grounded
  held : ∃ k o f closed, m.indexOf? pid = some k ∧ Outlet ps denote base wrote k l o m ∧
    Held wrote node n f id true (some k) closed given m

namespace Lent

variable {node : Inode} {n : Nat} {id : FileId} {given : Bytes} {pid : ProcessId}
  (h : Lent ps denote base wrote node n id given pid l m) (hrec : Records ps wrote)
  (hquiet : ∀ s pid number next, ps.next s ≠ .signal pid number next)

include h hrec hquiet

theorem moves (hmoves : Moves ps m m₁) (hnew : OnlyOpens node m.openings.size (fun _ => False) m₁) :
    Lent ps denote base wrote node n id given pid l m₁ := by
  obtain ⟨k, o, f, closed, hk, houtlet, hheld⟩ := h.held
  obtain ⟨o', houtlet'⟩ := houtlet.moves hquiet h.grounded hrec hheld hmoves hnew
  refine ⟨h.grounded.of_later (.of_moves hquiet hmoves), k, o', f, closed, ?_, houtlet',
    hheld.moves hrec hquiet hmoves hnew⟩
  rw [Machine.indexOf?_of_layout (layout_of_moves hquiet hmoves), hk]

/-- The interpreter is answered something that concerns no process. -/
theorem answer {host : Host S} (hps : host.programs = ps) {e : Event} (he : e.request.isAside = true)
    (hkeeps : Request.Keeps n id true e.request) (hanswer : host.answer e.request m = (e.outcome, m₁))
    (hnew : OnlyOpens node m.openings.size (fun _ => False) m₁) :
    Lent ps denote base wrote node n id given pid l m₁ := by
  subst hps
  obtain ⟨k, o, f, closed, hk, houtlet, hheld⟩ := h.held
  have hread : ∀ pid, e.request ≠ .readOutput pid := fun pid hread => by
    rw [hread] at he
    cases he
  have hnet := host.answer_net (.inl he) hread m
  have hheld' := hheld.answer host hrec hquiet hkeeps (by rw [hanswer]; exact hnew)
  rw [hanswer] at hnet hheld'
  rw [show Event.handed (some id) ⟨e.request, (e.outcome, m₁).1⟩ = [] from
    Event.handed_of_isAside he _, List.append_nil] at hheld'
  refine ⟨h.grounded.of_net hnet, k, o, f, _, ?_, houtlet.of_net hnet, hheld'⟩
  rw [Machine.indexOf?_of_layout (layout_of_net hnet), hk]

/-- What concerns no process leaves it as it is. -/
theorem aside (hes : es.Aside) (hkeeps : ∀ e ∈ es, Request.Keeps n id true e.request)
    (hplays : Plays ps m es m') (hnew : OnlyOpens node m.openings.size (fun _ => False) m') :
    Lent ps denote base wrote node n id given pid l m' := by
  induction es generalizing m with
  | nil => exact h.moves hrec hquiet hplays hnew
  | cons e es ih =>
    obtain ⟨m₁, m₂, host, hmoves, hps, hanswer, hrest⟩ := hplays
    have hgrown₁ := Grown.of_moves hquiet hmoves
    have hgrown₂ := Grown.of_answer host (hps ▸ hquiet) e.request m₁
    have hgrown₃ := Grown.of_plays hquiet hrest
    rw [hanswer] at hgrown₂
    have h₁ := h.moves hrec hquiet hmoves ((hgrown₂.trans hgrown₃).onlyOpens hnew)
    have h₂ := h₁.answer hrec hquiet hps (hes e (.head _)) (hkeeps e (.head _)) hanswer
      (hgrown₃.onlyOpens (hnew.later hgrown₁))
    exact ih h₂ (fun e he => hes e (.tail _ he)) (fun e he => hkeeps e (.tail _ he)) hrest
      (hnew.later (hgrown₁.trans hgrown₂))

/-- The process is linked to one that was started before it. -/
theorem linked {l₀ : Layout} (hlaid : Laid base l₀) (hextends : l₀.Extends l)
    (hrelays : l.relays = l₀.relays) {before : Predecessor} (hleads : Leads base l₀ before)
    {argv : List String} {streams : Streams} {who : Identity}
    (hentered : Entered l₀ l argv streams pid who) (hmissing : before = .missing → streams.stdin = .null)
    (hrunning : ∀ up, before = .running up → streams.stdin = .pipe) {chunk : Int} (hchunk : 1 ≤ chunk)
    {relays : List RelayId} (hlinked : Linked chunk before (some pid) relays es) (hplays : Plays ps m es m')
    (hnew : OnlyOpens node m.openings.size (fun _ => False) m') :
    ∃ l', Lent ps denote base wrote node n id given pid l' m' ∧ l.Extends l' ∧ Fed base l' before who := by
  cases before with
  | none =>
    obtain ⟨-, rfl⟩ := hlinked
    exact ⟨l, h.moves hrec hquiet hplays hnew, .refl l, trivial⟩
  | missing =>
    obtain ⟨-, rfl⟩ := hlinked
    obtain ⟨-, -, -, hstreams, -⟩ := hentered
    exact ⟨l, h.moves hrec hquiet hplays hnew, .refl l,
      (congrArg Streams.stdin hstreams).trans (hmissing rfl)⟩
  | running up =>
    obtain ⟨relay, -, rfl⟩ := hlinked
    obtain ⟨m₁, m₂, host, hmoves, hps, hanswer, hmoves'⟩ := hplays
    have hquiet' : ∀ s pid number next, host.programs.next s ≠ .signal pid number next := hps ▸ hquiet
    have hgrown₁ := Grown.of_moves hquiet hmoves
    have hgrown₂ := Grown.of_answer host hquiet' (.startRelay up (some pid) chunk) m₁
    have hgrown₃ := Grown.of_moves hquiet hmoves'
    rw [hanswer] at hgrown₂
    have h₁ := h.moves hrec hquiet hmoves ((hgrown₂.trans hgrown₃).onlyOpens hnew)
    obtain ⟨k, o, f, closed, hk, houtlet, hheld⟩ := h₁.held
    obtain ⟨source, hsource, heq⟩ := host.answer_startRelay hanswer
    obtain rfl : (m₁.piped k o).layout = l := houtlet.layout
    have hghost := houtlet.leads hlaid hextends hleads hentered hsource
    have hpiped : m₂.piped k o = { m₁.piped k o with
        relays := (m₁.piped k o).relays.push
          { source, sink := (some pid).bind (m₁.piped k o).inputPipe?, chunk } } := by
      rw [heq, Option.bind_some, Option.bind_some, Machine.inputPipe?_piped]
      rfl
    obtain ⟨hsound, hsupplied⟩ := houtlet.sound.relays_entered hlaid hextends hrelays hleads
      (fun n hn => ⟨who, by cases hn; exact hentered⟩) (hrunning _ rfl) hchunk hghost hpiped
    have hheld₂ := hheld.answer host (hps ▸ hrec) hquiet' (r := .startRelay up (some pid) chunk) trivial
      (by rw [hanswer]; exact hgrown₃.onlyOpens (hnew.later hgrown₁))
    have hgrounded₂ := h₁.grounded.of_answer host hquiet' (.startRelay up (some pid) chunk)
    rw [hanswer] at hheld₂ hgrounded₂
    have h₂ : Lent ps denote base wrote node n id given pid (m₂.piped k o).layout m₂ := by
      refine ⟨hgrounded₂, k, o, f, _, ?_, ⟨?_, ?_, hsound, rfl, houtlet.readerOpen, houtlet.capacity, ?_⟩,
        by simpa only [Event.handed, List.append_nil] using hheld₂⟩
      all_goals rw [heq]
      exacts [hk, houtlet.there, houtlet.base_le, houtlet.received]
    exact ⟨_, h₂.moves hrec hquiet hmoves' (hnew.later (hgrown₁.trans hgrown₂)), hsupplied.grows,
      hsupplied.fed pid who rfl hentered⟩

end Lent

/-- The processes of a number have come to their ends. -/
def Machine.Ended (m : Machine S) (pid : ProcessId) : Prop :=
  ∀ (k : Nat) (p : Process S), m.processes[k]? = some p → p.pid = pid → p.Ended

/-- **When the process has ended**, the file holds what was given and what the stages make. -/
theorem Lent.ended {node : Inode} {n : Nat} {id : FileId} {given : Bytes} {pid : ProcessId} {chunk : Int}
    {x : Flow} {stages : List Shell.Stage} (h : Lent ps denote base wrote node n id given pid l m)
    (hpaced : Paced base chunk m.layout) (hchained : Chained base l .none stages)
    (hlast : Shell.lastPid stages = some pid) (hx : none ∉ stages.map Shell.Stage.pid → ∀ pid,
      (stages.map Shell.Stage.pid).head? = some (some pid) → m.Reads pid x) (hended : m.Ended pid) :
    ∃ bytes, m.files.content? node = some (given ++ bytes) ∧
      (made denote chunk x (stages.map fun stage => (stage.command, stage.pid))).IsAll bytes := by
  obtain ⟨k, o, f, closed, hk, houtlet, hheld⟩ := h.held
  obtain ⟨p, hp, rfl⟩ := Machine.process_of_indexOf? hk
  obtain ⟨hnothing, hall⟩ := houtlet.ended hp (hended k p hp rfl)
  refine ⟨wrote p.program, (hheld.released hp hnothing).content (.inl rfl), ?_⟩
  have hne : stages ≠ [] := by
    rintro rfl
    cases hlast
  obtain rfl : (m.piped k o).layout = l := houtlet.layout
  have hcomes := hchained.makes houtlet.sound (hpaced.of_relays rfl) hne
    fun hall pid hpid => Machine.Reads.piped (hx hall pid hpid)
  rw [lastOf_eq hne, hlast] at hcomes
  obtain ⟨k', p', y, hp', hpid, hy, heq⟩ := hcomes
  -- the process that it comes from is the one that writes to the file
  have hview := Machine.processes_piped (k := k) (o := o) hp
  rw [show m.view k k p = p.piped m.pipes.size from if_pos rfl] at hview
  obtain rfl : k' = k := houtlet.sound.laid.pid_inj (Machine.layout_process hview)
    (Machine.layout_process hp') hpid _ rfl houtlet.base_le
  cases hview.symm.trans hp'
  rw [heq]
  exact hall y hy

/-! ### The last stage -/

section

variable {node : Inode} {n f : Nat} {id : FileId} {given : Bytes} {closed : Bool}

theorem Request.keeps_of_isStarting {lent : Bool} {r : Request} (h : r.isStarting = true)
    (hnot : ∀ argv cwd streams, r ≠ .spawn argv cwd streams) : Request.Keeps n id lent r := by
  cases r with
  | spawn argv cwd streams => exact absurd rfl (hnot argv cwd streams)
  | startRelay | log | report => trivial
  | _ => cases h

/-- What starting a process does aside keeps to itself. -/
theorem keeps_of_aside {lent : Bool} (hes : es.Aside) (hstarting : es.Only Request.isStarting) :
    ∀ e ∈ es, Request.Keeps n id lent e.request := by
  refine fun e he => Request.keeps_of_isStarting (hstarting e he) fun argv cwd streams hspawn => ?_
  have haside := hes e he
  rw [hspawn] at haside
  cases haside

/-- Starting processes and relays gives nothing to the file. -/
theorem Held.starting {lent : Bool} {k : Option Nat} (h : Held wrote node n f id lent k closed given m)
    (hrec : Records ps wrote) (hquiet : ∀ s pid number next, ps.next s ≠ .signal pid number next)
    (hes : es.Only Request.isStarting) (hkeeps : ∀ e ∈ es, Request.Keeps n id lent e.request)
    (hplays : Plays ps m es m') (hnew : OnlyOpens node m.openings.size (fun _ => False) m') :
    Held wrote node n f id lent k closed given m' := by
  have h' := h.plays hrec hquiet hkeeps hplays hnew
  have hhanded : es.handed (some id) = [] := Trace.handed_of_only hes _ fun e he => by
    obtain ⟨r, o⟩ := e
    cases r <;> first | rfl | cases he
  have hcloses : es.any (·.request.closes id) = false := List.any_eq_false.2 fun e he => by
    rw [Request.closes_of_isStarting (hes e he)]
    exact Bool.false_ne_true
  rw [hhanded, hcloses, List.append_nil, Bool.or_false] at h'
  exact h'

variable (hrec : Records ps wrote) (hquiet : ∀ s pid number next, ps.next s ≠ .signal pid number next)
  (hheld : Held wrote node n f id true none closed given m) {command : Command} {streams : Streams}
  {s : Session} {pid : ProcessId} (hin : Stream.Avoids n (some id) streams.stdin)
  (hout : streams.stdout = .file id) (herr : Stream.Avoids n (some id) streams.stderr)
  (hstarting : es.Only Request.isStarting) (hplays : Plays ps m es m')
  (hnew : OnlyOpens node m.openings.size (fun _ => False) m')

include hrec hquiet hheld hstarting hplays hnew

/-- Up to the attempt to start a process nobody has the file. -/
theorem Held.attempted {pid : Option ProcessId} (hstarted : Started command streams s pid es) :
    ∃ (host : Host S) (m₂ m₃ : Machine S) (before after : Trace) (out : Outcome ProcessId),
      host.programs = ps ∧ Plays ps m before m₂ ∧ before.Aside ∧
      Held wrote node n f id true none closed given m₂ ∧
      host.answer (.spawn (Platform.direct.arguments command.argv) s.cwd streams) m₂ = (out, m₃) ∧
      Shell.Brings pid out ∧ Plays ps m₃ after m' ∧ after.Aside ∧ after.Only Request.isStarting ∧
      OnlyOpens node m₃.openings.size (fun _ => False) m' := by
  obtain ⟨before, after, out, rfl, hbefore, hafter, hbrings⟩ := hstarted
  obtain ⟨hstarting₁, hstarting₂⟩ := Trace.only_append.1 hstarting
  have hstarting₃ := (Trace.only_cons.1 hstarting₂).2
  obtain ⟨m₁, hplays₁, m₂, m₃, host, hmoves, rfl, hanswer, hplays₃⟩ := plays_append.1 hplays
  have hplays₂ : Plays host.programs m (before ++ []) m₂ := plays_append.2 ⟨m₁, hplays₁, hmoves⟩
  rw [List.append_nil] at hplays₂
  have hgrown₂ := Grown.of_plays hquiet hplays₂
  have hgrown₃ := Grown.of_answer host hquiet
    (.spawn (Platform.direct.arguments command.argv) s.cwd streams) m₂
  rw [hanswer] at hgrown₃
  have hgrown₄ := Grown.of_plays hquiet hplays₃
  have h₂ := hheld.starting hrec hquiet hstarting₁ (keeps_of_aside hbefore hstarting₁) hplays₂
    ((hgrown₃.trans hgrown₄).onlyOpens hnew)
  exact ⟨host, m₂, m₃, before, after, out, rfl, hplays₂, hbefore, h₂, hanswer, hbrings, hplays₃, hafter,
    hstarting₃, hnew.later (hgrown₂.trans hgrown₃)⟩

include hin hout herr

/-- If the last process of a line cannot be started, nobody gets the file. -/
theorem Held.unstarted (hstarted : Started command streams s none es) :
    Held wrote node n f id true none closed given m' := by
  obtain ⟨host, m₂, m₃, -, after, out, rfl, -, -, h₂, hanswer, ⟨refusal, rfl, -⟩, hplays₃, hafter,
    hstarting₃, hnew₃⟩ := hheld.attempted hrec hquiet hstarting hplays hnew hstarted
  rcases h₂.tried hrec hin hout herr hanswer with ⟨-, h₃⟩ | ⟨pid, hpid, -⟩
  · exact h₃.starting hrec hquiet hstarting₃ (keeps_of_aside hafter hstarting₃) hplays₃ hnew₃
  · cases hpid

/-- **The last process of a line** gets the file. -/
theorem Sound.lends (h : Sound ps denote base (fun _ => []) m) (hgrounded : m.Grounded)
    (hdenotes : Denotes ps denote s.cwd command) (hstarted : Started command streams s (some pid) es) :
    ∃ l who, Lent ps denote base wrote node n id given pid l m' ∧ m.layout.Extends l ∧
      l.relays = m.layout.relays ∧
        Entered m.layout l command.argv { streams with stdout := .pipe } pid who := by
  obtain ⟨host, m₂, m₃, before, after, out, rfl, hplays₂, hbefore, hheld₂, hanswer, rfl, hplays₃, hafter,
    hstarting₃, hnew₃⟩ := hheld.attempted hrec hquiet hstarting hplays hnew hstarted
  obtain ⟨h₂, hlayout₂⟩ := h.aside hquiet hplays₂ (apart_of_aside hbefore)
  have hgrounded₂ := hgrounded.of_plays hquiet hplays₂
  rcases hheld₂.tried hrec hin hout herr hanswer with ⟨⟨refusal, hraised⟩, -⟩ | ⟨pid', hpid, hheld₃, -, hk⟩
  · cases hraised
  cases hpid
  rcases host.answer_spawn hanswer with ⟨refusal, hraised, -⟩ | ⟨launch, hfind, heq⟩
  · cases hraised
  have hfile : streams.stdout ≠ .pipe := by
    rw [hout]
    nofun
  obtain ⟨hcomputes, hfresh, -⟩ := hdenotes m₂.files launch hfind
  obtain ⟨l, who, houtlet, hextends, hrelays, hentered⟩ := Outlet.spawned h₂ s.cwd hfile hcomputes hfresh
    (hrec.launch hfind).1
  have hgrounded₃ := hgrounded₂.addProcess command.argv s.cwd streams launch
  cases heq
  have h₃ : Lent host.programs denote base wrote node n id given _ l _ :=
    ⟨hgrounded₃, _, _, f, closed, hk hgrounded₂, houtlet, hheld₃⟩
  rw [hlayout₂] at hextends hrelays hentered
  refine ⟨l, who, h₃.aside hrec hquiet hafter (keeps_of_aside hafter hstarting₃) hplays₃ hnew₃, hextends,
    hrelays, ?_⟩
  rw [(m₂.processes_addProcess (Platform.direct.arguments command.argv) s.cwd streams launch).1]
  exact hentered

end

/-! ### Starting the stages -/

/-- An attempt to start a process is made with just the streams that it is to have. -/
theorem streams_of_started {command : Command} {streams streams' : Streams} {s : Session}
    {pid : Option ProcessId} (hstarted : Started command streams s pid es) {e : Event} (he : e ∈ es)
    {argv : List String} {cwd : Path} (hspawn : e.request = .spawn argv cwd streams') :
    streams' = streams := by
  obtain ⟨before, after, o, rfl, hbefore, hafter, -⟩ := hstarted
  have hnot : ∀ {es : Trace}, es.Aside → e ∉ es := by
    intro es hes hmem
    have haside := hes e hmem
    rw [hspawn] at haside
    cases haside
  rcases List.mem_append.1 he with he | he
  · exact absurd he (hnot hbefore)
  · rcases List.mem_cons.1 he with rfl | he
    · exact (Request.spawn.inj hspawn).2.2.symm
    · exact absurd he (hnot hafter)

/-- A relay is no process. -/
theorem ne_spawn_of_linked {chunk : Int} {before : Predecessor} {pid : Option ProcessId}
    {relays : List RelayId} (hlinked : Linked chunk before pid relays es) :
    ∀ e ∈ es, ∀ argv cwd streams, e.request ≠ .spawn argv cwd streams := by
  intro e he argv cwd streams hspawn
  cases before with
  | running up =>
    obtain ⟨relay, -, rfl⟩ := hlinked
    rw [List.mem_singleton.1 he] at hspawn
    cases hspawn
  | none | missing =>
    rw [hlinked.2] at he
    cases he

theorem lastPid_cons {stage : Shell.Stage} {stages : List Shell.Stage} (hne : stages ≠ []) :
    Shell.lastPid (stage :: stages) = Shell.lastPid stages := by
  obtain ⟨next, rest, rfl⟩ := List.exists_cons_of_ne_nil hne
  rfl

section

variable {node : Inode} {n f : Nat} {id : FileId} {given : Bytes} {closed : Bool} {chunk : Int}
  {s : Session} {before : Predecessor} {plan : Plan} {pid : Option ProcessId} {relays : List RelayId}
  {es₁ es₂ : Trace}

/-- Starting a stage that writes to a pipe, and the relay before it, keeps the file to the
interpreter. -/
theorem keeps_of_stage {command : Command} {streams : Streams}
    (hin : Stream.Avoids n (some id) streams.stdin) (hpipe : streams.stdout = .pipe)
    (herr : Stream.Avoids n (some id) streams.stderr) (hstarted : Started command streams s pid es₁)
    (hlinked : Linked chunk before pid relays es₂) (hstarting : (es₁ ++ es₂).Only Request.isStarting) :
    ∀ e ∈ es₁ ++ es₂, Request.Keeps n id true e.request := by
  intro e he
  by_cases hspawn : ∃ argv cwd streams, e.request = .spawn argv cwd streams
  · obtain ⟨argv, cwd, streams', hspawn⟩ := hspawn
    rcases List.mem_append.1 he with he | he
    · rw [hspawn]
      obtain rfl := streams_of_started hstarted he hspawn
      exact ⟨hin, by rw [hpipe]; trivial, herr⟩
    · exact absurd hspawn (ne_spawn_of_linked hlinked e he argv cwd streams')
  · push Not at hspawn
    exact Request.keeps_of_isStarting (hstarting e he) hspawn

/-- **The last stage of a background line has been started.** Its process has the output file and is
linked to the one before it; if there is none, nobody has the file. -/
theorem Sound.lent_last (hrec : Records ps wrote)
    (hquiet : ∀ s pid number next, ps.next s ≠ .signal pid number next) (hchunk : 1 ≤ chunk)
    (h : Sound ps denote base (fun _ => []) m) (hgrounded : m.Grounded)
    (hheld : Held wrote node n f id true none closed given m)
    (hdenotes : Denotes ps denote s.cwd plan.command) (hstdin : before ≠ .none → plan.wiring.stdin = .pipe)
    (hin : Stream.Avoids n (some id) (Shell.stageStreams false before plan true).stdin)
    (hfile : (Shell.stageStreams false before plan true).stdout = .file id)
    (herr : Stream.Avoids n (some id) (Shell.stageStreams false before plan true).stderr)
    (hstarted : Started plan.command (Shell.stageStreams false before plan true) s pid es₁)
    (hlinked : Linked chunk before pid relays es₂) (hstarting : (es₁ ++ es₂).Only Request.isStarting)
    (hleads : Leads base m.layout before) (hplays : Plays ps m (es₁ ++ es₂) m')
    (hnew : OnlyOpens node m.openings.size (fun _ => False) m') :
    (pid = none → Held wrote node n f id true none closed given m') ∧
      ∀ number, pid = some number → ∃ l, Lent ps denote base wrote node n id given number l m' ∧
        m.layout.Extends l ∧ Chained base l before [⟨plan.command, pid⟩] := by
  obtain ⟨hstarting₁, hstarting₂⟩ := Trace.only_append.1 hstarting
  obtain ⟨m₁, hplays₁, hplays₂⟩ := plays_append.1 hplays
  have hgrown₁ := Grown.of_plays hquiet hplays₁
  have hnew₁ := (Grown.of_plays hquiet hplays₂).onlyOpens hnew
  cases pid with
  | none =>
    refine ⟨fun _ => ?_, nofun⟩
    have h₁ := hheld.unstarted hrec hquiet hin hfile herr hstarting₁ hplays₁ hnew₁ hstarted
    refine h₁.starting hrec hquiet hstarting₂ (fun e he => ?_) hplays₂ (hnew.later hgrown₁)
    exact Request.keeps_of_isStarting (hstarting₂ e he) (ne_spawn_of_linked hlinked e he)
  | some pid =>
    refine ⟨nofun, ?_⟩
    rintro _ ⟨⟩
    have hmissing : before = .missing → (Shell.stageStreams false before plan true).stdin = .null := by
      rintro rfl
      rfl
    have hrunning : ∀ up, before = .running up →
        (Shell.stageStreams false before plan true).stdin = .pipe := by
      rintro up rfl
      exact stageStreams_running (hstdin nofun)
    obtain ⟨l, who, h₁, hextends₁, hrelays₁, hentered⟩ := h.lends hrec hquiet hheld hin hfile herr
      hstarting₁ hplays₁ hnew₁ hgrounded hdenotes hstarted
    obtain ⟨l', h₂, hextends₂, hfed⟩ := h₁.linked hrec hquiet h.laid hextends₁ hrelays₁ hleads
      hentered hmissing hrunning hchunk hlinked hplays₂ (hnew.later hgrown₁)
    obtain ⟨⟨k, hk⟩, hpid, hargv, -, ⟨j, hj, hle⟩, -⟩ := hentered
    exact ⟨l', h₂, hextends₁.trans hextends₂, .running (hextends₂.process hk) hpid hargv hj
      (Nat.le_trans h.laid.base_le hle) hfed (.nil _)⟩

end

/-- **The stages of a background line have been started.** The last one has the output file, if it could be
started, and each stage that has a process is linked to the one before it. -/
theorem Sound.lent_launched {node : Inode} {n f : Nat} {id : FileId} {given : Bytes} {closed : Bool}
    {chunk : Int} {s : Session} {before : Predecessor} {plans : List Plan} {stages : List Shell.Stage}
    {relays : List RelayId} (hrec : Records ps wrote)
    (hquiet : ∀ s pid number next, ps.next s ≠ .signal pid number next) (hchunk : 1 ≤ chunk)
    (hlaunched : Launched false chunk s before plans stages relays es)
    (hstarting : es.Only Request.isStarting) (h : Sound ps denote base (fun _ => []) m)
    (hgrounded : m.Grounded) (hheld : Held wrote node n f id true none closed given m)
    (hdenotes : ∀ plan ∈ plans, Denotes ps denote s.cwd plan.command) (hwired : Wired before plans)
    (hfree : ∀ plan ∈ plans, ∀ before last,
      Stream.Avoids n (some id) (Shell.stageStreams false before plan last).stdin ∧
        Stream.Avoids n (some id) (Shell.stageStreams false before plan last).stderr)
    (hlast : ∀ plan before, plans.getLast? = some plan →
      (Shell.stageStreams false before plan true).stdout = .file id)
    (hleads : Leads base m.layout before) (hplays : Plays ps m es m')
    (hnew : OnlyOpens node m.openings.size (fun _ => False) m') :
    (Shell.lastPid stages = none → Held wrote node n f id true none closed given m') ∧
      ∀ pid, Shell.lastPid stages = some pid → ∃ l, Lent ps denote base wrote node n id given pid l m' ∧
        m.layout.Extends l ∧ Chained base l before stages := by
  induction hlaunched generalizing m with
  | nil before => exact ⟨fun _ => hheld.moves hrec hquiet hplays hnew, nofun⟩
  | @cons before plan plans pid stages _ _ es₁ es₂ es₃ hstarted hlinked hrest ih =>
    obtain ⟨hstdin, hout, hwired'⟩ := hwired
    obtain ⟨hin, herr⟩ := hfree plan (.head _) before plans.isEmpty
    have hplan := hdenotes plan (.head _)
    cases hstages : plans with
    | nil =>
      subst hstages
      cases hrest
      rw [List.append_nil] at hstarting hplays
      exact h.lent_last hrec hquiet hchunk hgrounded hheld hplan hstdin hin (hlast plan before rfl) herr
        hstarted hlinked hstarting hleads hplays hnew
    | cons next rest =>
      obtain ⟨hstarting', hstarting₃⟩ := Trace.only_append.1 hstarting
      obtain ⟨m₂, hplays', hplays₃⟩ := plays_append.1 hplays
      have hgrown' := Grown.of_plays hquiet hplays'
      have hgrown₃ := Grown.of_plays hquiet hplays₃
      -- the streams of this stage are those that it would have in the foreground
      have hsame : Shell.stageStreams false before plan plans.isEmpty =
          Shell.stageStreams true before plan plans.isEmpty := by
        rw [hstages]
        rfl
      have hpipe : (Shell.stageStreams false before plan plans.isEmpty).stdout = .pipe := by
        rw [hsame]
        exact stageStreams_stdout hout
      obtain ⟨h₂, hextends₂, hleads₂, hplace⟩ := h.stage hquiet hplan hpipe (fun hb => by rw [hb]; rfl)
        (fun up hb => by rw [hb] at hstdin ⊢; exact stageStreams_running (hstdin nofun)) hchunk hleads
        hstarted hlinked hplays'
      have hheld₂ := hheld.starting hrec hquiet hstarting'
        (keeps_of_stage hin hpipe herr hstarted hlinked hstarting') hplays' (hgrown₃.onlyOpens hnew)
      have hlast' : ∀ plan before, plans.getLast? = some plan →
          (Shell.stageStreams false before plan true).stdout = .file id := by
        intro plan' before hplan
        refine hlast plan' before ?_
        rw [hstages] at hplan ⊢
        exact hplan
      obtain ⟨hnone, hsome⟩ := ih hstarting₃ h₂ (hgrounded.of_plays hquiet hplays') hheld₂
        (fun plan hplan => hdenotes plan (.tail _ hplan)) (hwired' pid)
        (fun plan hplan => hfree plan (.tail _ hplan)) hlast' hleads₂ hplays₃ (hnew.later hgrown')
      rw [lastPid_cons (List.length_pos_iff.1 (by rw [hrest.length_eq, hstages]; exact Nat.succ_pos _))]
      refine ⟨hnone, fun number hnumber => ?_⟩
      obtain ⟨l, hlent, hextends, hchained⟩ := hsome number hnumber
      refine ⟨l, hlent, hextends₂.trans hextends, ?_⟩
      cases pid with
      | none => exact .missing hchained
      | some pid =>
        obtain ⟨k, j, who, hk, hpid, hargv, hj, hbase, hfed⟩ := hplace pid rfl
        exact .running (hextends.process hk) hpid hargv hj hbase (hfed.mono hextends) hchained

end LineShell.Host
