import LineShell.Proofs.Composition
import LineShell.Proofs.OutputPipe

namespace LineShell.Host

open Text (Bytes)
open Shell (Plan Started Linked Launched TapsFrom Gathered)

/-!
# What the last stage writes

In a foreground pipeline the interpreter reads what the last stage writes, up to its end.

* `Spout.launched` — when the stages have been started, the last one writes to a pipe of its own;
* `Spout.tapped`, `Spout.emptied` — what is read from it up to the end is all that it writes;
* `Spout.gathered` — so that is what is handed on.
-/

variable {S : Type} {ps : Programs S} {wrote : S → Bytes} {m m₁ m' : Machine S} {k j : Nat}
  {read : Bytes} {es es' : Trace} {pid : ProcessId}

/-! ### Where a process stands -/

namespace Machine

/-- Where a process stands is told by the layout. -/
theorem indexOf?_of_layout (h : m₁.layout = m.layout) (pid : ProcessId) :
    m₁.indexOf? pid = m.indexOf? pid := by
  have hlayout : ∀ m : Machine S, m.indexOf? pid = m.layout.processes.findIdx? (·.pid == pid) := by
    intro m
    unfold layout
    rw [Array.findIdx?_map]
    rfl
  rw [hlayout m₁, h, hlayout m]

theorem process_of_indexOf? (h : m.indexOf? pid = some k) :
    ∃ p, m.processes[k]? = some p ∧ p.pid = pid := by
  obtain ⟨hk, hpid, -⟩ := Array.findIdx?_eq_some_iff_getElem.1 h
  exact ⟨_, Array.getElem?_eq_getElem hk, by simpa using hpid⟩

theorem Grounded.pid_lt (h : m.Grounded) (hk : m.indexOf? pid = some k) : pid < m.nextPid := by
  obtain ⟨p, hp, rfl⟩ := process_of_indexOf? hk
  exact (h.process hp).1

/-- A new process comes last, and is the only one of its number. -/
theorem Grounded.indexOf?_addProcess (h : m.Grounded) (argv : List String) (cwd : Path)
    (streams : Streams) (launch : Launch S) :
    (m.addProcess argv cwd streams launch).2.indexOf? (m.addProcess argv cwd streams launch).1 =
      some m.processes.size := by
  obtain ⟨hfirst, q, hprocesses, hpid, -⟩ := m.processes_addProcess argv cwd streams launch
  have hnone : m.processes.findIdx? (·.pid == m.nextPid) = none := by
    refine Array.findIdx?_eq_none_iff.2 fun p hp => beq_false_of_ne ?_
    obtain ⟨i, hi⟩ := Array.mem_iff_getElem?.1 hp
    exact Int.ne_of_lt (h.process hi).1
  unfold indexOf?
  rw [hfirst, hprocesses, Array.findIdx?_push, hnone, hpid, beq_self_eq_true, if_pos rfl]
  rfl

end Machine

namespace Spout

variable (hrec : Records ps wrote)
  (hquiet : ∀ s pid number next, ps.next s ≠ .signal pid number next)

include hrec hquiet

/-! ### Starting the stages -/

/-- What concerns no process leaves the pipe as it is. -/
theorem aside (h : Spout wrote k j read m) (hes : es.Aside) (hplays : Plays ps m es m') :
    Spout wrote k j read m' ∧ m'.layout = m.layout := by
  induction es generalizing m with
  | nil => exact ⟨h.moves hrec hquiet hplays, layout_of_moves hquiet hplays⟩
  | cons e es ih =>
    obtain ⟨m₁, m₂, host, hmoves, rfl, hanswer, hrest⟩ := hplays
    obtain ⟨hkind, hread⟩ := apart_of_aside hes e (.head _)
    have hnet := host.answer_net hkind hread m₁
    rw [hanswer] at hnet
    obtain ⟨h', hlayout⟩ := ih ((h.moves hrec hquiet hmoves).of_net hnet)
      (fun e he => hes e (.tail _ he)) hrest
    exact ⟨h', hlayout.trans ((layout_of_net hnet).trans (layout_of_moves hquiet hmoves))⟩

/-- A process has been started that writes to a new pipe. -/
theorem started (hgrounded : m.Grounded) {command : Command} {streams : Streams} {s : Session}
    (hout : streams.stdout = .pipe) (hstarted : Started command streams s (some pid) es)
    (hplays : Plays ps m es m') :
    ∃ k j, Spout wrote k j [] m' ∧ m'.indexOf? pid = some k ∧ pid = m.nextPid := by
  obtain ⟨before, after, _, rfl, hbefore, hafter, rfl⟩ := hstarted
  obtain ⟨m₀, hplays₀, m₁, m₂, host, hmoves, rfl, hanswer, hplays₂⟩ := plays_append.1 hplays
  -- up to then nobody has come
  have hlater₀ : Later m m₀ := .of_plays hquiet hplays₀ <| hbefore.mono fun r hr => by
    cases r <;> first | rfl | cases hr
  have hlater : Later m m₁ := hlater₀.trans (.of_moves hquiet hmoves)
  have hnext : m₁.nextPid = m.nextPid := congrArg Layout.nextPid hlater.layout
  have hgrounded₁ := hgrounded.of_later hlater
  rcases host.answer_spawn hanswer with ⟨f, hraised, -⟩ | ⟨launch, hfind, heq⟩
  · cases hraised
  · obtain ⟨hpid, seat, p, hspawned⟩ := m₁.addProcess_spawned (Platform.direct.arguments command.argv)
      s.cwd launch hout
    obtain ⟨hwrote, hreceived, hbuffer, hopen⟩ := hrec.launch hfind
    have hindex := hgrounded₁.indexOf?_addProcess (Platform.direct.arguments command.argv) s.cwd streams
      launch
    cases heq
    obtain ⟨h₂, hlayout⟩ := aside hrec hquiet
      (spawned hgrounded₁ hspawned hwrote hreceived hbuffer hopen) hafter hplays₂
    rw [← hnext, ← hpid]
    refine ⟨_, _, h₂, ?_, rfl⟩
    rw [Machine.indexOf?_of_layout hlayout]
    exact hindex

/-- A process is linked to one that was started before it. -/
theorem linked (h : Spout wrote k j read m) (hk : m.indexOf? pid = some k)
    {before : Shell.Predecessor} (hbefore : ∀ up, before = .running up → up ≠ pid) {chunk : Int}
    {next : Option ProcessId} {relays : List RelayId} (hlinked : Linked chunk before next relays es)
    (hplays : Plays ps m es m') : Spout wrote k j read m' ∧ m'.indexOf? pid = some k := by
  have hnone : es = [] → Spout wrote k j read m' ∧ m'.indexOf? pid = some k := by
    rintro rfl
    refine ⟨h.moves hrec hquiet hplays, ?_⟩
    rw [Machine.indexOf?_of_layout (layout_of_moves hquiet hplays), hk]
  cases before with
  | none => exact hnone hlinked.2
  | missing => exact hnone hlinked.2
  | running up =>
    obtain ⟨relay, -, rfl⟩ := hlinked
    obtain ⟨m₁, m₂, host, hmoves, rfl, hanswer, hmoves'⟩ := hplays
    have hk₁ : m₁.indexOf? pid = some k := by
      rw [Machine.indexOf?_of_layout (layout_of_moves hquiet hmoves), hk]
    have hwriter : m₁.indexOf? up ≠ some k := by
      intro hup
      obtain ⟨p, hp, rfl⟩ := Machine.process_of_indexOf? hk₁
      obtain ⟨q, hq, rfl⟩ := Machine.process_of_indexOf? hup
      cases hp.symm.trans hq
      exact hbefore _ rfl rfl
    have h₂ : Spout wrote k j read (m₁.addRelay up next chunk).2 :=
      (h.moves hrec hquiet hmoves).relayed hwriter
    obtain ⟨source, -, rfl⟩ := host.answer_startRelay hanswer
    have hrelayed : m₁.addRelay up next chunk = (.returned relay, { m₁ with
        relays := m₁.relays.push { source, sink := next.bind m₁.inputPipe?, chunk } }) := hanswer
    rw [hrelayed] at h₂
    refine ⟨h₂.moves hrec hquiet hmoves', ?_⟩
    rw [Machine.indexOf?_of_layout (layout_of_moves hquiet hmoves')]
    exact hk₁

/-- **The stages have been started.** The last one writes to a pipe that nobody reads from. -/
theorem launched {before : Shell.Predecessor} {chunk : Int} {s : Session} {plans : List Plan}
    {stages : List Shell.Stage} {relays : List RelayId}
    (hlaunched : Launched true chunk s before plans stages relays es) (hgrounded : m.Grounded)
    (hwired : Wired before plans) (hbefore : ∀ up, before = .running up → up < m.nextPid)
    (hplays : Plays ps m es m') (hlast : Shell.lastPid stages = some pid) :
    ∃ k j, Spout wrote k j [] m' ∧ m'.indexOf? pid = some k := by
  induction hlaunched generalizing m with
  | nil => cases hlast
  | @cons before plan plans next stages _ _ es₁ es₂ es₃ hstarted hlinked hrest ih =>
    obtain ⟨-, hout, hwired'⟩ := hwired
    obtain ⟨m₂, hplays', hplays₃⟩ := plays_append.1 hplays
    obtain ⟨m₁, hplays₁, hplays₂⟩ := plays_append.1 hplays'
    have hgrounded₂ := hgrounded.of_plays hquiet hplays'
    have hstage : ∀ n, next = some n → ∃ k j, Spout wrote k j [] m₂ ∧ m₂.indexOf? n = some k := by
      rintro n rfl
      obtain ⟨k, j, h₁, hk, hn⟩ := started hrec hquiet hgrounded (stageStreams_stdout hout) hstarted hplays₁
      refine ⟨k, j, linked hrec hquiet h₁ hk (fun up hup heq => ?_) hlinked hplays₂⟩
      exact Int.ne_of_lt (hbefore up hup) (heq.trans hn)
    cases hstages : stages with
    | nil =>
      -- this is the last stage, and nothing comes behind it
      subst hstages
      cases hrest
      obtain ⟨k, j, h₂, hk⟩ := hstage pid hlast
      refine ⟨k, j, h₂.moves hrec hquiet hplays₃, ?_⟩
      rw [Machine.indexOf?_of_layout (layout_of_moves hquiet hplays₃), hk]
    | cons stage rest =>
      refine ih hgrounded₂ (hwired' next) (fun up hup => ?_) hplays₃ ?_
      · cases next with
        | none => cases hup
        | some n =>
          cases hup
          obtain ⟨k, j, -, hk⟩ := hstage up rfl
          exact hgrounded₂.pid_lt hk
      · rw [hstages] at hlast ⊢
        exact hlast

/-! ### Reading -/

omit hrec hquiet in
theorem outputPipe?_eq (h : Spout wrote k j read m) (hk : m.indexOf? pid = some k) :
    m.outputPipe? pid = some j := by
  obtain ⟨p, o, hp, -, hout, -⟩ := h.flows
  unfold Machine.outputPipe? Machine.process?
  rw [hk, Option.bind_some, hp]
  exact hout

/-- A request of a drain takes out of the pipe what it reads, and the rest stays. -/
theorem tap (h : Spout wrote k j read m) (hk : m.indexOf? pid = some k) {e : Event}
    (he : TapsFrom pid e) {host : Host S} (hps : host.programs = ps)
    (hanswer : host.answer e.request m = (e.outcome, m₁)) :
    Spout wrote k j (read ++ e.reading) m₁ ∧ m₁.layout = m.layout := by
  rcases he with ⟨bytes, rfl⟩ | ⟨hdrain, hread⟩
  · obtain ⟨j', m₂, o, hj', hmoves, ho, hcame⟩ := host.answer_readOutput hanswer
    cases hj'.symm.trans (h.outputPipe?_eq hk)
    rw [hps] at hmoves
    have h₂ := h.moves hrec hquiet hmoves
    have hlayout := layout_of_moves hquiet hmoves
    rcases hcame with ⟨o', hline, rfl⟩ | ⟨rfl, -, rfl⟩
    · exact ⟨h₂.drawn ho (Pipe.shrank_of_readLine hline), (m₂.layout_modifyPipe j _).trans hlayout⟩
    · refine ⟨?_, hlayout⟩
      show Spout wrote k j (read ++ []) _
      rw [List.append_nil]
      exact h₂
  · have hnet := host.answer_net (.inr hdrain) hread m
    rw [hanswer] at hnet
    have hreading : e.reading = [] := by
      obtain ⟨r, o⟩ := e
      cases r with
      | readOutput pid => exact absurd rfl (hread pid)
      | _ => rfl
    rw [hreading, List.append_nil]
    exact ⟨h.of_net hnet, layout_of_net hnet⟩

theorem tapped (h : Spout wrote k j read m) (hk : m.indexOf? pid = some k)
    (htaps : ∀ e ∈ es, TapsFrom pid e) (hplays : Plays ps m es m') :
    Spout wrote k j (read ++ es.readings) m' ∧ m'.indexOf? pid = some k := by
  induction es generalizing m read with
  | nil =>
    show Spout wrote k j (read ++ []) m' ∧ _
    rw [List.append_nil, Machine.indexOf?_of_layout (layout_of_moves hquiet hplays)]
    exact ⟨h.moves hrec hquiet hplays, hk⟩
  | cons e es ih =>
    obtain ⟨m₁, m₂, host, hmoves, hps, hanswer, hrest⟩ := hplays
    have hk₁ : m₁.indexOf? pid = some k := by
      rw [Machine.indexOf?_of_layout (layout_of_moves hquiet hmoves), hk]
    obtain ⟨h₂, hlayout⟩ :=
      tap hrec hquiet (h.moves hrec hquiet hmoves) hk₁ (htaps e (.head _)) hps hanswer
    have hk₂ : m₂.indexOf? pid = some k := by
      rw [Machine.indexOf?_of_layout hlayout, hk₁]
    have h' := ih h₂ hk₂ (fun e he => htaps e (.tail _ he)) hrest
    rw [List.append_assoc] at h'
    exact h'

/-- **The end.** When there is nothing left to be read, the process has written just what has been
read, and has no standard output any more. -/
theorem emptied (h : Spout wrote k j read m) (hk : m.indexOf? pid = some k)
    (hplays : Plays ps m (Event.endOf pid :: es) m') : Mute wrote k read m' := by
  obtain ⟨m₀, m₁, host, hmoves, rfl, hanswer, hrest⟩ := hplays
  have h₀ := h.moves hrec hquiet hmoves
  have hk₀ : m₀.indexOf? pid = some k := by
    rw [Machine.indexOf?_of_layout (layout_of_moves hquiet hmoves), hk]
  obtain ⟨j', m₂, o, hj', hmoves', ho, hcame⟩ := host.answer_readOutput hanswer
  cases hj'.symm.trans (h₀.outputPipe?_eq hk₀)
  rcases hcame with ⟨o', hline, -⟩ | ⟨-, hline, rfl⟩
  · exact absurd rfl (Pipe.ne_nil_of_readLine hline)
  · obtain ⟨p, o', hp, ho', -, hflows⟩ := (h₀.moves hrec hquiet hmoves').flows
    cases ho.symm.trans ho'
    obtain ⟨hbuffer, hclosed, -⟩ := Pipe.ended_of_readLine hline
    have hmute : Mute wrote k read m₁ := by
      refine ⟨p, hp, ?_, fun ⟨fd, c⟩ hd hone => ?_⟩
      · rw [← hflows.received, hflows.unread, hbuffer, List.append_nil]
      · -- while the process holds the pipe there is no end
        obtain rfl : c = .pipe j := hflows.output _ hd hone
        have hopen := hflows.held ⟨fd, hd⟩
        rw [hclosed] at hopen
        cases hopen
    exact hmute.plays hrec hquiet hrest

/-- **What is handed on** is all that the process writes. -/
theorem gathered (h : Spout wrote k j [] m) (hk : m.indexOf? pid = some k) {sink : Option FileId}
    (hgathered : Gathered (some pid) sink es) (hplays : Plays ps m es m') :
    Mute wrote k (es.handed sink) m' ∧ m'.indexOf? pid = some k := by
  have hlater : Later m m' := .of_plays hquiet hplays <| hgathered.only_isUpkeep.mono fun r hr => by
    cases r <;> first | rfl | cases hr
  obtain ⟨pre, post, rfl, htaps, -, hhanded, -⟩ := hgathered.handed_eq
  obtain ⟨m₁, hplays₁, hplays₂⟩ := plays_append.1 hplays
  obtain ⟨h₁, hk₁⟩ := tapped hrec hquiet h hk htaps.from_ hplays₁
  rw [hhanded]
  refine ⟨emptied hrec hquiet h₁ hk₁ hplays₂, ?_⟩
  rw [Machine.indexOf?_of_layout hlater.layout, hk]

end Spout

end LineShell.Host
