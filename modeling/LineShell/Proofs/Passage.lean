import LineShell.Proofs.Composition

namespace LineShell.Host

open Text (Bytes)
open Shell (Predecessor Plan Started Linked Launched)

/-!
# What gets from stage to stage

What the stages of a pipeline hear, whatever number of bytes the relays are to read at a time.

* `letThrough` — what a relay lets through: all, or nothing if nobody can read so many bytes at a time;
* `Link.hears` — behind a relay a process hears what it lets through of what the one before makes;
* `Paced`, `Paced.plays` — the relays of a line are to read as many bytes at a time as the settings say;
* `made`, `Chained.makes` — what the last stage makes when a flow goes into the first one.
-/

variable {S : Type} {ps : Programs S} {denote : List String → Flow → Flow} {base : Nat} {chunk : Int}
  {read : Nat → Bytes} {m m₁ m' : Machine S} {p q : Process S} {es : Trace} {x : Flow}

/-! ### Behind a relay -/

/-- What a relay lets through that is to read so many bytes at a time. -/
def letThrough (chunk : Int) (x : Flow) : Flow := if Machine.isReadSize chunk then x else .finite []

theorem letThrough_empty (chunk : Int) : letThrough chunk (.finite []) = .finite [] := ite_self _

/-- Behind a relay a process hears what it lets through. -/
theorem Link.hears {r : RelayTask} {o i : Pipe} {a : Seat S} (h : Link denote r p q o i)
    (hfits : a.Fits ps denote base p.identity) (hworks : Works ps a p o) (hdraws : Draws q i)
    (hx : x.Heard p.intake) : (letThrough r.chunk (denote p.argv x)).Heard q.intake := by
  unfold letThrough
  cases hsize : Machine.isReadSize r.chunk with
  | true =>
    obtain ⟨hfault, hdeath⟩ := h.sane hsize
    exact h.heard hfits hworks hdraws (fun hfaulty => hfaulty.2.elim (· hfault) (· hdeath)) hx
  | false =>
    -- nothing has come into its pipe
    obtain ⟨-, hempty⟩ := h.barren hsize
    have htaken : taken q.intake = [] := by
      have hreceived := hdraws.received
      rw [hempty] at hreceived
      exact (List.append_eq_nil_iff.1 hreceived.symm).1
    refine Flow.heard_of_proper hdraws.proper ?_ fun _ => htaken
    rw [htaken]
    exact Flow.begins_nil _

/-! ### How much relays read -/

/-- All relays of a pipeline are to read so many bytes at a time. -/
def Paced (base : Nat) (chunk : Int) (l : Layout) : Prop :=
  ∀ (n : Nat) (e : Ends), l.relays[n]? = some e → base ≤ e.source → e.chunk = chunk

theorem Machine.Grounded.paced (h : m.Grounded) (chunk : Int) : Paced m.pipes.size chunk m.layout := by
  intro n e he hbase
  obtain ⟨r, hr, rfl⟩ := Machine.of_layout_relay he
  exact absurd (h.relay hr).1 (Nat.not_lt.2 hbase)

/-- The event concerns neither a process nor a relay, or starts a process, or a relay that reads so many
bytes at a time. -/
def InPace (chunk : Int) (e : Event) : Prop :=
  e.request.isAside = true ∨ (∃ argv cwd streams, e.request = .spawn argv cwd streams) ∨
    ∃ up next relay, e = ⟨.startRelay up next chunk, .returned relay⟩

theorem Machine.relays_addPipe (m : Machine S) (stream : Stream) (pipe : Pipe) :
    (m.addPipe stream pipe).2.relays = m.relays := by
  unfold Machine.addPipe
  split <;> rfl

theorem Machine.relays_addProcess (m : Machine S) (argv : List String) (cwd : Path) (streams : Streams)
    (launch : Launch S) : (m.addProcess argv cwd streams launch).2.relays = m.relays := by
  unfold Machine.addProcess
  exact (Machine.relays_addPipe _ _ _).trans (m.relays_addPipe _ _)

theorem Paced.of_relays (h : Paced base chunk m.layout) (hrelays : m₁.relays = m.relays) :
    Paced base chunk m₁.layout := by
  intro n e he
  have hlayout : m₁.layout.relays = m.layout.relays := congrArg (Array.map RelayTask.ends) hrelays
  rw [hlayout] at he
  exact h n e he

theorem Paced.answer (h : Paced base chunk m.layout) {e : Event} (he : InPace chunk e) {host : Host S}
    (hanswer : host.answer e.request m = (e.outcome, m₁)) : Paced base chunk m₁.layout := by
  rcases he with haside | ⟨argv, cwd, streams, hspawn⟩ | ⟨up, next, relay, rfl⟩
  · have hnet := host.answer_net (.inl haside) (fun pid hread => by rw [hread] at haside; cases haside) m
    rw [hanswer] at hnet
    exact h.of_relays (congrArg Net.relays hnet)
  · obtain ⟨r, out⟩ := e
    obtain rfl : r = _ := hspawn
    rcases host.answer_spawn hanswer with ⟨-, -, hnet⟩ | ⟨launch, -, heq⟩
    · exact h.of_relays (congrArg Net.relays hnet)
    · cases heq
      exact h.of_relays (m.relays_addProcess argv cwd streams launch)
  · obtain ⟨source, -, rfl⟩ := host.answer_startRelay hanswer
    intro n e he hbase
    rw [Machine.layout_push] at he
    rcases getElem?_push_cases he with hold | ⟨-, rfl⟩
    · exact h _ _ hold hbase
    · rfl

/-- **Runs.** The relays that are started read as many bytes at a time as those before. -/
theorem Paced.plays (hquiet : ∀ s pid number next, ps.next s ≠ .signal pid number next)
    (h : Paced base chunk m.layout) (hes : ∀ e ∈ es, InPace chunk e) (hplays : Plays ps m es m') :
    Paced base chunk m'.layout := by
  induction es generalizing m with
  | nil =>
    rw [layout_of_moves hquiet hplays]
    exact h
  | cons e es ih =>
    obtain ⟨m₁, m₂, host, hmoves, rfl, hanswer, hrest⟩ := hplays
    rw [← layout_of_moves hquiet hmoves] at h
    exact ih (h.answer (hes e (.head _)) hanswer) (fun e he => hes e (.tail _ he)) hrest

theorem inPace_of_aside (hes : es.Aside) : ∀ e ∈ es, InPace chunk e :=
  fun e he => .inl (hes e he)

theorem inPace_of_started {command : Command} {streams : Streams} {s : Session} {pid : Option ProcessId}
    (h : Started command streams s pid es) : ∀ e ∈ es, InPace chunk e := by
  obtain ⟨before, after, o, rfl, hbefore, hafter, -⟩ := h
  intro e he
  rcases List.mem_append.1 he with he | he
  · exact inPace_of_aside hbefore e he
  · rcases List.mem_cons.1 he with rfl | he
    · exact .inr (.inl ⟨_, _, _, rfl⟩)
    · exact inPace_of_aside hafter e he

theorem inPace_of_linked {before : Predecessor} {pid : Option ProcessId} {relays : List RelayId}
    (h : Linked chunk before pid relays es) : ∀ e ∈ es, InPace chunk e := by
  cases before with
  | running up =>
    obtain ⟨relay, -, rfl⟩ := h
    intro e he
    rw [List.mem_singleton.1 he]
    exact .inr (.inr ⟨_, _, _, rfl⟩)
  | none | missing =>
    obtain ⟨-, rfl⟩ := h
    exact fun e he => by cases he

theorem inPace_of_launched {foreground : Bool} {s : Session} {before : Predecessor} {plans : List Plan}
    {stages : List Shell.Stage} {relays : List RelayId}
    (h : Launched foreground chunk s before plans stages relays es) : ∀ e ∈ es, InPace chunk e := by
  induction h with
  | nil => exact fun e he => by cases he
  | cons hstarted hlinked _ ih =>
    intro e he
    rcases List.mem_append.1 he with he | he
    · rcases List.mem_append.1 he with he | he
      · exact inPace_of_started hstarted e he
      · exact inPace_of_linked hlinked e he
    · exact ih e he

/-! ### From the first stage to the last -/

/-- What the last of some stages makes, if that is what the stage before them makes. -/
def madeFrom (denote : List String → Flow → Flow) (chunk : Int) :
    Flow → List (Command × Option ProcessId) → Flow
  | x, [] => x
  | _, (_, none) :: stages => madeFrom denote chunk (.finite []) stages
  | x, (command, some _) :: stages =>
    madeFrom denote chunk (denote command.argv (letThrough chunk x)) stages

/-- What the last of some stages makes when a flow goes into the first one. -/
def made (denote : List String → Flow → Flow) (chunk : Int) (x : Flow) :
    List (Command × Option ProcessId) → Flow
  | [] => x
  | (_, none) :: stages => madeFrom denote chunk (.finite []) stages
  | (command, some _) :: stages => madeFrom denote chunk (denote command.argv x) stages

theorem madeFrom_concat_none (command : Command) (stages : List (Command × Option ProcessId)) :
    madeFrom denote chunk x (stages ++ [(command, none)]) = .finite [] := by
  induction stages generalizing x with
  | nil => rfl
  | cons stage stages ih =>
    obtain ⟨command', pid⟩ := stage
    cases pid <;> exact ih

/-- Without a process in the last stage nothing is made. -/
theorem made_concat_none (command : Command) (stages : List (Command × Option ProcessId)) :
    made denote chunk x (stages ++ [(command, none)]) = .finite [] := by
  cases stages with
  | nil => rfl
  | cons stage stages =>
    obtain ⟨command', pid⟩ := stage
    cases pid <;> exact madeFrom_concat_none command stages

section

variable (h : Sound ps denote base read m) (hpaced : Paced base chunk m.layout)

include h hpaced

/-- A stage hears what is let through of what the stage before it makes. -/
theorem Fed.hears {before : Predecessor} {k j : Nat} (hp : m.processes[k]? = some p)
    (hout : p.outputPipe = some j) (hbase : base ≤ j)
    (hfed : Fed base m.layout before p.identity) (hcomes : Comes denote m before x) :
    (letThrough chunk x).Heard p.intake := by
  cases before with
  | none => exact hcomes.elim
  | missing =>
    obtain rfl : x = .finite [] := hcomes
    obtain ⟨a, hfits, -, hseated⟩ := h.seat_of_output hp hout hbase
    obtain ⟨o, -, hworks⟩ := hseated.output
    rw [letThrough_empty]
    exact Flow.heard_empty (hworks.nothing (hfits.null hfed))
  | running up =>
    obtain ⟨n, k₁, s, e, w, he, hsource, hs, hw, hwpid, hwout, hin⟩ := hfed
    obtain ⟨k₂, up', y, hup, hpid, hy, rfl⟩ := hcomes
    -- the relay leads from the process that the flow comes from
    obtain rfl : k₂ = k₁ := h.laid.pid_inj hw (Machine.layout_process hup)
      (hpid.trans hwpid.symm) _ hwout hsource
    obtain rfl : up'.identity = w := Option.some.inj ((Machine.layout_process hup).symm.trans hw)
    have hchunk := hpaced _ _ he hsource
    obtain ⟨r, hr, rfl⟩ := Machine.of_layout_relay he
    obtain ⟨a, hfits, ha, hseated⟩ := h.seat_of_output hup hwout hsource
    obtain ⟨o, ho, hworks⟩ := hseated.output
    rw [ha] at ho
    have hsbase := (h.relay_sink hr hsource hs).1
    obtain ⟨b, -, hseated'⟩ := h.seat hp (.inl hin) hsbase
    obtain ⟨i, hi, hdraws⟩ := hseated'.input s hin
    have hheard := (h.link hr hsource hs hup hwout ho hp hin hi).hears hfits hworks hdraws hy
    rwa [show r.chunk = chunk from hchunk] at hheard

theorem Chained.makesFrom {before : Predecessor} {stages : List Shell.Stage}
    (hchained : Chained base m.layout before stages)
    (hcomes : none ∉ stages.map Shell.Stage.pid → Comes denote m before x) :
    Comes denote m (lastOf before stages)
      (madeFrom denote chunk x (stages.map fun stage => (stage.command, stage.pid))) := by
  induction hchained generalizing x with
  | nil before => exact hcomes List.not_mem_nil
  | missing _ ih => exact ih fun _ => rfl
  | @running before command pid stages k j who hwho hpid hargv hout hbase hfed _ ih =>
    obtain ⟨p, hp, rfl⟩ := Machine.of_layout_process hwho
    refine ih fun hall => ⟨k, p, letThrough chunk x, hp, hpid, ?_, ?_⟩
    · refine Fed.hears h hpaced hp hout hbase hfed (hcomes ?_)
      simpa using hall
    · exact congrArg (denote · (letThrough chunk x)) hargv.symm

/-- **From the first stage to the last.** What the first stage reads matters only if all stages have
processes. -/
theorem Chained.makes {stages : List Shell.Stage} (hchained : Chained base m.layout .none stages)
    (hne : stages ≠ []) (hx : none ∉ stages.map Shell.Stage.pid → ∀ pid,
      (stages.map Shell.Stage.pid).head? = some (some pid) → m.Reads pid x) :
    Comes denote m (lastOf .none stages)
      (made denote chunk x (stages.map fun stage => (stage.command, stage.pid))) := by
  cases hchained with
  | nil => exact absurd rfl hne
  | missing hrest =>
    have hempty : Comes denote m .missing (.finite []) := rfl
    have hlast := Chained.makesFrom h hpaced hrest fun _ => hempty
    exact hlast
  | @running _ command pid stages k j who hwho hpid hargv hout hbase _ hrest =>
    obtain ⟨p, hp, rfl⟩ := Machine.of_layout_process hwho
    have hfirst : none ∉ stages.map Shell.Stage.pid →
        Comes denote m (.running pid) (denote command.argv x) := by
      intro hall
      refine ⟨k, p, x, hp, hpid, hx (by simpa using hall) pid rfl hp hpid, ?_⟩
      exact congrArg (denote · x) hargv.symm
    have hlast := Chained.makesFrom h hpaced hrest hfirst
    exact hlast

end

end LineShell.Host
