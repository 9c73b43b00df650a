import LineShell.Proofs.Foreground
import LineShell.Proofs.Grounding
import LineShell.Proofs.Pipelines

namespace LineShell.Host

open Text (Bytes)
open Shell (Predecessor Plan Launched Taps TapsFrom Opened)

/-!
# Pipelines compose

* `through` — what comes out of the stages of a pipeline, given what flows into the first one;
* `wired_of_plans`, `opened_of_plans` — the stages of a line fit together;
* `Link.heard` — behind a relay that meets no fault a process hears what the one before makes;
* `Comes`, `Chained.comes` — so what comes out of the last stage is what the stages make of the flow
  together;
* `Sound.tapped`, `Sound.emptied` — the interpreter reads all of it;
* `runPipeline_composes` — whatever moves when, what is handed on is what comes out of the stages.
-/

variable {S : Type} {ps : Programs S} {denote : List String → Flow → Flow} {base : Nat}
  {read : Nat → Bytes} {m m₁ m' : Machine S} {p q : Process S} {es : Trace} {x : Flow}

/-! ### What comes out of stages -/

/-- What comes out of the last of some stages when a flow goes into the first one. A stage that has
no process makes nothing, whatever comes before it. -/
def through (denote : List String → Flow → Flow) : Flow → List (Command × Option ProcessId) → Flow
  | x, [] => x
  | _, (_, none) :: stages => through denote (.finite []) stages
  | x, (command, some _) :: stages => through denote (denote command.argv x) stages

theorem through_concat_none (command : Command) (stages : List (Command × Option ProcessId)) :
    through denote x (stages ++ [(command, none)]) = .finite [] := by
  induction stages generalizing x with
  | nil => rfl
  | cons stage stages ih =>
    obtain ⟨command', pid⟩ := stage
    cases pid <;> exact ih

/-! ### The plans of a line -/

section

variable {line : CommandLine} {plans : List Plan}
  (hplans : plans.map (fun plan => (plan.command, plan.wiring)) = line.commands.zip line.wirings)

include hplans

/-- In a line all stages but the last one write to pipes, and all but the first one read from
them. -/
theorem wired_of_plans : Wired .none plans := by
  have hlength := Shell.length_plans hplans
  -- from any stage on
  suffices ∀ (before : Predecessor) (n : Nat) (rest : List Plan), rest = plans.drop n →
      (before ≠ .none → n ≠ 0) → Wired before rest from this .none 0 plans rfl (absurd rfl)
  intro before n rest
  induction rest generalizing before n with
  | nil => exact fun _ _ => trivial
  | cons plan rest ih =>
    intro hrest hn
    have hget : plans[n]? = some plan := by
      rw [← List.head?_drop, ← hrest]
      rfl
    obtain ⟨hi, -, hwire⟩ := Shell.wiring_of_plans hplans hget
    have htail : rest = plans.drop (n + 1) := by
      rw [← List.tail_drop, ← hrest]
      rfl
    refine ⟨fun hbefore => ?_, fun hne => ?_, fun pid => ih _ (n + 1) htail fun _ => by omega⟩
    · rw [hwire]
      exact (CommandLine.wiring_stdin_iff line n).2 (hn hbefore)
    · rw [hwire, CommandLine.wiring_stdout_iff hi, ← hlength]
      refine Nat.lt_of_not_le fun hle => ?_
      exact hne (htail.trans (List.drop_eq_nil_of_le hle))

/-- The output file of the last stage is that of the line. -/
theorem opened_of_plans {s : Session} {opened : Trace}
    (hfiles : ∀ plan ∈ plans, Shell.FilesOpened s plan.wiring plan.files opened) :
    Opened s (CommandLine.target? line.output) (if line.append then .append else .write)
      (plans.getLast?.bind (·.files.output)) opened := by
  have hlength := Shell.length_plans hplans
  have hpos : 0 < plans.length := by
    rw [hlength]
    exact List.length_pos_iff.2 line.commands_ne_nil
  have hlt : plans.length - 1 < plans.length := by omega
  have hlast := List.getElem?_eq_getElem hlt
  obtain ⟨hi, -, hwire⟩ := Shell.wiring_of_plans hplans hlast
  rw [List.getLast?_eq_getElem?, hlast]
  exact Shell.opened_output (by omega) hwire (hfiles _ (List.getElem_mem hlt))

end

/-! ### From stage to stage -/

/-- Behind a relay that no fault has ended a process hears what the one before it makes. -/
theorem Link.heard {r : RelayTask} {o i : Pipe} {a : Seat S} (h : Link denote r p q o i)
    (hfits : a.Fits ps denote base p.identity) (hworks : Works ps a p o) (hdraws : Draws q i)
    (hfaulty : ¬ r.Faulty) (hx : x.Heard p.intake) : (denote p.argv x).Heard q.intake := by
  obtain ⟨-, -, -, broken, shut, hran, -, -⟩ := hworks
  have hbegins : (denote p.argv x).Begins o.received := hfits.computes.begins hran x hx
  have hprefix : taken q.intake <+: o.received := by
    refine List.IsPrefix.trans ?_ h.conveys.received_prefix
    rw [hdraws.received]
    exact List.prefix_append _ _
  refine Flow.heard_of_proper hdraws.proper (hbegins.of_prefix hprefix) fun hend => ?_
  -- at the end all has come through
  obtain ⟨-, hreceived, hcomplete⟩ := (h.ended hend).2.resolve_left hfaulty
  have htaken : taken q.intake = o.received := by
    rw [← hreceived, hdraws.received, (hdraws.ended hend).2, List.append_nil]
  rw [htaken]
  exact hcomplete x hx

/-- The flow comes out of the stage before the next one: its process makes it of what it has
heard. -/
def Comes (denote : List String → Flow → Flow) (m : Machine S) : Predecessor → Flow → Prop
  | .none, _ => False
  | .missing, x => x = .finite []
  | .running up, x => ∃ (k : Nat) (p : Process S) (y : Flow), m.processes[k]? = some p ∧
      p.pid = up ∧ y.Heard p.intake ∧ x = denote p.argv y

/-- No relay of a pipeline has met a fault other than that its reader is gone. -/
def Machine.Unharmed (base : Nat) (m : Machine S) : Prop :=
  ∀ {n : Nat} {r : RelayTask}, m.relays[n]? = some r → base ≤ r.source → ¬ r.Faulty

section

variable (h : Sound ps denote base read m) (hunharmed : m.Unharmed base)

include h hunharmed

/-- A stage hears what comes out of the stage before it. -/
theorem Fed.heard {before : Predecessor} {k j : Nat} (hp : m.processes[k]? = some p)
    (hout : p.outputPipe = some j) (hbase : base ≤ j)
    (hfed : Fed base m.layout before p.identity) (hcomes : Comes denote m before x) :
    x.Heard p.intake := by
  cases before with
  | none => exact hcomes.elim
  | missing =>
    obtain rfl : x = .finite [] := hcomes
    obtain ⟨a, hfits, -, hseated⟩ := h.seat_of_output hp hout hbase
    obtain ⟨o, -, hworks⟩ := hseated.output
    exact Flow.heard_empty (hworks.nothing (hfits.null hfed))
  | running up =>
    obtain ⟨n, k₁, s, e, w, he, hsource, hs, hw, hwpid, hwout, hin⟩ := hfed
    obtain ⟨k₂, up', y, hup, hpid, hy, rfl⟩ := hcomes
    -- the relay leads from the process that the flow comes from
    obtain rfl : k₂ = k₁ := h.laid.pid_inj hw (Machine.layout_process hup)
      (hpid.trans hwpid.symm) _ hwout hsource
    obtain rfl : up'.identity = w := Option.some.inj ((Machine.layout_process hup).symm.trans hw)
    obtain ⟨r, hr, rfl⟩ := Machine.of_layout_relay he
    obtain ⟨a, hfits, ha, hseated⟩ := h.seat_of_output hup hwout hsource
    obtain ⟨o, ho, hworks⟩ := hseated.output
    rw [ha] at ho
    have hsbase := (h.relay_sink hr hsource hs).1
    obtain ⟨b, -, hseated'⟩ := h.seat hp (.inl hin) hsbase
    obtain ⟨i, hi, hdraws⟩ := hseated'.input s hin
    have hlink := h.link hr hsource hs hup hwout ho hp hin hi
    exact hlink.heard hfits hworks hdraws (hunharmed hr hsource) hy

/-- **From the first stage to the last.** Where a stage has no process, it does not matter what comes
before it. -/
theorem Chained.comes {before : Predecessor} {stages : List Shell.Stage}
    (hchained : Chained base m.layout before stages)
    (hcomes : none ∉ stages.map Shell.Stage.pid → Comes denote m before x) :
    Comes denote m (lastOf before stages)
      (through denote x (stages.map fun stage => (stage.command, stage.pid))) := by
  induction hchained generalizing x with
  | nil before => exact hcomes List.not_mem_nil
  | missing _ ih => exact ih fun _ => rfl
  | @running before command pid stages k j who hwho hpid hargv hout hbase hfed _ ih =>
    obtain ⟨p, hp, rfl⟩ := Machine.of_layout_process hwho
    refine ih fun hall => ⟨k, p, x, hp, hpid, ?_, ?_⟩
    · refine Fed.heard h hunharmed hp hout hbase hfed (hcomes ?_)
      simpa using hall
    · exact congrArg (denote · x) hargv.symm

end

/-! ### Reading what comes out -/

section

variable {k j : Nat} {who : Identity} (hwho : m.layout.processes[k]? = some who)
  (hout : who.outputPipe = some j) (hbase : base ≤ j)

include hwho hout hbase

variable (hquiet : ∀ s pid number next, ps.next s ≠ .signal pid number next)
  (hunread : ∀ {n : Nat} {e : Ends}, m.layout.relays[n]? = some e → e.source ≠ j)

include hquiet hunread

/-- A request of a drain brings what it reads, and the rest stays as it is. -/
theorem Sound.tap (h : Sound ps denote base read m) {e : Event} (he : TapsFrom who.pid e)
    {host : Host S} (hps : host.programs = ps) (hanswer : host.answer e.request m = (e.outcome, m₁)) :
    ∃ read', Sound ps denote base read' m₁ ∧ m₁.layout = m.layout ∧
      read' j = read j ++ e.reading := by
  rcases he with ⟨bytes, rfl⟩ | ⟨hdrain, hread⟩
  · obtain ⟨j', m₂, o, hj', hmoves, ho, hcame⟩ := host.answer_readOutput hanswer
    cases hj'.symm.trans (Sound.outputPipe?_eq hwho hout hbase h)
    rw [hps] at hmoves
    have h₂ := h.moves hquiet hmoves
    have hlayout := layout_of_moves hquiet hmoves
    rcases hcame with ⟨o', hline, rfl⟩ | ⟨rfl, -, rfl⟩
    · rw [← hlayout] at hwho hunread
      obtain ⟨p, hp, rfl⟩ := Machine.of_layout_process hwho
      refine ⟨_, h₂.drawn hp hout hbase ho hunread (Pipe.shrank_of_readLine hline),
        (m₂.layout_modifyPipe j _).trans hlayout, ?_⟩
      exact if_pos rfl
    · exact ⟨read, h₂, hlayout, (List.append_nil _).symm⟩
  · have hnet := host.answer_net (.inr hdrain) hread m
    rw [hanswer] at hnet
    refine ⟨read, h.of_net hnet, layout_of_net hnet, ?_⟩
    have hreading : e.reading = [] := by
      obtain ⟨r, o⟩ := e
      cases r with
      | readOutput pid => exact absurd rfl (hread pid)
      | _ => rfl
    rw [hreading, List.append_nil]

/-- **Reading.** What the interpreter reads from the process of the last stage is the beginning of
what that writes. -/
theorem Sound.tapped (h : Sound ps denote base read m)
    (htaps : ∀ e ∈ es, TapsFrom who.pid e) (hplays : Plays ps m es m') :
    ∃ read', Sound ps denote base read' m' ∧ m'.layout = m.layout ∧
      read' j = read j ++ es.readings := by
  induction es generalizing m read with
  | nil =>
    refine ⟨read, h.moves hquiet hplays, layout_of_moves hquiet hplays, ?_⟩
    exact (List.append_nil _).symm
  | cons e es ih =>
    obtain ⟨m₁, m₂, host, hmoves, hps, hanswer, hrest⟩ := hplays
    have hlayout₁ := layout_of_moves hquiet hmoves
    rw [← hlayout₁] at hwho hunread
    obtain ⟨read₁, h₂, hlayout₂, hread₁⟩ := Sound.tap hwho hout hbase hquiet hunread
      (h.moves hquiet hmoves) (htaps e (.head _)) hps hanswer
    rw [← hlayout₂] at hwho hunread
    obtain ⟨read', h', hlayout', hread'⟩ :=
      ih hwho hunread h₂ (fun e he => htaps e (.tail _ he)) hrest
    refine ⟨read', h', hlayout'.trans (hlayout₂.trans hlayout₁), ?_⟩
    rw [hread', hread₁, List.append_assoc]
    rfl

/-- **The end.** When there is nothing left to be read, the process of the last stage has ended, and
all that it has written has been read. -/
theorem Sound.emptied (h : Sound ps denote base read m)
    (hplays : Plays ps m (Event.endOf who.pid :: es) m') :
    ∃ m₁ o, Sound ps denote base read m₁ ∧ m₁.layout = m.layout ∧ Plays ps m₁ es m' ∧
      m₁.pipes[j]? = some o ∧ o.received = read j ∧ o.writerOpen = false ∧ o.readerOpen = true := by
  obtain ⟨m₀, m₁, host, hmoves, rfl, hanswer, hrest⟩ := hplays
  have h₀ := h.moves hquiet hmoves
  have hlayout₀ := layout_of_moves hquiet hmoves
  rw [← hlayout₀] at hwho hunread
  obtain ⟨j', m₂, o, hj', hmoves', ho, hcame⟩ := host.answer_readOutput hanswer
  cases hj'.symm.trans (Sound.outputPipe?_eq hwho hout hbase h₀)
  rcases hcame with ⟨o', hline, -⟩ | ⟨-, hline, rfl⟩
  · exact absurd rfl (Pipe.ne_nil_of_readLine hline)
  · have h₁ := h₀.moves hquiet hmoves'
    have hlayout₁ := layout_of_moves hquiet hmoves'
    rw [← hlayout₁] at hwho hunread
    obtain ⟨p, hp, rfl⟩ := Machine.of_layout_process hwho
    obtain ⟨hbuffer, hclosed, -⟩ := Pipe.ended_of_readLine hline
    obtain ⟨hopen, hreceived⟩ := h₁.unread hp hout hbase ho hunread
    rw [hbuffer, List.append_nil] at hreceived
    exact ⟨m₁, o, h₁, hlayout₁.trans hlayout₀, hrest, ho, hreceived, hclosed, hopen⟩

end

/-! ### Whole pipelines -/

theorem lastOf_eq {stages : List Shell.Stage} (hne : stages ≠ []) {before : Predecessor} :
    lastOf before stages = .of (Shell.lastPid stages) := by
  induction stages generalizing before with
  | nil => exact absurd rfl hne
  | cons stage stages ih =>
    cases stages with
    | nil => rfl
    | cons next stages => exact @ih (List.cons_ne_nil _ _) (.of stage.pid)

/-- The processes of a number have read what a flow begins with, and its end only where it ends. -/
def Machine.Reads (m : Machine S) (pid : ProcessId) (x : Flow) : Prop :=
  ∀ {k : Nat} {p : Process S}, m.processes[k]? = some p → p.pid = pid → x.Heard p.intake

theorem Later.reads (hlater : Later m m') {pid : ProcessId} (h : m'.Reads pid x) :
    m.Reads pid x := by
  intro k p hp hpid
  obtain ⟨q, hq, hgoes⟩ := hlater.process hp
  have hq' : q.pid = pid := (congrArg Identity.pid hgoes.identity).trans hpid
  exact (h hq hq').of_suffix hgoes.intake

theorem Later.unharmed (hlater : Later m m') (h : m'.Unharmed base) : m.Unharmed base :=
  fun hr hbase hfaulty => h (hlater.relay hr hfaulty.1) hbase hfaulty

/-- What comes out of all stages, if the first one reads a flow. -/
theorem Chained.comes_of_reads {stages : List Shell.Stage} (h : Sound ps denote base read m)
    (hunharmed : m.Unharmed base) (hchained : Chained base m.layout .none stages)
    (hne : stages ≠ []) (hx : none ∉ stages.map Shell.Stage.pid → ∀ pid,
      (stages.map Shell.Stage.pid).head? = some (some pid) → m.Reads pid x) :
    Comes denote m (lastOf .none stages)
      (through denote x (stages.map fun stage => (stage.command, stage.pid))) := by
  cases hchained with
  | nil => exact absurd rfl hne
  | missing hrest =>
    have hempty : Comes denote m .missing (.finite []) := rfl
    have hlast := Chained.comes h hunharmed hrest fun _ => hempty
    exact hlast
  | @running _ command pid stages k j who hwho hpid hargv hout hbase _ hrest =>
    obtain ⟨p, hp, rfl⟩ := Machine.of_layout_process hwho
    have hfirst : none ∉ stages.map Shell.Stage.pid →
        Comes denote m (.running pid) (denote command.argv x) := by
      intro hall
      refine ⟨k, p, x, hp, hpid, hx (by simpa using hall) pid rfl hp hpid, ?_⟩
      exact congrArg (denote · x) hargv.symm
    have hlast := Chained.comes h hunharmed hrest hfirst
    exact hlast

/-- What is handed on is all of the flow that comes out of the last stage when there is nothing left to be
read. -/
theorem Sound.isAll_of_comes (h : Sound ps denote base (fun _ => []) m)
    (hquiet : ∀ s pid number next, ps.next s ≠ .signal pid number next)
    {stages : List Shell.Stage} (hne : stages ≠ [])
    (hleads : Leads base m.layout (lastOf .none stages)) {sink : Option FileId}
    (hgathered : Shell.Gathered (Shell.lastPid stages) sink es) (hplays : Plays ps m es m')
    (hnone : Shell.lastPid stages = none → x.IsAll [])
    (hcomes : ∀ {read : Nat → Bytes} {m₁ : Machine S}, Sound ps denote base read m₁ →
      m₁.layout = m.layout → Later m₁ m' → Comes denote m₁ (lastOf .none stages) x) :
    x.IsAll (es.handed sink) := by
  rw [lastOf_eq hne] at hleads hcomes
  cases hlast : Shell.lastPid stages with
  | none =>
    rw [hlast] at hgathered
    rw [hgathered.2]
    exact hnone hlast
  | some pid =>
    rw [hlast] at hleads hgathered hcomes
    obtain ⟨pre, post, rfl, hpre, hpost, hhanded, -⟩ := hgathered.handed_eq
    obtain ⟨k, j, who, hwho, rfl, hout, hbase, hunread⟩ := hleads
    obtain ⟨mid, hplays₁, hplays₂⟩ := plays_append.1 hplays
    obtain ⟨read₁, h₁, hlayout₁, hread₁⟩ :=
      Sound.tapped hwho hout hbase hquiet hunread h hpre.from_ hplays₁
    rw [← hlayout₁] at hwho hunread
    obtain ⟨m₂, o, h₂, hlayout₂, hplays₃, ho, hreceived, hclosed, hopen⟩ :=
      Sound.emptied hwho hout hbase hquiet hunread h₁ hplays₂
    have hlater : Later m₂ m' := .of_plays hquiet hplays₃ <| hpost.mono fun r hr => by
      cases r <;> first | rfl | cases hr
    rw [← hlayout₂] at hwho
    obtain ⟨k', p, y, hp, hpid, hy, heq⟩ := hcomes h₂ (hlayout₂.trans hlayout₁) hlater
    -- the process that the flow comes from is the one whose output has been read
    obtain rfl : k' = k := h₂.laid.pid_inj hwho (Machine.layout_process hp) hpid j hout hbase
    obtain rfl : p.identity = who := Option.some.inj ((Machine.layout_process hp).symm.trans hwho)
    obtain ⟨a, hfits, ha, hseated⟩ := h₂.seat_of_output hp hout hbase
    obtain ⟨o', ho', hworks⟩ := hseated.output
    rw [ha] at ho'
    cases ho.symm.trans ho'
    have hall : (denote p.argv y).IsAll o.received := hworks.complete hfits hclosed hopen y hy
    rw [heq, hhanded]
    rw [hreceived, hread₁] at hall
    exact hall

/-- If there is no process in the last stage, that stage has no process. -/
theorem concat_of_lastPid_none {stages : List Shell.Stage} (hne : stages ≠ [])
    (hlast : Shell.lastPid stages = none) : ∃ others command, stages = others ++ [⟨command, none⟩] := by
  obtain ⟨others, ⟨command, pid⟩, rfl⟩ := (List.eq_nil_or_concat stages).resolve_left hne
  obtain rfl : pid = none := by simpa [Shell.lastPid] using hlast
  exact ⟨others, command, List.concat_eq_append⟩

/-- **What is handed on comes out of the stages.** -/
theorem Sound.isAll_handed (h : Sound ps denote base (fun _ => []) m)
    (hquiet : ∀ s pid number next, ps.next s ≠ .signal pid number next)
    {stages : List Shell.Stage} (hne : stages ≠ [])
    (hchained : Chained base m.layout .none stages)
    (hleads : Leads base m.layout (lastOf .none stages)) {sink : Option FileId}
    (hgathered : Shell.Gathered (Shell.lastPid stages) sink es) (hplays : Plays ps m es m')
    (hunharmed : m'.Unharmed base)
    (hx : none ∉ stages.map Shell.Stage.pid → ∀ pid,
      (stages.map Shell.Stage.pid).head? = some (some pid) → m'.Reads pid x) :
    (through denote x (stages.map fun stage => (stage.command, stage.pid))).IsAll
      (es.handed sink) := by
  refine h.isAll_of_comes hquiet hne hleads hgathered hplays (fun hlast => ?_) ?_
  · obtain ⟨others, command, rfl⟩ := concat_of_lastPid_none hne hlast
    rw [List.map_append]
    show (through denote x (_ ++ [(command, none)])).IsAll []
    rw [through_concat_none]
    rfl
  · intro read m₁ h₁ hlayout hlater
    rw [← hlayout] at hchained
    exact Chained.comes_of_reads h₁ (hlater.unharmed hunharmed) hchained hne
      fun hall pid hpid => hlater.reads (hx hall pid hpid)

/-- What the scripted program for some words makes of what flows in. -/
def Scripted.meaning (scripts : List (String × Script)) (argv : List String) (x : Flow) : Flow :=
  match argv.head?.bind (List.lookup · scripts) with
  | some script => flow script x
  | none => .finite []

/-- Whenever a scripted program is started, it computes what its words denote, if its pipes meet no
faults of their own. -/
theorem Scripted.denotes {scripts : List (String × Script)}
    (hfresh : ∀ script ∈ scripts, script.2.input.IsFresh ∧ script.2.output.IsFresh) (cwd : Path)
    (command : Command) : Denotes (programs scripts) (meaning scripts) cwd command := by
  intro files launch hfind
  change find scripts command.argv = .ok launch at hfind
  unfold find at hfind
  split at hfind
  · cases hfind
  · rename_i script hscript
    have hdenote : meaning scripts command.argv = flow script := by
      funext x
      rw [meaning, hscript]
    have hmem : ∃ name, (name, script) ∈ scripts := by
      obtain ⟨name, -, hlookup⟩ := Option.bind_eq_some_iff.1 hscript
      obtain ⟨before, after, heq, -⟩ := List.lookup_eq_some_iff.1 hlookup
      exact ⟨name, by rw [heq]; exact List.mem_append_right _ (.head _)⟩
    obtain ⟨name, hmem⟩ := hmem
    split at hfind
    · cases hfind
    · cases hfind
      rw [hdenote]
      exact ⟨computes scripts script, hfresh _ hmem⟩

/-- The programs `a`, which writes a line, `b`, which writes a byte and then what it reads, and `c`,
which writes what it reads. -/
def chainScripts : List (String × Script) :=
  [("a", { out := [120, 10] }), ("b", { out := [121], copies := true }), ("c", { copies := true })]

/-- A host that knows these programs. -/
def chainHost : Host Scripted where
  programs := Scripted.programs chainScripts
  patience := 100

/-- The line `a | b | c`. -/
def chainLine : CommandLine := { first := ⟨"a", []⟩, others := [⟨"b", []⟩, ⟨"c", []⟩] }

/-- A session that has no jobs. -/
def chainSession : Session := { cwd := ⟨.root, []⟩, home := "/", settings := { historyFile := "" } }

/-- The line, run on that host. -/
def chainRun : Outcome Result × World (Machine Scripted × Trace) :=
  Shell.runPipeline chainLine chainHost.kernel.traced ⟨chainSession, ({}, [])⟩

/-- Whether no fault has ended any of some relays. -/
def RelayTask.allUnharmed (relays : Array RelayTask) : Bool :=
  relays.all fun r => r.fault.isNone && r.death.isNone

theorem Machine.unharmed_of_all (h : RelayTask.allUnharmed m.relays = true) : m.Unharmed base := by
  intro n r hr _ hfaulty
  obtain ⟨hn, rfl⟩ := Array.getElem?_eq_some_iff.1 hr
  have hr := Array.all_eq_true.1 h n hn
  simp only [Bool.and_eq_true, Option.isNone_iff_eq_none] at hr
  rcases hfaulty.2 with hfault | hdeath
  · exact hfault hr.1
  · exact hdeath hr.2

/-- Whether the processes of a number have read nothing but the end. -/
def Process.allEmpty (pid : ProcessId) (processes : Array (Process S)) : Bool :=
  processes.all fun p => p.pid != pid || p.intake.all fun
    | .ok [] => true
    | _ => false

theorem Machine.reads_of_all {pid : ProcessId} (h : Process.allEmpty pid m.processes = true) :
    m.Reads pid (.finite []) := by
  intro k p hp hpid
  obtain ⟨hk, rfl⟩ := Array.getElem?_eq_some_iff.1 hp
  have hread := Array.all_eq_true.1 h k hk
  rw [hpid, bne_self_eq_false, Bool.false_or, List.all_eq_true] at hread
  refine Flow.heard_empty fun e he => ?_
  have := hread e he
  rcases e with e | _ | ⟨b, bytes⟩
  · cases this
  · rfl
  · cases this

/-- Whether a console has never been found to take no bytes. -/
def Event.isTakesNoBytes : Event → Bool
  | ⟨.consoleTakesBytes, .returned false⟩ => true
  | _ => false

end LineShell.Host
