import LineShell.Proofs.Attempts
import LineShell.Proofs.Copying
import LineShell.Proofs.LentOutput
import Mathlib

namespace LineShell

open Shell
open Text (Bytes)

/-!
# Pipelines in the foreground and in the background

What does not depend on whether the interpreter waits for a pipeline.

* `execute_stages`, `execute_tries` — the stages are started alike, and those that cannot be are complained
  about;
* `execute_leaves_behind` — in the background the last process writes to the output file by itself;
* `execute_makes` — in the foreground what it writes is handed on;
* `background_agrees` — both times it is what comes out of the stages, so the file ends up the same.
-/

/-- The same line, to be left in the background. -/
def CommandLine.inBackground (line : CommandLine) : CommandLine := { line with background := true }

namespace Host

variable {S : Type} {ps : Programs S} {denote : List String → Flow → Flow} {wrote : S → Bytes}
  {m m₁ m₂ m' : Machine S} {node : Inode} {ids : List FileId} {s s' : Session} {line : CommandLine}
  {r : Result} {es : Trace} {x : Flow}

/-! ### Starting the stages -/

theorem not_isChangeDirectory (hpipe : line.isPipeline = true) : line.isChangeDirectory = false := by
  unfold CommandLine.isPipeline at hpipe
  unfold CommandLine.isChangeDirectory
  cases hothers : line.others.isEmpty with
  | true =>
    rw [hothers] at hpipe
    cases hpipe
  | false => rfl

/-- What has been opened for a pipeline, and what is asked for from then on. -/
structure Staging (ps : Programs S) (line : CommandLine) (s : Session) (n : Nat) (m m' : Machine S)
    (pids : List ProcessId) (plans : List Plan) (stages : List Shell.Stage) (relays : List RelayId)
    (opened loop rest : Trace) : Prop where
  aside : opened.Aside
  planned : plans.map (fun plan => (plan.command, plan.wiring)) = line.commands.zip line.wirings
  filed : ∀ plan ∈ plans, FilesOpened s plan.wiring plan.files opened
  numbered : idsOf plans = (List.range' n line.targets.length).reverse
  staged : Staged line s plans stages relays pids loop rest
  plays : Plays ps m (loop ++ rest) m'

/-- **Pipelines**, in the foreground or not, on a host whose files can all be opened. -/
theorem execute_stages (h : Host S) (hpipe : line.isPipeline = true)
    (hopens : Opens s m line.targets ids m₁)
    (hrun : execute line h.kernel.traced ⟨s, (m, [])⟩ = (.returned r, ⟨s', (m', es)⟩)) :
    ∃ plans stages relays opened loop rest, es = opened ++ (loop ++ rest) ∧
      Staging h.programs line s m.handles.size m₁ m' r.pids plans stages relays opened loop rest := by
  have hids := hopens.ids_eq.1
  have hcd := not_isChangeDirectory hpipe
  rw [← CommandLine.flatMap_targets] at hopens
  obtain ⟨plans, opened, hplansids, hfiled, hopen⟩ := openStages_runs h hopens
  obtain ⟨-, -, hplans⟩ := hopen.ensured (openStages_ensures _)
  obtain ⟨hmap, hfiles⟩ := hplans _ rfl
  simp only [execute, hcd, Bool.false_eq_true, if_false, hpipe, if_true] at hrun
  rw [runPipeline_eq, bind_run, hopen [], List.nil_append] at hrun
  obtain ⟨es', rfl, hfollows, hstages⟩ := (pipeline_stages plans).run_after hrun
  obtain ⟨stages, relays, loop, rest, rfl, hstaged⟩ := hstages r rfl
  exact ⟨plans, stages, relays, opened, loop, rest, rfl, hfiled.aside, hmap rfl, hfiles,
    by rw [hplansids, hids], hstaged, plays_of_follows h hfollows⟩

namespace Staging

variable {n : Nat} {pids : List ProcessId} {plans : List Plan} {stages : List Shell.Stage}
  {relays : List RelayId} {opened loop rest : Trace}
  (h : Staging ps line s n m m' pids plans stages relays opened loop rest)

include h

/-! ### What is tried -/

theorem commands_eq : stages.map Shell.Stage.command = line.commands :=
  h.staged.launched.commands.trans (commands_of_plans h.planned)

theorem stages_ne_nil : stages ≠ [] := by
  rintro rfl
  exact line.commands_ne_nil h.commands_eq.symm

theorem attempts_eq : Trace.attempts (opened ++ (loop ++ rest)) = loop.attempts := by
  rw [Trace.attempts_append, Trace.attempts_append, attempts_of_aside h.aside, List.nil_append,
    Trace.attempts_of_after h.staged.after, List.append_nil]

theorem spawns_eq : Trace.spawns (opened ++ (loop ++ rest)) = stages.map Shell.Stage.pid := by
  rw [← Trace.map_pid_attempts, h.attempts_eq, Trace.map_pid_attempts, h.staged.launched.spawns]

/-- Which process each command has got. -/
theorem zip_spawns : line.commands.zip (Trace.spawns (opened ++ (loop ++ rest))) =
    stages.map fun stage => (stage.command, stage.pid) := by
  rw [h.spawns_eq, ← h.commands_eq, List.zip_map']

theorem refusals_eq : Trace.refusals (opened ++ (loop ++ rest)) = loop.refusals := by
  have hrest := Trace.refusals_of_only h.staged.after fun _ _ _ => rfl
  have hopened := Trace.refusals_of_only h.aside fun _ _ _ => rfl
  rw [Trace.refusals_append, Trace.refusals_append, hrest, hopened, List.nil_append, List.append_nil]

theorem arguments_eq : (Trace.attempts (opened ++ (loop ++ rest))).map Attempt.arguments =
    line.commands.map (Platform.direct.arguments ·.argv) := by
  rw [h.attempts_eq, h.staged.launched.arguments_eq h.planned]

theorem complaints_eq : Trace.complaints (opened ++ (loop ++ rest)) =
    complaintsOf line.commands (Trace.refusals (opened ++ (loop ++ rest))) := by
  have hrest := Trace.complaints_append_of_only h.staged.after (fun _ _ _ => rfl) []
  rw [List.append_nil] at hrest
  rw [Trace.complaints_append_of_only h.aside fun _ _ _ => rfl, h.staged.complains.complaints, hrest,
    h.refusals_eq, commands_of_plans h.planned]
  exact List.append_nil _

theorem pids_eq : pids = Trace.started (opened ++ (loop ++ rest)) := by
  rw [Trace.started, h.spawns_eq, List.filterMap_map]
  exact h.staged.pids_eq

/-- Who is started gets the next number. -/
theorem spawns_numbered (hquiet : ∀ s pid number next, ps.next s ≠ .signal pid number next) :
    Trace.spawns (opened ++ (loop ++ rest)) =
      Shell.numbered m.nextPid (Trace.refusals (opened ++ (loop ++ rest))) := by
  obtain ⟨m₁, hplays, -⟩ := plays_append.1 h.plays
  rw [h.spawns_eq, h.refusals_eq, launched_numbered hquiet h.staged.launched hplays]

/-- All relays are to read as much at a time as the settings say. -/
theorem paced (hquiet : ∀ s pid number next, ps.next s ≠ .signal pid number next)
    (hgrounded : m.Grounded) (hbg : line.background = true) :
    Paced m.pipes.size s.settings.relayChunk m'.layout := by
  refine (hgrounded.paced _).plays hquiet (fun e he => ?_) h.plays
  rcases List.mem_append.1 he with he | he
  · exact inPace_of_launched h.staged.launched e he
  · exact .inl (Request.isAside_of_isParting (h.staged.parting hbg e he))

/-! ### What is written in the background -/

/-- In the background no stage has the output file but the last one, which writes there. -/
theorem lends {operand : String} (hout : CommandLine.target? line.output = some operand) :
    (∀ plan ∈ plans, ∀ before last,
      Stream.Avoids n (some (n + (inputsOf line).length)) (stageStreams false before plan last).stdin ∧
        Stream.Avoids n (some (n + (inputsOf line).length))
          (stageStreams false before plan last).stderr) ∧
      ∀ plan before, plans.getLast? = some plan →
        (stageStreams false before plan true).stdout = .file (n + (inputsOf line).length) := by
  refine ⟨fun plan hplan before last => ?_, fun plan before hplan => ?_⟩
  · obtain ⟨hinput, herror⟩ := others_of_plans h.planned h.filed h.numbered hout hplan
    have hle : ∀ {j}, j ∈ plan.files.ids → n ≤ j := fun hj => le_of_plans h.numbered hplan hj
    refine ⟨avoids_stdin fun j hj => ?_, ?_⟩
    · exact ⟨hle (by simp [StageFiles.ids, hj]), hj ▸ hinput.symm⟩
    · rw [stageStreams_stderr_eq]
      exact Stream.avoids_stream fun j hj => ⟨hle (by simp [StageFiles.ids, hj]), hj ▸ herror.symm⟩
  · obtain ⟨others, last, rfl, hwiring, hend⟩ := last_of_plans h.planned
    have hfile := output_of_plans h.planned h.filed h.numbered hout
    rw [hplan, Option.bind_some] at hfile
    obtain rfl : last = plan := Option.some.inj (List.getLast?_concat.symm.trans hplan)
    rw [last_stdout hend hwiring, hfile]
    rfl

/-- What is asked for after a background pipeline has been started keeps all files to themselves. -/
theorem keeps_parting (hbg : line.background = true) (f : FileId) :
    ∀ e ∈ rest, Request.Keeps n f true e.request := by
  intro e he
  have hparting := h.staged.parting hbg e he
  obtain ⟨request, out⟩ := e
  cases request with
  | log | print | closeFile => trivial
  | _ => cases hparting

/-- **The output file of a background pipeline**, when its processes have ended: what comes out of the
stages is there, behind what was. -/
theorem leaves (hrec : Records ps wrote)
    (hquiet : ∀ s pid number next, ps.next s ≠ .signal pid number next) (hbg : line.background = true)
    (hchunk : 1 ≤ s.settings.relayChunk)
    (hdenotes : ∀ command ∈ line.commands, Denotes ps denote s.cwd command) (hgrounded : m.Grounded)
    {operand : String} (hout : CommandLine.target? line.output = some operand)
    {o : Nat} {given : Bytes}
    (hheld : Held wrote node n o (n + (inputsOf line).length) true none false given m)
    (hmoves : Moves ps m' m₂) (hnew : OnlyOpens node m.openings.size (fun _ => False) m₂)
    (hended : ∀ pid ∈ pids, m₂.Ended pid) (hx : none ∉ stages.map Shell.Stage.pid → ∀ pid,
      (stages.map Shell.Stage.pid).head? = some (some pid) → m₂.Reads pid x) :
    ∃ bytes, m₂.files.content? node = some (given ++ bytes) ∧ (made denote s.settings.relayChunk x
      (stages.map fun stage => (stage.command, stage.pid))).IsAll bytes := by
  obtain ⟨m₁, hplays₁, hplays₂⟩ := plays_append.1 h.plays
  have hgrown₁ := Grown.of_plays hquiet hplays₁
  have hgrown₂ := Grown.of_plays hquiet hplays₂
  have hgrown₃ := Grown.of_moves hquiet hmoves
  have hnew₁ := (hgrown₂.trans hgrown₃).onlyOpens hnew
  have hnew₂ := (hgrown₃.onlyOpens hnew).later hgrown₁
  have hnew₃ := hnew.later (hgrown₁.trans hgrown₂)
  have hlaunched := h.staged.launched
  rw [show line.blocks = false by simp [CommandLine.blocks, hbg]] at hlaunched
  obtain ⟨hfree, hfile⟩ := h.lends hout
  have hkeeps := h.keeps_parting hbg (n + (inputsOf line).length)
  obtain ⟨hnone, hsome⟩ := (hgrounded.sound ps denote).lent_launched hrec hquiet hchunk hlaunched
    h.staged.starting hgrounded hheld
    (fun plan hplan => hdenotes _ (commands_of_plans h.planned ▸ List.mem_map_of_mem hplan))
    (wired_of_plans h.planned) hfree hfile trivial hplays₁ hnew₁
  have haside : rest.Aside := (h.staged.parting hbg).mono fun _ => Request.isAside_of_isParting
  cases hlast : lastPid stages with
  | none =>
    -- nobody has the file, and nobody writes to it
    have hheld₂ := ((hnone hlast).plays hrec hquiet hkeeps hplays₂ hnew₂).moves hrec hquiet hmoves hnew₃
    rw [Trace.handed_of_aside haside, List.append_nil] at hheld₂
    refine ⟨[], ?_, ?_⟩
    · rw [List.append_nil]
      exact hheld₂.content (.inl rfl)
    · obtain ⟨others, command, rfl⟩ := concat_of_lastPid_none h.stages_ne_nil hlast
      rw [List.map_append]
      show (made denote s.settings.relayChunk x (_ ++ [(command, none)])).IsAll []
      rw [made_concat_none]
      rfl
  | some pid =>
    obtain ⟨l, hlent, -, hchained⟩ := hsome pid hlast
    have hlent₂ := (hlent.aside hrec hquiet haside hkeeps hplays₂ hnew₂).moves hrec hquiet hmoves hnew₃
    have hpaced : Paced m.pipes.size s.settings.relayChunk m₂.layout := by
      rw [layout_of_moves hquiet hmoves]
      exact h.paced hquiet hgrounded hbg
    refine hlent₂.ended hpaced hchained hlast hx (hended pid ?_)
    rw [h.staged.pids_eq, pidsOf_eq, hlast]
    exact List.mem_append_right _ (.head _)

/-- A background pipeline leaves all files alone that are not its own. -/
theorem avoids (hbg : line.background = true) : ∀ e ∈ loop ++ rest, Request.Avoids n none e.request := by
  intro e he
  rcases List.mem_append.1 he with he | he
  · exact Launched.avoids h.numbered h.staged.starting h.staged.launched e he
  · have hparting := h.staged.parting hbg e he
    obtain ⟨request, out⟩ := e
    cases request with
    | closeFile => exact nofun
    | log | print => trivial
    | _ => cases hparting

end Staging

section

variable {h : Host S} (hpipe : line.isPipeline = true)
  (hquiet : ∀ s pid number next, h.programs.next s ≠ .signal pid number next)
  (hrun : execute line h.kernel.traced ⟨s, (m, [])⟩ = (.returned r, ⟨s', (m', es)⟩))
  (hmoves : Moves h.programs m' m₂) (hapart : Apart node m.handles.size none none m)

include hpipe hquiet hrun hmoves hapart

/-- What a pipeline whose files cannot all be opened leaves of a file that nobody else has open. -/
theorem execute_leaves_stopped {before : List Target} {t : Target} {f : Fault}
    (hstops : Stops s m line.targets before t f ids m₁)
    (hcount : m₂.timesOpened node ≤
      m.timesOpened node + if outputNode? s m line = some node then 1 else 0) :
    m₂.files.content? node = if outputNode? s m line = some node then
      some (line.outputMode.kept (m.files.content? node)) else m.files.content? node := by
  obtain ⟨hshut, haside, hfollows, -⟩ := execute_refused (not_isChangeDirectory hpipe) hstops hrun
  have hplays := plays_of_follows h hfollows
  have hgrown := Grown.of_plays hquiet hplays
  have hgrown' := Grown.of_moves hquiet hmoves
  have hle := hgrown'.timesOpened_le node
  have hlater : Later m m' := .of_plays hquiet hplays <| haside.mono fun r hr => by
    cases r <;> first | rfl | cases hr
  obtain ⟨hapart', hcontent⟩ := hapart.stopped hstops hshut (congrArg Layout.inherited hlater.layout)
    (Nat.le_trans hle hcount)
  -- the line itself has opened the file as often as that may be done
  have hagain : m₂.timesOpened node ≤ m'.timesOpened node := by
    by_cases hout : outputNode? s m line = some node
    · rw [if_pos hout] at hcount
      have hlt := hstops.timesOpened_lt hshut hout
      omega
    · rw [if_neg hout] at hcount
      have hle' := hgrown.timesOpened_le node
      omega
  obtain ⟨-, hspared⟩ := hapart'.moves hquiet hmoves (hgrown'.onlyOpens_of_le hagain)
  rw [← hcontent]
  unfold FileSystem.content?
  rw [hspared.file]

variable (hbg : line.background = true) (hopens : Opens s m line.targets ids m₁)

include hbg hopens

/-- A background pipeline leaves a file as it is that is not its output file. -/
theorem execute_spares_behind (hcount : m₂.timesOpened node ≤ m.timesOpened node) :
    m₂.files.content? node = m.files.content? node := by
  obtain ⟨plans, stages, relays, opened, loop, rest, rfl, hstaging⟩ := execute_stages h hpipe hopens hrun
  have hgrown₁ := hopens.grown
  have hgrown₂ := Grown.of_plays hquiet hstaging.plays
  have hgrown₃ := Grown.of_moves hquiet hmoves
  have hnew : OnlyOpens node m.openings.size (fun _ => False) m₂ :=
    (hgrown₁.trans (hgrown₂.trans hgrown₃)).onlyOpens_of_le hcount
  obtain ⟨h₁, hspared₁⟩ := hapart.opens hopens ((hgrown₂.trans hgrown₃).onlyOpens hnew)
  obtain ⟨h₂, hspared₂⟩ := h₁.plays hquiet (hstaging.avoids hbg) hstaging.plays
    ((hgrown₃.onlyOpens hnew).later hgrown₁)
  obtain ⟨-, hspared₃⟩ := h₂.moves hquiet hmoves (hnew.later (hgrown₁.trans hgrown₂))
  unfold FileSystem.content?
  rw [hspared₃.file, hspared₂.file, hspared₁.file]

/-- **Background pipelines.** When its processes have ended, the output file of one ends up with what it
held when it had been opened, and behind that what comes out of the stages. -/
theorem execute_leaves_behind (hrec : Records h.programs wrote) (hchunk : 1 ≤ s.settings.relayChunk)
    (hdenotes : ∀ command ∈ line.commands, Denotes h.programs denote s.cwd command)
    (hgrounded : m.Grounded) (hended : ∀ pid ∈ r.pids, m₂.Ended pid)
    (hout : outputNode? s m line = some node) (hcount : m₂.timesOpened node ≤ m.timesOpened node + 1)
    (hx : none ∉ es.spawns → ∀ pid, es.spawns.head? = some (some pid) → m₂.Reads pid x) :
    ∃ bytes, m₂.files.content? node = some (line.outputMode.kept (m.files.content? node) ++ bytes) ∧
      (made denote s.settings.relayChunk x (line.commands.zip es.spawns)).IsAll bytes := by
  obtain ⟨plans, stages, relays, opened, loop, rest, rfl, hstaging⟩ := execute_stages h hpipe hopens hrun
  obtain ⟨operand, htarget⟩ := target_of_outputNode? hout
  have hgrown := (Grown.of_plays hquiet hstaging.plays).trans (Grown.of_moves hquiet hmoves)
  obtain ⟨o, hheld, hnew⟩ := Held.of_output wrote hapart hopens hgrown hout hcount true
  rw [hstaging.spawns_eq] at hx
  rw [hstaging.zip_spawns]
  exact hstaging.leaves hrec hquiet hbg hchunk hdenotes (hgrounded.of_later (.of_net hopens.net_eq))
    htarget hheld hmoves hnew hended hx

end

/-! ### What is written in the foreground -/

/-- **The last process of a foreground pipeline** has written what comes out of the stages. -/
theorem execute_makes {h : Host S} (hfg : line.background = false) (hpipe : line.isPipeline = true)
    (hrec : Records h.programs wrote)
    (hquiet : ∀ s pid number next, h.programs.next s ≠ .signal pid number next)
    (hchunk : 1 ≤ s.settings.relayChunk)
    (hdenotes : ∀ command ∈ line.commands, Denotes h.programs denote s.cwd command)
    (hgrounded : m.Grounded) (hopens : Opens s m line.targets ids m₁) {operand : String}
    (hout : CommandLine.target? line.output = some operand)
    (hrun : execute line h.kernel.traced ⟨s, (m, [])⟩ = (.returned r, ⟨s', (m', es)⟩)) (hcalm : es.Calm)
    (hx : none ∉ es.spawns → ∀ pid, es.spawns.head? = some (some pid) → m'.Reads pid x) :
    (made denote s.settings.relayChunk x (line.commands.zip es.spawns)).IsAll
      (m'.lastOutput wrote es) := by
  obtain ⟨plans, opened, es', lent, rfl, haside, hplans, hfiles, hids, hundertaken, hfollows⟩ :=
    execute_undertakes h hfg (not_isChangeDirectory hpipe) hopens hrun hcalm
  have hopened := Trace.spawns_of_aside haside
  have hlastOutput : m'.lastOutput wrote (opened ++ es') = m'.lastOutput wrote es' := by
    unfold Machine.lastOutput
    rw [Trace.spawns_append, hopened, List.nil_append]
  rw [hlastOutput]
  rw [Trace.spawns_append, hopened, List.nil_append] at hx ⊢
  cases hundertaken with
  | lent hone =>
    -- a pipeline has more than one stage
    have hlength := length_plans hplans
    rw [hone, CommandLine.length_commands, List.length_singleton] at hlength
    have hothers : line.others = [] := List.eq_nil_of_length_eq_zero (by omega)
    simp [CommandLine.isPipeline, hothers] at hpipe
  | piped hcarried =>
    obtain ⟨stages, relays, loop, rest, rfl, hcarried⟩ := hcarried
    have hgrounded₁ := hgrounded.of_later (.of_net hopens.net_eq)
    have hplays := plays_of_follows h hfollows
    have hsink := output_of_plans hplans hfiles hids hout
    rw [← Carried.handed_eq hrec hquiet hgrounded₁ hplans hsink hcarried hplays]
    have hcommands : stages.map Shell.Stage.command = line.commands :=
      hcarried.launched.commands.trans (commands_of_plans hplans)
    have hne : stages ≠ [] := by
      rintro rfl
      exact line.commands_ne_nil hcommands.symm
    have hgathered := hcarried.gathered fun hnone => by
      rw [hsink] at hnone
      cases hnone
    rw [hsink] at hgathered
    rw [Carried.spawns hcarried] at hx ⊢
    rw [← hcommands, List.zip_map']
    obtain ⟨m₂, hplays₁, hplays₂⟩ := plays_append.1 hplays
    obtain ⟨hsound, -, hchained, hleads⟩ := (hgrounded₁.sound h.programs denote).launched hquiet hchunk
      hcarried.launched
      (fun plan hplan => hdenotes _ (commands_of_plans hplans ▸ List.mem_map_of_mem hplan))
      (wired_of_plans hplans) trivial hplays₁
    have hpaced := (hgrounded₁.paced s.settings.relayChunk).plays hquiet
      (inPace_of_launched hcarried.launched) hplays₁
    refine hsound.isAll_of_comes hquiet hne hleads hgathered hplays₂ (fun hlast => ?_) ?_
    · obtain ⟨others, command, rfl⟩ := concat_of_lastPid_none hne hlast
      rw [List.map_append]
      show (made denote s.settings.relayChunk x (_ ++ [(command, none)])).IsAll []
      rw [made_concat_none]
      rfl
    · intro read m₃ h₃ hlayout hlater
      rw [← hlayout] at hchained hpaced
      exact hchained.makes h₃ hpaced hne fun hall pid hpid => hlater.reads (hx hall pid hpid)

/-! ### Both ways -/

/-- What is tried when a pipeline is run, in the foreground or not, and what comes of that: the commands
are tried in order, those who are started get the next numbers, and the others are complained about. -/
theorem execute_tries {h : Host S} (hpipe : line.isPipeline = true)
    (hquiet : ∀ s pid number next, h.programs.next s ≠ .signal pid number next)
    (hopens : Opens s m line.targets ids m₁)
    (hrun : execute line h.kernel.traced ⟨s, (m, [])⟩ = (.returned r, ⟨s', (m', es)⟩)) :
    es.attempts.map Attempt.arguments = line.commands.map (Platform.direct.arguments ·.argv) ∧
      es.spawns = numbered m.nextPid es.refusals ∧
        es.complaints = complaintsOf line.commands es.refusals ∧ r.pids = es.started := by
  obtain ⟨plans, stages, relays, opened, loop, rest, rfl, hstaging⟩ := execute_stages h hpipe hopens hrun
  have hnext : m₁.nextPid = m.nextPid := congrArg Net.nextPid hopens.net_eq
  exact ⟨hstaging.arguments_eq, hnext ▸ hstaging.spawns_numbered hquiet, hstaging.complaints_eq,
    hstaging.pids_eq⟩

/-- If the files of a pipeline cannot all be opened, nothing is tried. -/
theorem execute_tries_nothing {h : Host S} (hpipe : line.isPipeline = true) {before : List Target}
    {t : Target} {f : Fault} (hstops : Stops s m line.targets before t f ids m₁)
    (hrun : execute line h.kernel.traced ⟨s, (m, [])⟩ = (.returned r, ⟨s', (m', es)⟩)) :
    es.attempts = [] ∧ es.spawns = [] ∧ es.complaints = [] ∧ r.pids = [] := by
  obtain ⟨-, haside, -, hpids⟩ := execute_refused (not_isChangeDirectory hpipe) hstops hrun
  refine ⟨attempts_of_aside haside, Trace.spawns_of_aside haside, ?_, hpids⟩
  have hcomplaints := Trace.complaints_append_of_only haside (fun _ _ _ => rfl) []
  rwa [List.append_nil] at hcomplaints

section

variable {h h' : Host S} (hpipe : line.isPipeline = true)
  (hquiet : ∀ s pid number next, h.programs.next s ≠ .signal pid number next)
  (hquiet' : ∀ s pid number next, h'.programs.next s ≠ .signal pid number next)
  {s₁ s₂ : Session} {r' : Result} {es' : Trace}
  (hrun : execute line h.kernel.traced ⟨s, (m, [])⟩ = (.returned r, ⟨s₁, (m₁, es)⟩))
  (hrun' : execute line.inBackground h'.kernel.traced ⟨s, (m, [])⟩ = (.returned r', ⟨s₂, (m', es')⟩))
  (hrefusals : es'.refusals = es.refusals)

include hpipe hquiet hquiet' hrun hrun' hrefusals

/-- What is tried and started is the same both ways, and what is said about it. -/
theorem background_tries : es'.attempts.map Attempt.arguments = es.attempts.map Attempt.arguments ∧
    es'.spawns = es.spawns ∧ es'.complaints = es.complaints ∧ r'.pids = r.pids := by
  have hpipe' : line.inBackground.isPipeline = true := hpipe
  rcases opens_or_stops s m line.targets with ⟨ids, m₃, hopens⟩ | ⟨before, t, f, ids, m₃, hstops⟩
  · have hopens' : Opens s m line.inBackground.targets ids m₃ := hopens
    obtain ⟨harguments, hspawns, hcomplaints, hpids⟩ := execute_tries hpipe hquiet hopens hrun
    obtain ⟨harguments', hspawns', hcomplaints', hpids'⟩ := execute_tries hpipe' hquiet' hopens' hrun'
    have hsame : es'.spawns = es.spawns := by rw [hspawns', hspawns, hrefusals]
    refine ⟨harguments'.trans harguments.symm, hsame, ?_, ?_⟩
    · rw [hcomplaints', hcomplaints, hrefusals]
      rfl
    · rw [hpids', hpids, Trace.started, Trace.started, hsame]
  · have hstops' : Stops s m line.inBackground.targets before t f ids m₃ := hstops
    obtain ⟨hattempts, hspawns, hcomplaints, hpids⟩ := execute_tries_nothing hpipe hstops hrun
    obtain ⟨hattempts', hspawns', hcomplaints', hpids'⟩ := execute_tries_nothing hpipe' hstops' hrun'
    refine ⟨?_, hspawns'.trans hspawns.symm, hcomplaints'.trans hcomplaints.symm,
      hpids'.trans hpids.symm⟩
    rw [hattempts', hattempts]

/-- **What is written is the same both ways** in each file that nobody else has open, once the processes
of the background line have ended. -/
theorem background_writes (hps : h'.programs = h.programs) (hfg : line.background = false)
    (hchunk : 1 ≤ s.settings.relayChunk) (hrec : Records h.programs wrote)
    (hdenotes : ∀ command ∈ line.commands, Denotes h.programs denote s.cwd command)
    (hgrounded : m.Grounded) (hcalm : es.Calm) (hmoves : Moves h.programs m' m₂)
    (hended : ∀ pid ∈ r'.pids, m₂.Ended pid)
    (hx : none ∉ es.spawns → ∀ pid, es.spawns.head? = some (some pid) → m₁.Reads pid x ∧ m₂.Reads pid x)
    (hapart : Apart node m.handles.size none none m)
    (hcount : m₁.timesOpened node ≤
      m.timesOpened node + if outputNode? s m line = some node then 1 else 0)
    (hcount' : m₂.timesOpened node ≤
      m.timesOpened node + if outputNode? s m line = some node then 1 else 0) :
    m₂.files.content? node = m₁.files.content? node := by
  obtain ⟨-, hsame, -, -⟩ := background_tries hpipe hquiet hquiet' hrun hrun' hrefusals
  rw [← hps] at hrec hdenotes hmoves
  have hpipe' : line.inBackground.isPipeline = true := hpipe
  rcases opens_or_stops s m line.targets with ⟨ids, m₃, hopens⟩ | ⟨before, t, f, ids, m₃, hstops⟩
  · have hopens' : Opens s m line.inBackground.targets ids m₃ := hopens
    obtain ⟨-, hcontent⟩ := execute_leaves hfg (not_isChangeDirectory hpipe) hquiet hrun hcalm
      (hps ▸ hrec) hgrounded hapart hcount
    rw [hcontent]
    by_cases hout : outputNode? s m line = some node
    · rw [if_pos hout] at hcount' ⊢
      obtain ⟨operand, htarget⟩ := target_of_outputNode? hout
      have hout' : outputNode? s m line.inBackground = some node := hout
      have hall := execute_makes hfg hpipe (hps ▸ hrec) hquiet hchunk (hps ▸ hdenotes) hgrounded hopens
        htarget hrun hcalm fun hnone pid hpid => (hx hnone pid hpid).1
      obtain ⟨bytes, hcontent', hall'⟩ := execute_leaves_behind hpipe' hquiet' hrun' hmoves hapart rfl
        hopens' hrec hchunk hdenotes hgrounded hended hout' hcount' fun hnone pid hpid =>
          (hx (hsame ▸ hnone) pid (hsame ▸ hpid)).2
      rw [hsame] at hall'
      rw [hcontent', hall'.unique hall]
      rfl
    · rw [if_neg hout] at hcount' ⊢
      exact execute_spares_behind hpipe' hquiet' hrun' hmoves hapart rfl hopens' hcount'
  · have hstops' : Stops s m line.inBackground.targets before t f ids m₃ := hstops
    rw [execute_leaves_stopped hpipe hquiet hrun .refl hapart hstops hcount]
    have hcontent' := execute_leaves_stopped hpipe' hquiet' hrun' hmoves hapart hstops' hcount'
    exact hcontent'

end

/-- **Pipelines in the foreground and in the background.** Take a pipeline of commands that, whenever they
are started, compute what their words denote, with relays that read something at a time, and run it twice
from the same state of a machine: once in the foreground, where no interrupt or fault cuts it short, and once
in the background, until its processes have ended. However the processes and the relays move, if the same
commands cannot be started and the first process reads the same both times, then a file that nobody else has
open, and that is opened only as the output of the line, holds the same in the end. Files that are not the
output stay as they are both times. The same commands are tried, those who are started get the same numbers,
and what is said about the others is the same.

What the first process reads, `x`, matters only if all commands have been started. -/
theorem background_agrees {h h' : Host S} (hps : h'.programs = h.programs)
    (hfg : line.background = false) (hpipe : line.isPipeline = true) (hchunk : 1 ≤ s.settings.relayChunk)
    (hquiet : ∀ s pid number next, h.programs.next s ≠ .signal pid number next)
    (hrec : Records h.programs wrote)
    (hdenotes : ∀ command ∈ line.commands, Denotes h.programs denote s.cwd command)
    (hgrounded : m.Grounded) {s₁ s₂ : Session} {r' : Result} {es' : Trace}
    (hrun : execute line h.kernel.traced ⟨s, (m, [])⟩ = (.returned r, ⟨s₁, (m₁, es)⟩)) (hcalm : es.Calm)
    (hrun' : execute line.inBackground h'.kernel.traced ⟨s, (m, [])⟩ =
      (.returned r', ⟨s₂, (m', es')⟩))
    (hmoves : Moves h.programs m' m₂) (hended : ∀ pid ∈ r'.pids, m₂.Ended pid)
    (hrefusals : es'.refusals = es.refusals)
    (hx : none ∉ es.spawns → ∀ pid, es.spawns.head? = some (some pid) →
      m₁.Reads pid x ∧ m₂.Reads pid x) :
    (∀ node, Apart node m.handles.size none none m →
      m₁.timesOpened node ≤ m.timesOpened node + (if outputNode? s m line = some node then 1 else 0) →
      m₂.timesOpened node ≤ m.timesOpened node + (if outputNode? s m line = some node then 1 else 0) →
        m₂.files.content? node = m₁.files.content? node) ∧
    es'.attempts.map Attempt.arguments = es.attempts.map Attempt.arguments ∧ es'.spawns = es.spawns ∧
      es'.complaints = es.complaints ∧ r'.pids = r.pids :=
  have hquiet' : ∀ s pid number next, h'.programs.next s ≠ .signal pid number next := hps ▸ hquiet
  ⟨fun _ => background_writes hpipe hquiet hquiet' hrun hrun' hrefusals hps hfg hchunk hrec hdenotes
    hgrounded hcalm hmoves hended hx, background_tries hpipe hquiet hquiet' hrun hrun' hrefusals⟩

/-! ### Lines that copy -/

/-- A host that knows the program `copy`. At first those move who were started last. -/
def copyHost : Host Copier where
  programs := Copier.programs
  schedule turn := if turn < 6 then 1 else 0
  patience := 100

/-- A machine with the files `f` and `g`, which hold something. -/
def copyMachine : Machine Copier where
  files := ⟨#[.directory 0 [("f", 1), ("g", 2)], .file [97] false, .file [111, 10] false]⟩

/-- The line `copy < f | copy >> output`. -/
def copyLine (output : String) : CommandLine where
  first := ⟨"copy", []⟩
  others := [⟨"copy", []⟩]
  input := some "f"
  output := some output
  append := true

/-- A line, run on that machine. -/
def copyRun (line : CommandLine) : Outcome Result × World (Machine Copier × Trace) :=
  execute line copyHost.kernel.traced ⟨chainSession, (copyMachine, [])⟩

/-- What the machine comes to behind a line. -/
def copyEnd (line : CommandLine) : Machine Copier := copyHost.settle 100 (copyRun line).2.outside.1

theorem Machine.reads_of_map {pid : ProcessId} {logs : List (ProcessId × List (Except Nat Bytes))}
    (hlogs : m.processes.toList.map (fun p => (p.pid, p.intake)) = logs)
    (hx : ∀ e ∈ logs, e.1 = pid → x.Heard e.2) : m.Reads pid x := by
  intro k p hp hpid
  have hmem : (p.pid, p.intake) ∈ logs := by
    rw [← hlogs]
    exact List.mem_map_of_mem (Array.mem_toList_iff.2 (Array.mem_of_getElem? hp))
  exact hx _ hmem hpid

theorem Machine.ended_of_map {pid : ProcessId} {lives : List Life}
    (hlives : m.processes.toList.map Process.life = lives) (hexited : ∀ life ∈ lives, life = .exited 0) :
    m.Ended pid := by
  intro k p hp _
  have hmem : p.life ∈ lives := by
    rw [← hlives]
    exact List.mem_map_of_mem (Array.mem_toList_iff.2 (Array.mem_of_getElem? hp))
  rw [Process.Ended, hexited _ hmem]
  exact ⟨nofun, fun time => nofun⟩

set_option maxRecDepth 20000 in
/-- Both ways the line comes to its end, and copies `f`. -/
theorem copying_copies :
    ((copyRun (copyLine "g")).1 = .returned { exitCode := some 0, pids := [1, 2] } ∧
      (copyRun (copyLine "g").inBackground).1 = .returned { pids := [1, 2], background := true }) ∧
    ((copyRun (copyLine "g")).2.outside.2.all fun e => !e.request.isTending || e.fault?.isNone) = true ∧
    ((copyRun (copyLine "g")).2.outside.2.refusals = [none, none] ∧
      (copyRun (copyLine "g").inBackground).2.outside.2.refusals = [none, none]) ∧
    (copyRun (copyLine "g")).2.outside.2.spawns = [some 1, some 2] ∧
    ((copyRun (copyLine "g")).2.outside.1.processes.toList.map (fun p => (p.pid, p.intake)) =
        [(1, [.ok [], .ok [97]]), (2, [.ok [], .ok [97]])] ∧
      (copyEnd (copyLine "g").inBackground).processes.toList.map (fun p => (p.pid, p.intake)) =
        [(1, [.ok [], .ok [97]]), (2, [.ok [], .ok [97]])]) ∧
    (copyEnd (copyLine "g").inBackground).processes.toList.map Process.life = [.exited 0, .exited 0] ∧
    (outputNode? chainSession copyMachine (copyLine "g") = some 2 ∧
      (copyRun (copyLine "g")).2.outside.1.timesOpened 2 = 1 ∧
      (copyEnd (copyLine "g").inBackground).timesOpened 2 = 1) ∧
    (copyRun (copyLine "g")).2.outside.1.files.content? 2 = some [111, 10, 97] := by
  refine ⟨⟨?_, ?_⟩, ?_, ⟨?_, ?_⟩, ?_, ⟨?_, ?_⟩, ?_, ⟨?_, ?_, ?_⟩, ?_⟩ <;> cbv

/-- Left in the background, `copy < f | copy >> g` adds to `g` what it does in the foreground. -/
theorem background_agrees_of_copying :
    (copyEnd (copyLine "g").inBackground).files.content? 2 = some [111, 10, 97] ∧
      (copyRun (copyLine "g").inBackground).2.outside.2.spawns = [some 1, some 2] := by
  obtain ⟨⟨hreturned, hreturned'⟩, hcalm, ⟨hrefusals, hrefusals'⟩, hspawns, ⟨hlogs, hlogs'⟩, hlives,
    ⟨hout, hcount, hcount'⟩, hcontent⟩ := copying_copies
  have hcalm' : (copyRun (copyLine "g")).2.outside.2.Calm := by
    intro e he htending
    have hfault := List.all_eq_true.1 hcalm e he
    rw [htending, Bool.not_true, Bool.false_or, Option.isNone_iff_eq_none] at hfault
    exact hfault
  have hgrounded : copyMachine.Grounded := by
    refine ⟨fun j hj => ?_, fun {k p} hp => ?_, fun {n r} hr => ?_⟩
    · rcases hj with hj | hj | hj <;> cases hj
    · simp [copyMachine] at hp
    · simp [copyMachine] at hr
  have hapart : Apart 2 copyMachine.handles.size none none copyMachine := by
    have hcontent : copyMachine.files.content? 2 = some [111, 10] := rfl
    refine ⟨FileSystem.plain_of_content? hcontent, ⟨nofun, nofun, nofun⟩, ?_, ?_⟩
    · intro i p hp
      simp [copyMachine] at hp
    · intro j handle hhandle
      simp [copyMachine] at hhandle
  -- what goes into the first process is what `f` holds
  have hreads : ∀ m : Machine Copier, m.processes.toList.map (fun p => (p.pid, p.intake)) =
      [(1, [.ok [], .ok [97]]), (2, [.ok [], .ok [97]])] → ∀ pid, m.Reads pid (.finite [97]) := by
    intro m hm pid
    refine Machine.reads_of_map hm fun e he _ => ?_
    rcases List.mem_pair.1 he with rfl | rfl <;> exact ⟨rfl, List.prefix_rfl, trivial⟩
  have hrun : execute (copyLine "g") copyHost.kernel.traced ⟨chainSession, (copyMachine, [])⟩ =
      (.returned { exitCode := some 0, pids := [1, 2] }, (copyRun (copyLine "g")).2) :=
    Prod.ext hreturned rfl
  have hrun' : execute (copyLine "g").inBackground copyHost.kernel.traced
      ⟨chainSession, (copyMachine, [])⟩ =
        (.returned { pids := [1, 2], background := true }, (copyRun (copyLine "g").inBackground).2) :=
    Prod.ext hreturned' rfl
  obtain ⟨hwrites, -, hsame, -, -⟩ := background_agrees rfl rfl rfl (by decide) Copier.quiet
    Copier.records (fun command _ => Copier.denotes _ command) hgrounded hrun hcalm' hrun' (copyHost.settle_moves 100 _)
    (fun pid _ => Machine.ended_of_map hlives (by simp)) (hrefusals'.trans hrefusals.symm)
    fun _ pid _ => ⟨hreads _ hlogs pid, hreads _ hlogs' pid⟩
  have hfiles := hwrites 2 hapart (by rw [if_pos hout]; exact Nat.le_of_eq hcount)
    (by rw [if_pos hout]; exact Nat.le_of_eq hcount')
  exact ⟨hfiles.trans hcontent, hsame.trans hspawns⟩

set_option maxRecDepth 20000 in
/-- Where the output is what the first stage reads, that may read what has been written in the background.
In the foreground it has ended before. -/
theorem background_differs_on_input :
    (∀ command ∈ (copyLine "f").commands,
      Denotes copyHost.programs (fun _ x => x) chainSession.cwd command) ∧
    (copyRun (copyLine "f")).1 = .returned { exitCode := some 0, pids := [1, 2] } ∧
    (copyRun (copyLine "f").inBackground).1 = .returned { pids := [1, 2], background := true } ∧
    (copyRun (copyLine "f").inBackground).2.outside.2.refusals =
      (copyRun (copyLine "f")).2.outside.2.refusals ∧
    Moves copyHost.programs (copyRun (copyLine "f").inBackground).2.outside.1
      (copyEnd (copyLine "f").inBackground) ∧
    (copyEnd (copyLine "f").inBackground).processes.toList.map Process.life = [.exited 0, .exited 0] ∧
    (copyEnd (copyLine "f").inBackground).relays.all RelayTask.done = true ∧
    (copyRun (copyLine "f")).2.outside.1.files.content? 1 = some [97, 97] ∧
    (copyEnd (copyLine "f").inBackground).files.content? 1 = some [97, 97, 97] := by
  refine ⟨fun command _ => Copier.denotes _ command, ?_, ?_, ?_, copyHost.settle_moves 100 _, ?_, ?_, ?_,
    ?_⟩ <;> cbv

end Host

end LineShell
