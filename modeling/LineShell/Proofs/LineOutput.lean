import LineShell.Proofs.PlanFiles
import LineShell.Proofs.SingleRun

namespace LineShell.Host

open Shell
open Text (Bytes)

/-!
# What lines write to files

What a foreground line that is run to its end leaves in a file, if nobody else has it open.

* `Machine.lastOutput` — what the last of the processes that a line has started has written;
* `Held.piped` — the interpreter hands it on to the output file of a pipeline;
* `Held.lent` — the process of a single command writes it there by itself;
* `execute_leaves` — the output file of a line ends up with what it held when it had been opened, and
  this behind it. Other files stay as they are.
-/

variable {S : Type} {ps : Programs S} {wrote : S → Bytes} {m m₁ m₂ m' : Machine S} {node : Inode}
  {n o : Nat} {id : FileId} {closed : Bool} {given : Bytes} {es : Trace} {s s' : Session}
  {line : CommandLine}

/-- What the last process of a line has written to its standard output: nothing if that could not be
started. -/
def Machine.lastOutput (m : Machine S) (wrote : S → Bytes) (es : Trace) : Bytes :=
  m.wroteBy wrote (es.spawns.getLast?.join.bind m.indexOf?)

theorem Machine.lastOutput_of_none (h : es.spawns.getLast?.join = none) :
    m.lastOutput wrote es = [] := by
  unfold Machine.lastOutput
  rw [h]
  rfl

theorem Machine.lastOutput_of_some {pid : ProcessId} {k : Nat}
    (h : es.spawns.getLast?.join = some pid) (hk : m.indexOf? pid = some k) :
    m.lastOutput wrote es = m.wroteBy wrote (some k) := by
  unfold Machine.lastOutput
  rw [h, Option.bind_some, hk]

theorem Mute.wroteBy {k : Nat} {written : Bytes} (h : Mute wrote k written m) :
    m.wroteBy wrote (some k) = written := by
  obtain ⟨p, hp, hwrote, -⟩ := h
  unfold Machine.wroteBy
  rw [Option.bind_some, hp]
  exact hwrote

theorem OnlyOpens.later {P : Nat → Prop} (h : OnlyOpens node m.openings.size P m')
    (hgrown : Grown m m₁) : OnlyOpens node m₁.openings.size P m' :=
  fun o x ho => h o x (Nat.le_trans hgrown.size_le ho)

section

variable (hrec : Records ps wrote)
  (hquiet : ∀ s pid number next, ps.next s ≠ .signal pid number next)

include hrec hquiet

/-! ### Pipelines -/

omit hrec hquiet in
theorem Carried.spawns {plans : List Plan} {stages : List Shell.Stage} {relays : List RelayId}
    {loop rest : Trace} (hcarried : Carried s plans stages relays loop rest) :
    (loop ++ rest).spawns = stages.map Shell.Stage.pid := by
  have hrest : rest.spawns = [] := Trace.spawns_of_no_spawn <| hcarried.tame.mono fun r hr => by
    cases r <;> first | rfl | cases hr
  rw [Trace.spawns_append, hrest, List.append_nil, hcarried.launched.spawns]

/-- What a foreground pipeline hands on to a file is what its last process writes. -/
theorem Carried.handed_eq {plans : List Plan} {stages : List Shell.Stage} {relays : List RelayId}
    {loop rest : Trace} (hgrounded : m.Grounded)
    (hplans : plans.map (fun plan => (plan.command, plan.wiring)) = line.commands.zip line.wirings)
    (hsink : plans.getLast?.bind (·.files.output) = some id)
    (hcarried : Carried s plans stages relays loop rest) (hplays : Plays ps m (loop ++ rest) m') :
    rest.handed (some id) = m'.lastOutput wrote (loop ++ rest) := by
  obtain ⟨m₁, hplays₁, hplays₂⟩ := plays_append.1 hplays
  have hgathered := hcarried.gathered fun hnone => by
    rw [hsink] at hnone
    cases hnone
  rw [hsink] at hgathered
  have hspawns : (loop ++ rest).spawns.getLast?.join = lastPid stages := by
    rw [Carried.spawns hcarried, List.getLast?_map]
    unfold lastPid
    cases stages.getLast? <;> rfl
  cases hlast : lastPid stages with
  | none =>
    rw [hlast] at hgathered hspawns
    rw [Machine.lastOutput_of_none hspawns]
    exact hgathered.2
  | some pid =>
    rw [hlast] at hgathered hspawns
    obtain ⟨k, j, hspout, hk⟩ := Spout.launched hrec hquiet hcarried.launched hgrounded
      (wired_of_plans hplans) (fun _ h => by cases h) hplays₁ hlast
    obtain ⟨hmute, hk'⟩ := hspout.gathered hrec hquiet hk hgathered hplays₂
    rw [Machine.lastOutput_of_some hspawns hk', hmute.wroteBy]

/-- **A foreground pipeline** hands on to its output file all that its last process writes. -/
theorem Held.piped {plans : List Plan} {stages : List Shell.Stage} {relays : List RelayId}
    {opened loop rest : Trace} {operand : String}
    (h : Held wrote node n o (n + (inputsOf line).length) false none false given m)
    (hgrounded : m.Grounded)
    (hplans : plans.map (fun plan => (plan.command, plan.wiring)) = line.commands.zip line.wirings)
    (hfiles : ∀ plan ∈ plans, FilesOpened s plan.wiring plan.files opened)
    (hids : idsOf plans = (List.range' n line.targets.length).reverse)
    (hout : CommandLine.target? line.output = some operand)
    (hcarried : Carried s plans stages relays loop rest) (hplays : Plays ps m (loop ++ rest) m')
    (hnew : OnlyOpens node m.openings.size (fun _ => False) m') :
    Held wrote node n o (n + (inputsOf line).length) false none true
      (given ++ m'.lastOutput wrote (loop ++ rest)) m' := by
  have hsink := output_of_plans hplans hfiles hids hout
  have hkept := h.plays hrec hquiet (Carried.keeps hplans hfiles hids hcarried hout) hplays hnew
  have hclosed : (loop ++ rest).any (·.request.closes (n + (inputsOf line).length)) = true := by
    rw [List.any_append, hcarried.closed _ ?_, Bool.or_true]
    obtain ⟨last, hlast, hfile⟩ := Option.bind_eq_some_iff.1 hsink
    exact mem_idsOf (List.mem_of_getLast? hlast) (by simp [StageFiles.ids, hfile])
  have hloop : Trace.handed (some (n + (inputsOf line).length)) loop = [] :=
    Trace.handed_of_only hcarried.starting _ fun e he => by
      obtain ⟨r, o⟩ := e
      cases r <;> first | rfl | cases he
  rw [hclosed, Trace.handed_append, hloop, List.nil_append,
    Carried.handed_eq hrec hquiet hgrounded hplans hsink hcarried hplays] at hkept
  exact hkept

/-! ### Single commands -/

omit hrec hquiet in
theorem Request.keeps_of_isTidying {lent : Bool} {r : Request} (h : r.isTidying = true) :
    Request.Keeps n id lent r := by
  cases r with
  | writeFile | spawn | writeHistory => cases h
  | _ => trivial

omit hrec hquiet in
theorem Request.avoids_of_isTidying {r : Request} (h : r.isTidying = true) :
    Request.Avoids n none r := by
  cases r with
  | closeFile => exact fun hid => by cases hid
  | writeFile | flushFile | spawn | writeHistory => cases h
  | _ => trivial

/-- Saying something and closing files gives nothing to a file. -/
theorem Held.tidied {k : Option Nat} (h : Held wrote node n o id true k closed given m)
    (hes : es.Only Request.isTidying) (hplays : Plays ps m es m')
    (hnew : OnlyOpens node m.openings.size (fun _ => False) m') :
    Held wrote node n o id true k (closed || es.any (·.request.closes id)) given m' := by
  have h' := h.plays hrec hquiet (fun e he => Request.keeps_of_isTidying (hes e he)) hplays hnew
  rw [Trace.handed_of_aside (Trace.aside_of_isTidying hes), List.append_nil] at h'
  exact h'

omit hrec hquiet in
/-- **A process is to get the file** as its standard output. If it cannot be started, nobody gets it. -/
theorem Held.tried (h : Held wrote node n o id true none closed given m) {host : Host S}
    (hrec : Records host.programs wrote) {argv : List String} {cwd : Path} {streams : Streams}
    (hin : Stream.Avoids n (some id) streams.stdin) (hout : streams.stdout = .file id)
    (herr : Stream.Avoids n (some id) streams.stderr) {out : Outcome ProcessId}
    (hanswer : host.answer (.spawn argv cwd streams) m = (out, m₁)) :
    ((∃ f, out = .raised f) ∧ Held wrote node n o id true none closed given m₁) ∨
      ∃ pid, out = .returned pid ∧
        Held wrote node n o id true (some m.processes.size) closed given m₁ ∧
          m₁.Unseen m.processes.size ∧ (m.Grounded → m₁.indexOf? pid = some m.processes.size) := by
  have hdisk := disk_spawn host m argv cwd streams
  rw [show host.spawn m argv cwd streams = (out, m₁) from hanswer] at hdisk
  rcases host.answer_spawn hanswer with ⟨f, rfl, hnet⟩ | ⟨launch, hfind, heq⟩
  · exact .inl ⟨⟨f, rfl⟩, h.slackens (.of_processes hdisk.1 hdisk.2 (congrArg Net.processes hnet))⟩
  · obtain ⟨hwrote, -⟩ := hrec.launch hfind
    obtain ⟨-, q, hprocesses, -, hunseen⟩ := m.processes_addProcess argv cwd streams launch
    have hq : (m.addProcess argv cwd streams launch).2.processes[m.processes.size]? = some q := by
      rw [hprocesses, Array.getElem?_push_size]
    have hindex := fun hgrounded : m.Grounded => hgrounded.indexOf?_addProcess argv cwd streams launch
    have hspawned : Held wrote node n o id true (some m.processes.size) closed given
        (m.addProcess argv cwd streams launch).2 := h.spawned hin hout herr hwrote
    cases heq
    exact .inr ⟨_, rfl, hspawned, ⟨q, hq, hunseen⟩, hindex⟩

/-- **The process that has the file is waited for.** It has written there all that it ever will. -/
theorem Held.waited {k : Nat} (h : Held wrote node n o id true (some k) closed given m)
    (hunseen : m.Unseen k) {pid : ProcessId} (hk : m.indexOf? pid = some k) {code : Int}
    (hes : es.Only Request.isTidying) (hplays : Plays ps m (⟨.wait pid, .returned code⟩ :: es) m')
    (hnew : OnlyOpens node m.openings.size (fun _ => False) m') :
    Held wrote node n o id true none (closed || es.any (·.request.closes id))
      (given ++ m'.wroteBy wrote (some k)) m' := by
  obtain ⟨m₁, m₂, host, hmoves, rfl, hanswer, hrest⟩ := hplays
  have hgrown₁ := Grown.of_moves hquiet hmoves
  have hgrown₂ := Grown.of_answer host hquiet (.wait pid) m₁
  have hgrown₃ := Grown.of_plays hquiet hrest
  rw [hanswer] at hgrown₂
  have h₁ := h.moves hrec hquiet hmoves ((hgrown₂.trans hgrown₃).onlyOpens hnew)
  have h₂ := h₁.answer host hrec hquiet (r := .wait pid) trivial <| by
    rw [hanswer]
    exact hgrown₃.onlyOpens (hnew.later hgrown₁)
  have hk₁ : m₁.indexOf? pid = some k := by
    rw [Machine.indexOf?_of_layout (layout_of_moves hquiet hmoves), hk]
  obtain ⟨q, hq, hnothing⟩ := (hunseen.moves hquiet hmoves).waited hquiet hk₁ hanswer
  rw [hanswer] at h₂
  -- it has nothing open any more, so the file is nobody's but the interpreter's again
  have h₃ := h₂.released hq hnothing
  have hmute : Mute wrote k (wrote q.program) m₂ :=
    ⟨q, hq, rfl, fun d hd => by rw [hnothing] at hd; cases hd⟩
  have h' := h₃.tidied hrec hquiet hes hrest (hnew.later (hgrown₁.trans hgrown₂))
  rw [(hmute.plays hrec hquiet hrest).wroteBy]
  simpa only [Request.closes, Bool.or_false, Event.handed, List.append_nil] using h'

/-- **A single command** writes to its output file by itself. -/
theorem Held.lent (h : Held wrote node n o id true none false given m) (hgrounded : m.Grounded)
    {plan : Plan} {before rest : Trace} {out : Outcome ProcessId}
    (hattended : Attended plan.files.ids before out rest)
    (hin : Stream.Avoids n (some id) (stageStreams false .none plan true).stdin)
    (hstdout : (stageStreams false .none plan true).stdout = .file id)
    (herr : Stream.Avoids n (some id) (stageStreams false .none plan true).stderr)
    (hid : id ∈ plan.files.ids) (hplays : Plays ps m (before ++ attemptOf s plan out :: rest) m')
    (hnew : OnlyOpens node m.openings.size (fun _ => False) m') :
    Held wrote node n o id true none true
      (given ++ m'.lastOutput wrote (before ++ attemptOf s plan out :: rest)) m' := by
  have hspawns : (before ++ attemptOf s plan out :: rest).spawns =
      (attemptOf s plan out).spawned?.toList := hattended.spawns
  have hcloses : ∀ closed : Bool, (closed || rest.any (·.request.closes id)) = true := fun closed => by
    rw [hattended.closed id hid, Bool.or_true]
  obtain ⟨m₁, hplays₁, m₂, m₃, host, hmoves, rfl, hanswer, hplays₃⟩ := plays_append.1 hplays
  have hgrown₁ := Grown.of_plays hquiet hplays₁
  have hgrown₂ := Grown.of_moves hquiet hmoves
  have hgrown₃ := Grown.of_answer host hquiet (attemptOf s plan out).request m₂
  rw [hanswer] at hgrown₃
  have hgrown₄ := Grown.of_plays hquiet hplays₃
  have hgrown := (hgrown₁.trans hgrown₂).trans hgrown₃
  -- up to the attempt, and the attempt
  have hbefore : Plays host.programs m (before ++ []) m₂ := plays_append.2 ⟨m₁, hplays₁, hmoves⟩
  rw [List.append_nil] at hbefore
  have h₂ := h.tidied hrec hquiet hattended.before hbefore ((hgrown₃.trans hgrown₄).onlyOpens hnew)
  have hgrounded₂ := hgrounded.of_plays hquiet hbefore
  rcases h₂.tried hrec hin hstdout herr hanswer with ⟨⟨f, rfl⟩, h₃⟩ | ⟨pid, rfl, h₃, hunseen, hk⟩
  · have h' := h₃.tidied hrec hquiet hattended.answered hplays₃ (hnew.later hgrown)
    rw [hcloses] at h'
    rw [Machine.lastOutput_of_none (by rw [hspawns]; rfl), List.append_nil]
    exact h'
  · obtain ⟨shut, code, said, rfl, hshut, hsaid⟩ := hattended.answered
    obtain ⟨m₄, hplays₄, hplays₅⟩ := plays_append.1 hplays₃
    have hgrown₅ := Grown.of_plays hquiet hplays₄
    have h₄ := h₃.tidied hrec hquiet hshut hplays₄
      ((Grown.of_plays hquiet hplays₅).onlyOpens (hnew.later hgrown))
    have hlater : Later m₃ m₄ := .of_plays hquiet hplays₄ <| hshut.mono fun r hr => by
      cases r <;> first | rfl | cases hr
    have hlater' : Later m₄ m' := .of_plays hquiet hplays₅ <|
      Trace.only_cons.2 ⟨rfl, hsaid.mono fun r hr => by cases r <;> first | rfl | cases hr⟩
    have hk₄ : m₄.indexOf? pid = some m₂.processes.size := by
      rw [Machine.indexOf?_of_layout hlater.layout, hk hgrounded₂]
    have hk' : m'.indexOf? pid = some m₂.processes.size := by
      rw [Machine.indexOf?_of_layout hlater'.layout, hk₄]
    have h' := h₄.waited hrec hquiet (hunseen.aside hquiet (Trace.aside_of_isTidying hshut) hplays₄)
      hk₄ hsaid hplays₅ (hnew.later (hgrown.trans hgrown₅))
    have hany := hcloses (before.any (·.request.closes id))
    simp only [List.any_append, List.any_cons, Request.closes, Bool.false_or, ← Bool.or_assoc]
      at hany h'
    rw [hany] at h'
    rw [Machine.lastOutput_of_some (by rw [hspawns]; rfl) hk']
    exact h'

end

/-! ### Both kinds of lines -/

/-- The requests of a foreground line once its files are open. Either the interpreter writes to the
output file, or that is lent to the only process. -/
inductive Undertaken (s : Session) (plans : List Plan) : Bool → Trace → Prop
  | piped {es : Trace} (h : CarriedOut s plans es) : Undertaken s plans false es
  | lent {plan : Plan} {before rest : Trace} {out : Outcome ProcessId} (hplans : plans = [plan])
    (h : Attended plan.files.ids before out rest) :
    Undertaken s plans true (before ++ attemptOf s plan out :: rest)

section

variable {plans : List Plan} {opened : Trace} {lent : Bool} {operand : String}
  (hplans : plans.map (fun plan => (plan.command, plan.wiring)) = line.commands.zip line.wirings)
  (hfiles : ∀ plan ∈ plans, FilesOpened s plan.wiring plan.files opened)
  (hids : idsOf plans = (List.range' n line.targets.length).reverse)

include hids

/-- No line concerns other files than its own. -/
theorem Undertaken.avoids (h : Undertaken s plans lent es) :
    ∀ e ∈ es, Request.Avoids n none e.request := by
  cases h with
  | piped h =>
    obtain ⟨stages, relays, loop, rest, rfl, hcarried⟩ := h
    exact Carried.avoids hids hcarried
  | @lent plan before rest out hone h =>
    subst hone
    have hle : ∀ {j}, j ∈ plan.files.ids → n ≤ j ∧ (none : Option FileId) ≠ some j :=
      fun hj => ⟨le_of_plans hids (List.mem_singleton_self plan) hj, nofun⟩
    have htidy : ∀ {es : Trace}, es.Only Request.isTidying →
        ∀ e ∈ es, Request.Avoids n none e.request :=
      fun hes e he => Request.avoids_of_isTidying (hes e he)
    have hrest : ∀ e ∈ rest, Request.Avoids n none e.request := by
      have hanswered := h.answered
      cases out with
      | returned pid =>
        obtain ⟨closed, code, said, rfl, hclosed, hsaid⟩ := hanswered
        intro e he
        rcases List.mem_append.1 he with he | he
        · exact htidy hclosed e he
        · rcases List.mem_cons.1 he with rfl | he
          · trivial
          · exact htidy hsaid e he
      | _ => exact htidy hanswered
    intro e he
    rcases List.mem_append.1 he with he | he
    · exact htidy h.before e he
    · rcases List.mem_cons.1 he with rfl | he
      · exact avoid_of_plan (fun j hj => hle (by simp [StageFiles.ids, hj]))
          (.inr fun j hj => hle (by simp [StageFiles.ids, hj]))
          fun j hj => hle (by simp [StageFiles.ids, hj])
      · exact hrest e he

include hplans hfiles

/-- **Whoever writes to it**, the output file ends up with all that the last process writes. -/
theorem Held.undertaken (hrec : Records ps wrote)
    (hquiet : ∀ s pid number next, ps.next s ≠ .signal pid number next)
    (h : Held wrote node n o (n + (inputsOf line).length) lent none false given m)
    (hgrounded : m.Grounded) (hout : CommandLine.target? line.output = some operand)
    (hundertaken : Undertaken s plans lent es) (hplays : Plays ps m es m')
    (hnew : OnlyOpens node m.openings.size (fun _ => False) m') :
    Held wrote node n o (n + (inputsOf line).length) lent none true
      (given ++ m'.lastOutput wrote es) m' := by
  cases hundertaken with
  | piped hcarried =>
    obtain ⟨stages, relays, loop, rest, rfl, hcarried⟩ := hcarried
    exact h.piped hrec hquiet hgrounded hplans hfiles hids hout hcarried hplays hnew
  | @lent plan before rest out hone hattended =>
    subst hone
    have hplan : plan ∈ [plan] := List.mem_singleton_self plan
    have hfile : plan.files.output = some (n + (inputsOf line).length) :=
      output_of_plans hplans hfiles hids hout
    obtain ⟨hinput, herror⟩ := others_of_plans hplans hfiles hids hout hplan
    have hle : ∀ {j}, j ∈ plan.files.ids → n ≤ j := fun hj => le_of_plans hids hplan hj
    obtain ⟨others, last, hsplit, hwiring, hend⟩ := last_of_plans hplans
    obtain ⟨rfl, rfl⟩ : others = [] ∧ last = plan := by
      cases others with
      | nil => exact ⟨rfl, (List.cons.inj hsplit).1.symm⟩
      | cons other others => simp at hsplit
    refine h.lent hrec hquiet hgrounded hattended (avoids_stdin fun j hj => ?_) ?_ ?_ ?_ hplays hnew
    · exact ⟨hle (by simp [StageFiles.ids, hj]), hj ▸ hinput.symm⟩
    · rw [last_stdout hend hwiring, hfile]
      rfl
    · rw [stageStreams_stderr_eq]
      exact Stream.avoids_stream fun j hj => ⟨hle (by simp [StageFiles.ids, hj]), hj ▸ herror.symm⟩
    · simp [StageFiles.ids, hfile]

end

/-- **Foreground lines** on a host whose files can all be opened. -/
theorem execute_undertakes (h : Host S) (hfg : line.background = false)
    (hcd : line.isChangeDirectory = false) {ids : List FileId} {r : Result}
    (hopens : Opens s m line.targets ids m₁)
    (hrun : execute line h.kernel.traced ⟨s, (m, [])⟩ = (.returned r, ⟨s', (m', es)⟩))
    (hcalm : es.Calm) : ∃ plans opened es' lent, es = opened ++ es' ∧ Trace.Aside opened ∧
      plans.map (fun plan : Plan => (plan.command, plan.wiring)) = line.commands.zip line.wirings ∧
        (∀ plan ∈ plans, FilesOpened s plan.wiring plan.files opened) ∧
          idsOf plans = (List.range' m.handles.size line.targets.length).reverse ∧
            Undertaken s plans lent es' ∧ h.kernel.Follows m₁ es' m' := by
  have hids := hopens.ids_eq.1
  simp only [execute, hcd, Bool.false_eq_true, if_false] at hrun
  split at hrun
  · rw [← CommandLine.flatMap_targets] at hopens
    obtain ⟨plans, opened, hplansids, hfiled, hopen⟩ := openStages_runs h hopens
    obtain ⟨-, -, hplans⟩ := hopen.ensured (openStages_ensures _)
    obtain ⟨hmap, hfiles⟩ := hplans _ rfl
    rw [runPipeline_eq, bind_run, hopen [], List.nil_append] at hrun
    obtain ⟨es', rfl, hfollows, hcarried⟩ := (pipeline_carries hfg).run_after hrun
    exact ⟨plans, opened, es', false, rfl, hfiled.aside, hmap rfl, hfiles, by rw [hplansids, hids],
      .piped (hcarried r rfl (Trace.calm_append.1 hcalm).2), hfollows⟩
  · rename_i hpipe
    have hline : line.others = [] := by simpa [CommandLine.isPipeline] using hpipe
    rw [← CommandLine.targets_of_single hline] at hopens
    obtain ⟨files, opened, hfilesids, hfiled, hopen⟩ := openStage_runs h hopens
    have hfiles := (hopen.ensured (openStage_ensures _)).2.2 files rfl
    -- the files are opened within an attempt, and the run goes on from there
    have hstart : (startSingle line).attempt h.kernel.traced ⟨s, (m, [])⟩ =
        (closing files.ids (start line.first (files.streams (line.wiring 0) false false))).attempt
          h.kernel.traced ⟨s, (m₁, opened)⟩ := by
      rw [attempt, attempt, startSingle, bind_run, hopen [], List.nil_append]
    rw [runSingle_eq, bind_run, hstart] at hrun
    have hunwritten : m₁.Unwritten files.ids := fun id hid =>
      hopens.unwritten id (by rwa [hfilesids, List.mem_reverse] at hid)
    obtain ⟨before, out, rest, rfl, hattended, hfollows⟩ :=
      attempt_attends h hfg hunwritten hrun hcalm
    refine ⟨[⟨line.first, line.wiring 0, files⟩], opened, _, true, rfl, hfiled.aside, ?_, ?_, ?_,
      .lent rfl hattended, hfollows⟩
    · simp [CommandLine.wirings, CommandLine.commands, hline]
    · intro plan hplan
      rw [List.mem_singleton.1 hplan]
      exact hfiles
    · rw [← hids, ← hfilesids]
      simp [idsOf]

/-! ### What a line leaves -/

/-- A file that nobody has open, from any of the interpreter's files on, nobody has open. -/
theorem Apart.renew (h : Apart node n none none m) : Apart node m.handles.size none none m where
  plain := h.plain
  inherited := h.inherited
  process := h.process
  handle {_ _} hhandle hcounts :=
    h.handle hhandle (.inr (hcounts.resolve_left
      (Nat.not_le.2 (Array.getElem?_eq_some_iff.1 hhandle).1)))

/-- What a line whose files cannot all be opened leaves of a file. -/
theorem Apart.stopped (h : Apart node m.handles.size none none m) {before : List Target} {t : Target}
    {f : Fault} {ids : List FileId} (hstops : Stops s m line.targets before t f ids m₁)
    (hshut : Shut m₁ ids m') (hinherited : m'.inherited = m.inherited)
    (hcount : m'.timesOpened node ≤
      m.timesOpened node + if outputNode? s m line = some node then 1 else 0) :
    Apart node m'.handles.size none none m' ∧ m'.files.content? node =
      if outputNode? s m line = some node then
        some (line.outputMode.kept (m.files.content? node)) else m.files.content? node := by
  have hgrown : Grown m₁ m' := .of_openings hshut.openings
  have hle := hgrown.timesOpened_le node
  have hleave : ∀ (hplain : m₁.files.Plain node), Apart node m'.handles.size none none m' :=
    fun hplain => h.shut hstops.opens hshut (hstops.opens.grown.trans hgrown) hinherited <| by
      rw [hshut.files]
      exact hplain
  rw [hshut.files]
  by_cases hout : outputNode? s m line = some node
  · rw [if_pos hout] at hcount ⊢
    -- what cannot be opened comes after the output
    have hopens := hstops.opens
    have hsplit : Stops s m (inputsOf line ++ outputsOf line ++
      targetsOf (CommandLine.target? line.error) .write) before t f ids m₁ := hstops
    rcases hsplit.append_cases with
      hstops' | ⟨ids₁, ids₂, mid, before', rfl, rfl, -, -⟩
    · rw [outputNode?_of_stops hstops'] at hout
      cases hout
    · obtain ⟨o, hheld, -⟩ := Held.of_output (fun _ => []) h hopens hgrown hout hcount true
      exact ⟨hleave hheld.apart.plain, hheld.content (.inl rfl)⟩
  · rw [if_neg hout] at hcount ⊢
    obtain ⟨h₁, hspared⟩ := h.opens hstops.opens (hstops.opens.grown.onlyOpens_of_le (by omega))
    refine ⟨hleave h₁.plain, ?_⟩
    unfold FileSystem.content?
    rw [hspared.file]

/-- A line that opens its output file and then stops has opened it. -/
theorem Stops.timesOpened_lt {before : List Target} {t : Target} {f : Fault} {ids : List FileId}
    (hstops : Stops s m line.targets before t f ids m₁) (hshut : Shut m₁ ids m')
    (hout : outputNode? s m line = some node) : m.timesOpened node < m'.timesOpened node := by
  have hopens := hstops.opens
  have hsplit : Stops s m (inputsOf line ++ outputsOf line ++
    targetsOf (CommandLine.target? line.error) .write) before t f ids m₁ := hstops
  rcases hsplit.append_cases with
    hstops' | ⟨ids₁, ids₂, mid, before', rfl, rfl, -, -⟩
  · rw [outputNode?_of_stops hstops'] at hout
    cases hout
  · exact Nat.lt_of_lt_of_le (hopens.timesOpened_lt hout)
      ((Grown.of_openings hshut.openings).timesOpened_le node)

/-- A line whose files cannot all be opened closes those again that could, and starts nothing. -/
theorem execute_refused {h : Host S} {r : Result} (hcd : line.isChangeDirectory = false)
    {before : List Target} {t : Target} {f : Fault} {ids : List FileId}
    (hstops : Stops s m line.targets before t f ids m₁)
    (hrun : execute line h.kernel.traced ⟨s, (m, [])⟩ = (.returned r, ⟨s', (m', es)⟩)) :
    Shut m₁ ids m' ∧ es.Aside ∧ h.kernel.Follows m es m' ∧ r.pids = [] := by
  obtain ⟨m'', es'', hshut, hfiled, hstopped⟩ := execute_stops h hcd hstops
  have hsame := (hstopped []).symm.trans hrun
  have hio : f.isIo = true := by
    cases hio : f.isIo with
    | true => rfl
    | false => simp [verdict, hio] at hsame
  obtain ⟨rfl, -, rfl, rfl⟩ : { exitCode := some 1, failure := some Failure.io } = r ∧ s = s' ∧
      m'' = m' ∧ es'' = es := by
    simpa [verdict, hio] using hsame
  exact ⟨hshut hio, hfiled.aside, ((execute_tells line s).run hrun).1, rfl⟩

section

variable {h : Host S} {r : Result} (hfg : line.background = false)
  (hcd : line.isChangeDirectory = false)
  (hquiet : ∀ s pid number next, h.programs.next s ≠ .signal pid number next)
  (hrun : execute line h.kernel.traced ⟨s, (m, [])⟩ = (.returned r, ⟨s', (m', es)⟩))
  (hcalm : es.Calm)

include hfg hcd hquiet hrun hcalm

/-- A line that returns has opened its output file, if there is one. -/
theorem timesOpened_lt_of_execute (hout : outputNode? s m line = some node) :
    m.timesOpened node < m'.timesOpened node := by
  rcases opens_or_stops s m line.targets with ⟨ids, m₁, hopens⟩ | ⟨before, t, f, ids, m₁, hstops⟩
  · obtain ⟨plans, opened, es', lent, rfl, -, -, -, -, -, hfollows⟩ :=
      execute_undertakes h hfg hcd hopens hrun hcalm
    have hgrown := Grown.of_plays hquiet (plays_of_follows h hfollows)
    exact Nat.lt_of_lt_of_le (hopens.timesOpened_lt hout) (hgrown.timesOpened_le node)
  · exact hstops.timesOpened_lt (execute_refused hcd hstops hrun).1 hout

/-- **Foreground lines and files.** Nobody but the line has a file open, and nobody but the line opens it,
and that only as its output. When the line has been run it ends up with what it held when it had been
opened, and behind that all that the last process has written. If it is not the line's output file, it
stays as it is. -/
theorem execute_leaves (hrec : Records h.programs wrote) (hgrounded : m.Grounded)
    (hapart : Apart node m.handles.size none none m)
    (hcount : m'.timesOpened node ≤
      m.timesOpened node + if outputNode? s m line = some node then 1 else 0) :
    Apart node m'.handles.size none none m' ∧ m'.files.content? node =
      if outputNode? s m line = some node then
        some (line.outputMode.kept (m.files.content? node) ++ m'.lastOutput wrote es)
      else m.files.content? node := by
  rcases opens_or_stops s m line.targets with ⟨ids, m₁, hopens⟩ | ⟨before, t, f, ids, m₁, hstops⟩
  · obtain ⟨plans, opened, es', lent, rfl, haside, hplans, hfiles, hids, hundertaken, hfollows⟩ :=
      execute_undertakes h hfg hcd hopens hrun hcalm
    have hplays := plays_of_follows h hfollows
    have hgrown := Grown.of_plays hquiet hplays
    have hle := hgrown.timesOpened_le node
    have houtput : m'.lastOutput wrote (opened ++ es') = m'.lastOutput wrote es' := by
      unfold Machine.lastOutput
      rw [Trace.spawns_append, Trace.spawns_of_aside haside, List.nil_append]
    rw [houtput]
    by_cases hout : outputNode? s m line = some node
    · rw [if_pos hout] at hcount ⊢
      obtain ⟨operand, htarget⟩ := target_of_outputNode? hout
      obtain ⟨o, hheld, hnew⟩ := Held.of_output wrote hapart hopens hgrown hout hcount lent
      have hgrounded₁ := hgrounded.of_later (.of_net hopens.net_eq)
      have hheld' := hheld.undertaken hplans hfiles hids hrec hquiet hgrounded₁ htarget hundertaken
        hplays hnew
      exact ⟨hheld'.apart_of_closed, hheld'.content (.inr rfl)⟩
    · rw [if_neg hout] at hcount ⊢
      obtain ⟨h₁, hspared₁⟩ := hapart.opens hopens (hopens.grown.onlyOpens_of_le (by omega))
      have hle₁ := hopens.grown.timesOpened_le node
      obtain ⟨h', hspared'⟩ := h₁.plays hquiet (hundertaken.avoids hids) hplays
        (hgrown.onlyOpens_of_le (by omega))
      refine ⟨h'.renew, ?_⟩
      unfold FileSystem.content?
      rw [hspared'.file, hspared₁.file]
  · obtain ⟨hshut, haside, hfollows, -⟩ := execute_refused hcd hstops hrun
    have hlater : Later m m' := .of_plays hquiet (plays_of_follows h hfollows) <|
      haside.mono fun r hr => by cases r <;> first | rfl | cases hr
    have hnothing : m'.lastOutput wrote es = [] :=
      Machine.lastOutput_of_none (by rw [Trace.spawns_of_aside haside]; rfl)
    rw [hnothing, List.append_nil]
    exact hapart.stopped hstops hshut (congrArg Layout.inherited hlater.layout) hcount

end

end LineShell.Host
