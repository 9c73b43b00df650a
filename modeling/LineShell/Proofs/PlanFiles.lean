import LineShell.Proofs.FileUse
import LineShell.Proofs.OutputTarget
import LineShell.Proofs.Pipelines

namespace LineShell

open Shell

/-!
# The files of the stages

Which stage of a line has which of the files that have been opened for it.

* `output_of_plans`, `others_of_plans` — the last stage has the output file, and no other stream of any
  stage goes there;
* `Launched.stage_of_spawn` — each process is started with the streams of its stage;
* `Carried.keeps`, `Carried.avoids` — so a foreground pipeline keeps its output file to itself, and leaves
  alone all files that are not its own.
-/

namespace Shell

variable {s : Session} {plans : List Plan} {before : Predecessor} {stages : List Stage}
  {relays : List RelayId} {es : Trace} {foreground : Bool} {chunk : Int}

theorem Opened.length_eq {operand : Option String} {mode : OpenMode} {file : Option FileId}
    (h : Opened s operand mode file es) : file.toList.length = operand.toList.length := by
  cases operand with
  | none =>
    obtain rfl : file = none := h
    rfl
  | some operand =>
    obtain ⟨id, rfl, -⟩ := h
    rfl

theorem idsOf_concat (plans : List Plan) (plan : Plan) :
    idsOf (plans ++ [plan]) = plan.files.ids ++ idsOf plans := by
  simp [idsOf]

theorem mem_idsOf {plan : Plan} (hplan : plan ∈ plans) {id : FileId} (hid : id ∈ plan.files.ids) :
    id ∈ idsOf plans :=
  List.mem_flatten.2 ⟨_, List.mem_map_of_mem (List.mem_reverse.2 hplan), hid⟩

/-- A process is started with the streams of a stage. -/
theorem Launched.stage_of_spawn (h : Launched foreground chunk s before plans stages relays es)
    {e : Event} (he : e ∈ es) {argv : List String} {cwd : Path} {streams : Streams}
    (hspawn : e.request = .spawn argv cwd streams) : ∃ up others plan rest,
      plans = others ++ plan :: rest ∧ streams = stageStreams foreground up plan rest.isEmpty := by
  have hnot : ∀ {es : Trace}, es.Aside → e ∉ es := by
    intro es hes hmem
    have haside := hes e hmem
    rw [hspawn] at haside
    cases haside
  induction h with
  | nil => cases he
  | @cons before plan plans pid stages relay relays es es' es'' hstarted hlinked _ ih =>
    rcases List.mem_append.1 he with hfirst | hrest
    · rcases List.mem_append.1 hfirst with hstart | hlink
      · obtain ⟨pre, post, o, hes, hpre, hpost, -⟩ := hstarted
        rw [hes] at hstart
        rcases List.mem_append.1 hstart with hmem | hmem
        · exact absurd hmem (hnot hpre)
        · rcases List.mem_cons.1 hmem with heq | hmem
          · rw [heq] at hspawn
            cases hspawn
            exact ⟨before, [], plan, plans, rfl, rfl⟩
          · exact absurd hmem (hnot hpost)
      · -- a relay is no process
        cases before with
        | running up =>
          obtain ⟨relay, -, hes⟩ := hlinked
          rw [hes] at hlink
          rw [List.mem_singleton.1 hlink] at hspawn
          cases hspawn
        | none =>
          rw [hlinked.2] at hlink
          cases hlink
        | missing =>
          rw [hlinked.2] at hlink
          cases hlink
    · obtain ⟨up, others, plan', rest, rfl, hstreams⟩ := ih hrest
      exact ⟨up, plan :: others, plan', rest, rfl, hstreams⟩

end Shell

namespace Host

/-! ### Who has which file -/

section

variable {line : CommandLine} {plans : List Plan} {s : Session} {opened : Trace} {n : Nat}
  (hplans : plans.map (fun plan => (plan.command, plan.wiring)) = line.commands.zip line.wirings)

include hplans

/-- A line has a last stage. -/
theorem last_of_plans : ∃ others last, plans = others ++ [last] ∧
    last.wiring = line.wiring others.length ∧ others.length + 1 = line.commands.length := by
  have hlength := length_plans hplans
  rcases List.eq_nil_or_concat plans with rfl | ⟨others, last, rfl⟩
  · exact absurd (List.eq_nil_of_length_eq_zero hlength.symm) line.commands_ne_nil
  · rw [List.concat_eq_append] at hplans hlength ⊢
    have hget : (others ++ [last])[others.length]? = some last := by simp
    obtain ⟨-, -, hwiring⟩ := wiring_of_plans hplans hget
    exact ⟨others, last, rfl, hwiring, by simpa using hlength⟩

/-- All stages but the last one write to pipes. -/
theorem stdout_of_plans {others rest : List Plan} {plan : Plan}
    (hsplit : plans = others ++ plan :: rest) (hrest : rest ≠ []) : plan.wiring.stdout = .pipe := by
  have hlength := length_plans hplans
  have hget : plans[others.length]? = some plan := by simp [hsplit]
  obtain ⟨hi, -, hwiring⟩ := wiring_of_plans hplans hget
  have hpos := List.length_pos_iff.2 hrest
  rw [hwiring, CommandLine.wiring_stdout_iff hi, ← hlength, hsplit, List.length_append, List.length_cons]
  omega

variable (hfiles : ∀ plan ∈ plans, FilesOpened s plan.wiring plan.files opened)
  (hids : idsOf plans = (List.range' n line.targets.length).reverse)

include hfiles hids

/-- The files of the last stage are those that were opened last. Among them the error file comes after
the output file. -/
theorem last_files_of_plans : ∃ others last, plans = others ++ [last] ∧
    last.files.output.toList = (List.range' (n + (inputsOf line).length) (outputsOf line).length).reverse := by
  obtain ⟨others, last, rfl, hwiring, hlength⟩ := last_of_plans hplans
  have hlast := hfiles last (by simp)
  have houtput := (opened_output hlength hwiring hlast).length_eq
  have herror := (opened_error hlength hwiring hlast).length_eq
  refine ⟨others, last, rfl, ?_⟩
  have htargets : line.targets.length =
      (inputsOf line).length + ((outputsOf line).length + last.files.error.toList.length) := by
    rw [herror, ← Nat.add_assoc]
    simp only [CommandLine.targets, inputsOf, outputsOf, targetsOf, List.length_append, List.length_map]
  rw [htargets, ← List.range'_append_1, ← List.range'_append_1, List.reverse_append,
    List.reverse_append, idsOf_concat, StageFiles.ids, List.append_assoc, List.append_assoc,
    List.append_assoc] at hids
  obtain ⟨-, hrest⟩ := List.append_inj hids (by simp)
  exact (List.append_inj hrest (by simp [houtput, outputsOf, targetsOf])).1

/-- **The output file** is the one that was opened after the input. -/
theorem output_of_plans {operand : String} (hout : CommandLine.target? line.output = some operand) :
    plans.getLast?.bind (·.files.output) = some (n + (inputsOf line).length) := by
  obtain ⟨others, last, rfl, hlast⟩ := last_files_of_plans hplans hfiles hids
  rw [outputsOf, hout] at hlast
  rw [List.getLast?_concat, Option.bind_some]
  cases hfile : last.files.output with
  | none =>
    rw [hfile] at hlast
    cases hlast
  | some id =>
    rw [hfile] at hlast
    exact congrArg some (List.cons.inj hlast).1

omit hplans hfiles in
theorem le_of_plans {plan : Plan} (hplan : plan ∈ plans) {id : FileId} (hid : id ∈ plan.files.ids) :
    n ≤ id := by
  have hmem := mem_idsOf hplan hid
  rw [hids, List.mem_reverse, List.mem_range'_1] at hmem
  exact hmem.1

/-- No stage has the output file as another stream. -/
theorem others_of_plans {operand : String} (hout : CommandLine.target? line.output = some operand)
    {plan : Plan} (hplan : plan ∈ plans) :
    plan.files.input ≠ some (n + (inputsOf line).length) ∧
      plan.files.error ≠ some (n + (inputsOf line).length) := by
  have hlast := output_of_plans hplans hfiles hids hout
  obtain ⟨others, last, rfl, -⟩ := last_of_plans hplans
  rw [List.getLast?_concat, Option.bind_some] at hlast
  -- no file is there twice
  have hnodup : (idsOf (others ++ [last])).Nodup := by
    rw [hids]
    exact List.nodup_reverse.2 List.nodup_range'
  rw [idsOf_concat, StageFiles.ids, hlast, List.append_assoc, List.append_assoc] at hnodup
  obtain ⟨-, hrest, herror⟩ := List.nodup_append.1 hnodup
  have hinput : n + (inputsOf line).length ∉ last.files.input.toList ++ idsOf others :=
    (List.nodup_cons.1 hrest).1
  rcases List.mem_append.1 hplan with hother | hlast'
  · have hnone : n + (inputsOf line).length ∉ plan.files.ids := fun hid =>
      hinput (List.mem_append_right _ (mem_idsOf hother hid))
    refine ⟨fun hid => hnone ?_, fun hid => hnone ?_⟩ <;> simp [StageFiles.ids, hid]
  · rw [List.mem_singleton.1 hlast']
    refine ⟨fun hid => hinput ?_, fun hid => ?_⟩
    · simp [hid]
    · exact herror (n + (inputsOf line).length) (by simp [hid]) _ (by simp) rfl

end

/-! ### Requests that leave a file alone -/

section

variable {n : Nat} {id : FileId} {file : Option FileId}

theorem Stream.avoids_stream {id : Option FileId} (h : ∀ j, file = some j → n ≤ j ∧ id ≠ some j) :
    Stream.Avoids n id (StageFiles.stream file) := by
  cases file with
  | none => trivial
  | some j => exact h j rfl

theorem avoids_stdin {id : Option FileId} {foreground last : Bool} {up : Predecessor} {plan : Plan}
    (h : ∀ j, plan.files.input = some j → n ≤ j ∧ id ≠ some j) :
    Stream.Avoids n id (stageStreams foreground up plan last).stdin := by
  unfold stageStreams
  split
  · trivial
  · unfold StageFiles.streams
    simp only
    split
    · trivial
    · exact Stream.avoids_stream h

/-- The streams of a stage go where its files do. -/
theorem avoid_of_plan {id : Option FileId} {foreground last : Bool} {up : Predecessor} {plan : Plan}
    (hin : ∀ j, plan.files.input = some j → n ≤ j ∧ id ≠ some j)
    (hout : (stageStreams foreground up plan last).stdout = .pipe ∨
      ∀ j, plan.files.output = some j → n ≤ j ∧ id ≠ some j)
    (herr : ∀ j, plan.files.error = some j → n ≤ j ∧ id ≠ some j) :
    Streams.Avoid n id (stageStreams foreground up plan last) := by
  refine ⟨avoids_stdin hin, ?_, ?_⟩
  · rcases hout with hpipe | hout
    · rw [hpipe]
      trivial
    · rw [stageStreams_stdout_eq]
      unfold StageFiles.streams
      simp only
      split
      · trivial
      · exact Stream.avoids_stream hout
  · rw [stageStreams_stderr_eq]
    exact Stream.avoids_stream herr

theorem Request.keeps_of_isTame {r : Request} (h : r.isTame = true) : Request.Keeps n id false r := by
  cases r with
  | writeFile => exact fun _ => rfl
  | spawn | writeHistory => cases h
  | _ => trivial

theorem Request.avoids_of_isTame {r : Request} (h : r.isTame = true) : Request.Avoids n none r := by
  cases r with
  | writeFile | flushFile | closeFile => exact fun hid => by cases hid
  | spawn | writeHistory => cases h
  | _ => trivial

/-- What starting stages asks for is tame, but for the processes. -/
theorem isTame_of_isStarting {r : Request} (h : r.isStarting = true) :
    r.isTame = true ∨ ∃ argv cwd streams, r = .spawn argv cwd streams := by
  cases r with
  | spawn argv cwd streams => exact .inr ⟨argv, cwd, streams, rfl⟩
  | _ => first | exact .inl rfl | cases h

end

section

variable {line : CommandLine} {plans : List Plan} {s : Session} {opened loop rest : Trace} {n : Nat}
  {stages : List Shell.Stage} {relays : List RelayId}
  (hplans : plans.map (fun plan => (plan.command, plan.wiring)) = line.commands.zip line.wirings)
  (hfiles : ∀ plan ∈ plans, FilesOpened s plan.wiring plan.files opened)
  (hids : idsOf plans = (List.range' n line.targets.length).reverse)

include hids

/-- Starting stages leaves all files alone that are not their own. -/
theorem Launched.avoids {foreground : Bool} {chunk : Int} (hstarting : loop.Only Request.isStarting)
    (hlaunched : Launched foreground chunk s .none plans stages relays loop) :
    ∀ e ∈ loop, Request.Avoids n none e.request := by
  intro e he
  rcases isTame_of_isStarting (hstarting e he) with htame | ⟨argv, cwd, streams, hspawn⟩
  · exact Request.avoids_of_isTame htame
  · obtain ⟨up, others, plan, after, hsplit, rfl⟩ := hlaunched.stage_of_spawn he hspawn
    have hplan : plan ∈ plans := by simp [hsplit]
    have hle : ∀ {j}, j ∈ plan.files.ids → n ≤ j ∧ (none : Option FileId) ≠ some j :=
      fun hj => ⟨le_of_plans hids hplan hj, nofun⟩
    rw [hspawn]
    exact avoid_of_plan (fun j hj => hle (by simp [StageFiles.ids, hj]))
      (.inr fun j hj => hle (by simp [StageFiles.ids, hj])) fun j hj => hle (by simp [StageFiles.ids, hj])

/-- A foreground pipeline leaves all files alone that are not its own. -/
theorem Carried.avoids (h : Carried s plans stages relays loop rest) :
    ∀ e ∈ loop ++ rest, Request.Avoids n none e.request := by
  intro e he
  rcases List.mem_append.1 he with he | he
  · exact Launched.avoids hids h.starting h.launched e he
  · exact Request.avoids_of_isTame (h.tame e he)

include hplans hfiles

/-- A foreground pipeline starts no process with its output file. -/
theorem Carried.keeps (h : Carried s plans stages relays loop rest) {operand : String}
    (hout : CommandLine.target? line.output = some operand) :
    ∀ e ∈ loop ++ rest, Request.Keeps n (n + (inputsOf line).length) false e.request := by
  intro e he
  rcases List.mem_append.1 he with he | he
  · rcases isTame_of_isStarting (h.starting e he) with htame | ⟨argv, cwd, streams, hspawn⟩
    · exact Request.keeps_of_isTame htame
    · obtain ⟨up, others, plan, after, hsplit, rfl⟩ := h.launched.stage_of_spawn he hspawn
      have hplan : plan ∈ plans := by simp [hsplit]
      have hle : ∀ {j}, j ∈ plan.files.ids → n ≤ j := fun hj => le_of_plans hids hplan hj
      obtain ⟨hinput, herror⟩ := others_of_plans hplans hfiles hids hout hplan
      rw [hspawn]
      refine avoid_of_plan (fun j hj => ⟨hle (by simp [StageFiles.ids, hj]), ?_⟩)
        (.inl (stageStreams_stdout (stdout_of_plans hplans hsplit)))
        fun j hj => ⟨hle (by simp [StageFiles.ids, hj]), ?_⟩
      · rw [← hj]
        exact hinput.symm
      · rw [← hj]
        exact herror.symm
  · exact Request.keeps_of_isTame (h.tame e he)

end

end Host

end LineShell
