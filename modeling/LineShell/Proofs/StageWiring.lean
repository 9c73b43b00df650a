import LineShell.Host.Answer
import LineShell.Host.Scripted
import LineShell.Proofs.Custody

namespace LineShell

/-!
# How the stages of a pipeline are wired

* `CommandLine.wirings_sound` — the wirings of a line fit together: pipes between neighbours, files
  only at the two ends;
* `Attempt`, `Trace.attempts`, `Trace.relayed` — what the system was handed for each process, and
  which relays were started;
* `relaysBetween` — the relays of a line, by what the attempts to start its stages have brought;
* `Launched.attempt`, `Launched.relayed` — the loop that starts the stages leaves just these;
* `Wired`, `runPipeline_wires` — how the stages are wired when that loop ends, and what the rest of
  the run leaves of it.
-/

variable {σ : Type} {k : Kernel σ} {s : Session}

/-! ### The wirings of a line -/

namespace CommandLine

/-- The wirings of a line fit together. -/
structure WiringsSound (line : CommandLine) (i : Nat) (w : Wiring) : Prop where
  stdout_iff : w.stdout = .pipe ↔ i + 1 < line.commands.length
  next_iff : i + 1 < line.commands.length ↔
    ∃ next, line.wirings[i + 1]? = some next ∧ next.stdin = .pipe
  stdin_iff : w.stdin = .pipe ↔ i ≠ 0
  stderr_ne : w.stderr ≠ .pipe
  inputPath_eq : w.inputPath = if i = 0 then target? line.input else none
  outputPath_eq : w.outputPath = if i + 1 = line.commands.length then target? line.output else none
  errorPath_eq : w.errorPath = if i + 1 = line.commands.length then target? line.error else none
  append_eq : w.outputPath ≠ none → w.append = line.append

theorem length_commands (line : CommandLine) :
    line.commands.length = line.others.length + 1 := rfl

theorem getElem?_wirings {line : CommandLine} {i : Nat} (hi : i < line.commands.length) :
    line.wirings[i]? = some (line.wiring i) := by
  simp [wirings, List.getElem?_range hi]

theorem wiring_stdin_iff (line : CommandLine) (i : Nat) :
    (line.wiring i).stdin = .pipe ↔ i ≠ 0 := by
  by_cases hi : i = 0
  · subst hi
    cases h : (target? line.input).isSome <;> simp [wiring, h]
  · simp [wiring, hi]

theorem wiring_stdout_iff {line : CommandLine} {i : Nat} (hi : i < line.commands.length) :
    (line.wiring i).stdout = .pipe ↔ i + 1 < line.commands.length := by
  rw [length_commands] at hi ⊢
  by_cases hlast : i = line.others.length
  · subst hlast
    cases h : (target? line.output).isSome <;> simp [wiring, h]
  · have hlt : i + 1 < line.others.length + 1 := by omega
    have hne : (i : Int) ≠ line.others.length := by omega
    simp [wiring, hne, hlt]

theorem wirings_sound {line : CommandLine} {i : Nat} {w : Wiring}
    (hw : line.wirings[i]? = some w) : line.WiringsSound i w := by
  have hi : i < line.commands.length := by
    rw [← length_wirings]
    exact (List.getElem?_eq_some_iff.1 hw).1
  obtain rfl : line.wiring i = w := Option.some.inj ((getElem?_wirings hi).symm.trans hw)
  have hlast : ((i : Int) == line.others.length) = decide (i + 1 = line.commands.length) := by
    rw [length_commands, Bool.eq_iff_iff, beq_iff_eq, decide_eq_true_iff]
    omega
  refine ⟨wiring_stdout_iff hi, ⟨fun h => ?_, ?_⟩, wiring_stdin_iff line i, ?_, ?_, ?_, ?_, ?_⟩
  · exact ⟨_, getElem?_wirings h, (wiring_stdin_iff line (i + 1)).2 (Nat.succ_ne_zero i)⟩
  · rintro ⟨next, hnext, -⟩
    rw [← length_wirings]
    exact (List.getElem?_eq_some_iff.1 hnext).1
  · cases h : (line.wiring i).errorPath.isSome <;> simp_all [wiring]
  · simp [wiring]
  · simp only [wiring, hlast, decide_eq_true_eq]
  · simp only [wiring, hlast, decide_eq_true_eq]
  · intro hpath
    simp only [wiring] at hpath ⊢
    rw [Option.isSome_iff_ne_none.2 hpath, Bool.true_and]

end CommandLine

/-! ### Attempts and relays -/

/-- An attempt to start a process: what the system was handed, and the process that came of it. -/
structure Attempt where
  arguments : List String
  cwd : Path
  streams : Streams
  pid : Option ProcessId
  deriving DecidableEq, Repr

namespace Event

/-- The attempt to start a process that an event is. -/
def attempt? : Event → Option Attempt
  | ⟨.spawn arguments cwd streams, .returned pid⟩ => some ⟨arguments, cwd, streams, some pid⟩
  | ⟨.spawn arguments cwd streams, .raised _⟩ => some ⟨arguments, cwd, streams, none⟩
  | _ => none

/-- The process whose output a relay copies, and the one it copies to, if there is one. -/
def relayed? : Event → Option (ProcessId × Option ProcessId)
  | ⟨.startRelay writer reader _, .returned _⟩ => some (writer, reader)
  | _ => none

theorem map_pid_attempt? (e : Event) : e.attempt?.map Attempt.pid = e.spawned? := by
  obtain ⟨r, o⟩ := e
  cases r with
  | spawn => cases o <;> rfl
  | _ => rfl

end Event

namespace Trace

/-- The attempts to start processes, in order. -/
def attempts (es : Trace) : List Attempt := es.filterMap Event.attempt?

/-- The relays that were started, in order: from which process, and to which one. -/
def relayed (es : Trace) : List (ProcessId × Option ProcessId) := es.filterMap Event.relayed?

variable {es : Trace}

@[simp] theorem attempts_append (es es' : Trace) :
    attempts (es ++ es') = es.attempts ++ es'.attempts := List.filterMap_append

@[simp] theorem relayed_append (es es' : Trace) :
    relayed (es ++ es') = es.relayed ++ es'.relayed := List.filterMap_append

theorem map_pid_attempts (es : Trace) : es.attempts.map Attempt.pid = es.spawns := by
  rw [attempts, spawns, List.map_filterMap]
  exact congrArg (List.filterMap · es) (funext Event.map_pid_attempt?)

end Trace

/-! ### Relays between neighbours -/

/-- The relays of a line, by what the attempts to start its stages have brought: each process but
the last stage's gets one, to the process of the next stage or to none. -/
def relaysBetween : List (Option ProcessId) → List (ProcessId × Option ProcessId)
  | [] => []
  | [_] => []
  | up :: down :: pids => (up.map (·, down)).toList ++ relaysBetween (down :: pids)

theorem mem_relaysBetween {pids : List (Option ProcessId)} {r : ProcessId × Option ProcessId}
    (hr : r ∈ relaysBetween pids) : some r.1 ∈ pids.dropLast ∧ r.2 ∈ pids.tail := by
  induction pids using relaysBetween.induct with
  | case1 => cases hr
  | case2 => cases hr
  | case3 up down pids ih =>
    rw [relaysBetween, List.mem_append] at hr
    rcases hr with hr | hr
    · cases up with
      | none => cases hr
      | some up =>
        obtain rfl := List.mem_singleton.1 hr
        simp
    · obtain ⟨hfrom, hto⟩ := ih hr
      exact ⟨List.mem_cons_of_mem _ hfrom, List.mem_cons_of_mem _ hto⟩

theorem relaysBetween_append (pre : List (Option ProcessId)) (up down : Option ProcessId)
    (post : List (Option ProcessId)) : relaysBetween (pre ++ up :: down :: post) =
      relaysBetween (pre ++ [up]) ++ (up.map (·, down)).toList ++ relaysBetween (down :: post) := by
  induction pre with
  | nil => rfl
  | cons p pre ih =>
    -- a relay looks at two neighbours, so the second element decides
    cases pre with
    | nil => simp [relaysBetween]
    | cons q pre => simpa [relaysBetween] using ih

theorem exists_split {α : Type} {l : List α} {i : Nat} {a b : α} (ha : l[i]? = some a)
    (hb : l[i + 1]? = some b) : ∃ pre post, l = pre ++ a :: b :: post := by
  induction l generalizing i with
  | nil => cases ha
  | cons c l ih =>
    cases i with
    | zero =>
      obtain ⟨d, l, rfl⟩ : ∃ d l', l = d :: l' := by
        cases l with
        | nil => cases hb
        | cons d l => exact ⟨d, l, rfl⟩
      cases ha
      cases hb
      exact ⟨[], l, rfl⟩
    | succ i =>
      obtain ⟨pre, post, rfl⟩ := ih ha hb
      exact ⟨c :: pre, post, rfl⟩

section

variable {pids : List (Option ProcessId)} (hnew : (pids.filterMap id).Nodup) {pid : ProcessId}

include hnew

/-- Of the attempts, one at most has brought a process. -/
theorem not_mem_of_new {pre post : List (Option ProcessId)}
    (hpids : pids = pre ++ some pid :: post) : some pid ∉ pre ∧ some pid ∉ post := by
  subst hpids
  rw [List.filterMap_append, List.filterMap_cons_some (rfl : id (some pid) = some pid),
    List.nodup_append, List.nodup_cons] at hnew
  obtain ⟨-, ⟨hpost, -⟩, hpre⟩ := hnew
  refine ⟨fun h => ?_, fun h => hpost (List.mem_filterMap.2 ⟨_, h, rfl⟩)⟩
  exact hpre pid (List.mem_filterMap.2 ⟨_, h, rfl⟩) pid List.mem_cons_self rfl

/-- A process that comes before a stage is the source of one relay, to that stage's process. -/
theorem filter_relaysBetween_from {i : Nat} {next : Option ProcessId}
    (hpid : pids[i]? = some (some pid)) (hnext : pids[i + 1]? = some next) :
    (relaysBetween pids).filter (·.1 == pid) = [(pid, next)] := by
  obtain ⟨pre, post, rfl⟩ := exists_split hpid hnext
  obtain ⟨hpre, hpost⟩ := not_mem_of_new hnew rfl
  -- the relays before lead from other processes, and so do those behind
  have hbefore : (relaysBetween (pre ++ [some pid])).filter (·.1 == pid) = [] := by
    refine List.filter_eq_nil_iff.2 fun r hr => ?_
    have hfrom := (mem_relaysBetween hr).1
    rw [List.dropLast_concat] at hfrom
    rintro h
    rw [beq_iff_eq.1 h] at hfrom
    exact hpre hfrom
  have hafter : (relaysBetween (next :: post)).filter (·.1 == pid) = [] := by
    refine List.filter_eq_nil_iff.2 fun r hr => ?_
    have hfrom := List.dropLast_subset _ (mem_relaysBetween hr).1
    rintro h
    rw [beq_iff_eq.1 h] at hfrom
    exact hpost hfrom
  rw [relaysBetween_append, List.filter_append, List.filter_append, hbefore, hafter]
  simp

/-- A process that comes after a stage is the sink of one relay if that stage has a process, and of
none if it has not. -/
theorem filter_relaysBetween_to {i : Nat} {up : Option ProcessId} (hup : pids[i]? = some up)
    (hpid : pids[i + 1]? = some (some pid)) :
    (relaysBetween pids).filter (·.2 == some pid) = (up.map (·, some pid)).toList := by
  obtain ⟨pre, post, rfl⟩ := exists_split hup hpid
  have hsplit : pre ++ up :: some pid :: post = (pre ++ [up]) ++ some pid :: post := by simp
  obtain ⟨hpre, hpost⟩ := not_mem_of_new hnew hsplit
  -- the relays before lead to other processes, and so do those behind
  have hbefore : (relaysBetween (pre ++ [up])).filter (·.2 == some pid) = [] := by
    refine List.filter_eq_nil_iff.2 fun r hr => ?_
    have hto := List.mem_of_mem_tail (mem_relaysBetween hr).2
    rintro h
    rw [beq_iff_eq.1 h] at hto
    exact hpre hto
  have hafter : (relaysBetween (some pid :: post)).filter (·.2 == some pid) = [] := by
    refine List.filter_eq_nil_iff.2 fun r hr => ?_
    have hto := (mem_relaysBetween hr).2
    rintro h
    rw [beq_iff_eq.1 h] at hto
    exact hpost hto
  rw [relaysBetween_append, List.filter_append, List.filter_append, hbefore, hafter]
  cases up <;> simp

/-- Nothing is copied to the first stage. -/
theorem not_to_first (hpid : pids.head? = some (some pid)) :
    ∀ r ∈ relaysBetween pids, r.2 ≠ some pid := by
  obtain ⟨post, rfl⟩ := List.head?_eq_some_iff.1 hpid
  intro r hr h
  have hto := (mem_relaysBetween hr).2
  rw [h] at hto
  exact (not_mem_of_new hnew (List.nil_append _).symm).2 hto

/-- Nothing is copied from the last stage. -/
theorem not_from_last (hpid : pids.getLast? = some (some pid)) :
    ∀ r ∈ relaysBetween pids, r.1 ≠ pid := by
  obtain ⟨pre, rfl⟩ := List.getLast?_eq_some_iff.1 hpid
  intro r hr h
  have hfrom := (mem_relaysBetween hr).1
  rw [List.dropLast_concat, h] at hfrom
  exact (not_mem_of_new hnew rfl).1 hfrom

end

namespace Shell

/-! ### The loop that starts the stages -/

/-- What an attempt before a stage has brought, if there was one. -/
def Predecessor.pids : Predecessor → List (Option ProcessId)
  | .none => []
  | .missing => [Option.none]
  | .running up => [some up]

variable {foreground : Bool} {chunk : Int} {before : Predecessor} {plans : List Plan}
  {stages : List Stage} {relays : List RelayId} {es : Trace}

theorem attempts_of_aside (h : es.Aside) : es.attempts = [] := by
  refine List.filterMap_eq_nil_iff.2 fun e he => ?_
  have hnone := Event.spawned?_of_isAside (h e he)
  rw [← Event.map_pid_attempt?, Option.map_eq_none_iff] at hnone
  exact hnone

theorem relayed_of_aside (h : es.Aside) : es.relayed = [] := by
  refine List.filterMap_eq_nil_iff.2 fun e he => ?_
  have hkind := h e he
  obtain ⟨r, o⟩ := e
  cases r <;> first | rfl | cases hkind

theorem Started.attempts {command : Command} {streams : Streams} {pid : Option ProcessId}
    (h : Started command streams s pid es) :
    es.attempts = [⟨Platform.direct.arguments command.argv, s.cwd, streams, pid⟩] := by
  obtain ⟨pre, post, o, rfl, hpre, hpost, ho⟩ := h
  have hattempt : Event.attempt? ⟨.spawn (Platform.direct.arguments command.argv) s.cwd streams, o⟩
      = some ⟨Platform.direct.arguments command.argv, s.cwd, streams, pid⟩ := by
    cases pid with
    | some pid => cases ho; rfl
    | none => obtain ⟨f, rfl, -⟩ := ho; rfl
  rw [Trace.attempts_append, attempts_of_aside hpre, List.nil_append]
  have hafter := attempts_of_aside hpost
  rw [Trace.attempts] at hafter ⊢
  rw [List.filterMap_cons_some hattempt, hafter]

theorem Started.relayed {command : Command} {streams : Streams} {pid : Option ProcessId}
    (h : Started command streams s pid es) : es.relayed = [] := by
  obtain ⟨pre, post, o, rfl, hpre, hpost, -⟩ := h
  rw [Trace.relayed_append, relayed_of_aside hpre]
  show Trace.relayed post = []
  exact relayed_of_aside hpost

theorem Linked.attempts {pid : Option ProcessId} (h : Linked chunk before pid relays es) :
    es.attempts = [] := by
  cases before with
  | running up => obtain ⟨relay, -, rfl⟩ := h; rfl
  | none => rw [h.2]; rfl
  | missing => rw [h.2]; rfl

theorem Linked.relayed {pid : Option ProcessId} (h : Linked chunk before pid relays es) :
    es.relayed = relaysBetween (before.pids ++ [pid]) := by
  cases before with
  | running up => obtain ⟨relay, -, rfl⟩ := h; rfl
  | none => rw [h.2]; rfl
  | missing => rw [h.2]; rfl

/-- The stages are tried in order, each with the streams that follow from its wiring and from what
became of the stage before it. -/
theorem Launched.attempt (h : Launched foreground chunk s before plans stages relays es) {i : Nat}
    {plan : Plan} {up : Predecessor} (hplan : plans[i]? = some plan)
    (hup : (before :: es.spawns.map .of)[i]? = some up) : ∃ pid, es.spawns[i]? = some pid ∧
      es.attempts[i]? = some ⟨Platform.direct.arguments plan.command.argv, s.cwd,
        stageStreams foreground up plan (i + 1 == plans.length), pid⟩ := by
  induction h generalizing i with
  | nil => cases hplan
  | @cons before first plans pid stages _ _ es es' es'' hstarted hlinked hrest ih =>
    have hspawns : Trace.spawns (es ++ es' ++ es'') = pid :: es''.spawns := by
      rw [Trace.spawns_append, Trace.spawns_append, hstarted.spawns,
        ← Trace.map_pid_attempts es', hlinked.attempts]
      rfl
    have hattempts : Trace.attempts (es ++ es' ++ es'') = ⟨Platform.direct.arguments
        first.command.argv, s.cwd, stageStreams foreground before first plans.isEmpty, pid⟩ ::
          es''.attempts := by
      rw [Trace.attempts_append, Trace.attempts_append, hstarted.attempts, hlinked.attempts]
      rfl
    rw [hspawns] at hup ⊢
    rw [hattempts]
    cases i with
    | zero =>
      -- the first stage's streams follow from what was before it all
      cases hplan
      cases hup
      refine ⟨pid, rfl, ?_⟩
      cases plans <;> simp
    | succ i =>
      simpa using ih hplan hup

/-- Each process but the last stage's gets its relay to the next stage, and there are no others. -/
theorem Launched.relayed (h : Launched foreground chunk s before plans stages relays es) :
    es.relayed = relaysBetween (before.pids ++ es.spawns) := by
  induction h with
  | nil before => cases before <;> rfl
  | @cons before first plans pid stages _ _ es es' es'' hstarted hlinked hrest ih =>
    have hspawns : Trace.spawns (es ++ es' ++ es'') = pid :: es''.spawns := by
      rw [Trace.spawns_append, Trace.spawns_append, hstarted.spawns,
        ← Trace.map_pid_attempts es', hlinked.attempts]
      rfl
    have hpids : (Predecessor.of pid).pids = [pid] := by cases pid <;> rfl
    rw [Trace.relayed_append, Trace.relayed_append, hstarted.relayed, hlinked.relayed, ih, hspawns,
      hpids]
    cases before <;> simp [Predecessor.pids, relaysBetween]

/-- How the stages of a line are wired when the loop that starts them ends. -/
structure Wired (line : CommandLine) (s : Session) (opened loop : Trace) : Prop where
  /-- Each stage is tried once, in order. -/
  commands : loop.attempts.map Attempt.arguments =
    line.commands.map (Platform.direct.arguments ·.argv)
  /-- Neighbours are linked by pipes. Behind a stage that has no process there is nothing to read. -/
  between : ∀ i up down, loop.attempts[i]? = some up → loop.attempts[i + 1]? = some down →
    up.streams.stdout = .pipe ∧ up.streams.stderr = .inherit ∧
      down.streams.stdin = if up.pid.isSome then .pipe else .null
  /-- Each process but the last stage's is the source of one relay, to the next stage or to none. -/
  source : ∀ i up down, loop.attempts[i]? = some up → loop.attempts[i + 1]? = some down →
    ∀ pid ∈ up.pid, loop.relayed.filter (·.1 == pid) = [(pid, down.pid)]
  /-- Each process but the first stage's is the sink of one relay, if there is a process before. -/
  sink : ∀ i up down, loop.attempts[i]? = some up → loop.attempts[i + 1]? = some down →
    ∀ pid ∈ down.pid, loop.relayed.filter (·.2 == some pid) = (up.pid.map (·, some pid)).toList
  /-- The first stage reads the input file, if the line names one. -/
  first : ∀ a, loop.attempts.head? = some a →
    (∃ file, Opened s (CommandLine.target? line.input) .read file opened ∧
      a.streams.stdin = StageFiles.stream file) ∧
    ∀ pid ∈ a.pid, ∀ r ∈ loop.relayed, r.2 ≠ some pid
  /-- The last stage writes to a pipe that no relay reads, or in the background to the output file,
  if the line names one. -/
  last : ∀ a, loop.attempts.getLast? = some a →
    (if line.background then
      ∃ file, Opened s (CommandLine.target? line.output)
        (if line.append then .append else .write) file opened ∧
          a.streams.stdout = StageFiles.stream file
    else a.streams.stdout = .pipe) ∧
    (∃ file, Opened s (CommandLine.target? line.error) .write file opened ∧
      a.streams.stderr = StageFiles.stream file) ∧
    ∀ pid ∈ a.pid, ∀ r ∈ loop.relayed, r.1 ≠ pid

theorem stageStreams_of_stdin {up : Predecessor} {plan : Plan} {last : Bool}
    (h : plan.wiring.stdin = .pipe) (hup : up ≠ .none) :
    (stageStreams foreground up plan last).stdin = if up = .missing then .null else .pipe := by
  cases up with
  | none => exact absurd rfl hup
  | missing => rfl
  | running up => simp [stageStreams, StageFiles.streams, h]

theorem stageStreams_stdout_eq {up : Predecessor} {plan : Plan} {last : Bool} :
    (stageStreams foreground up plan last).stdout =
      (plan.files.streams plan.wiring false (last && foreground)).stdout := by
  rw [stageStreams]
  split <;> rfl

theorem stageStreams_stderr_eq {up : Predecessor} {plan : Plan} {last : Bool} :
    (stageStreams foreground up plan last).stderr = StageFiles.stream plan.files.error := by
  rw [stageStreams]
  split <;> rfl

variable {line : CommandLine} {opened loop : Trace}

/-- The input file is opened for the first stage. -/
theorem opened_input {plan : Plan} (hwiring : plan.wiring = line.wiring (0 : Nat))
    (hfile : FilesOpened s plan.wiring plan.files opened) :
    Opened s (CommandLine.target? line.input) .read plan.files.input opened := by
  have hi : 0 < line.commands.length := Nat.succ_pos _
  have hinput := hfile.input
  rwa [hwiring, (CommandLine.wirings_sound (CommandLine.getElem?_wirings hi)).inputPath_eq,
    if_pos rfl] at hinput

/-- The first stage reads it. -/
theorem first_stdin {plan : Plan} {last : Bool} (hwiring : plan.wiring = line.wiring (0 : Nat)) :
    (stageStreams foreground .none plan last).stdin = StageFiles.stream plan.files.input := by
  have hin : plan.wiring.stdin ≠ .pipe := by
    rw [hwiring, Ne, CommandLine.wiring_stdin_iff]
    simp
  simp [stageStreams, StageFiles.streams, hin]

section

variable {i : Nat} {plan : Plan} (hi : i + 1 = line.commands.length)
  (hwiring : plan.wiring = line.wiring i) (hfile : FilesOpened s plan.wiring plan.files opened)

include hi hwiring hfile

/-- The output file is opened for the last stage. -/
theorem opened_output : Opened s (CommandLine.target? line.output)
    (if line.append then .append else .write) plan.files.output opened := by
  have hlt : i < line.commands.length := by omega
  have hsound := CommandLine.wirings_sound (CommandLine.getElem?_wirings hlt)
  have houtput := hfile.output
  have hpath : plan.wiring.outputPath = CommandLine.target? line.output := by
    rw [hwiring, hsound.outputPath_eq, if_pos hi]
  rw [hpath] at houtput
  cases htarget : CommandLine.target? line.output with
  | none => rwa [htarget] at houtput
  | some path =>
    have happend : plan.wiring.append = line.append := by
      rw [hwiring]
      refine hsound.append_eq ?_
      rw [← hwiring, hpath, htarget]
      simp
    rwa [htarget, outputMode, happend] at houtput

/-- So is the error file. -/
theorem opened_error :
    Opened s (CommandLine.target? line.error) .write plan.files.error opened := by
  have hlt : i < line.commands.length := by omega
  have herror := hfile.error
  rwa [hwiring, (CommandLine.wirings_sound (CommandLine.getElem?_wirings hlt)).errorPath_eq,
    if_pos hi] at herror

omit hfile in
/-- What the last stage writes goes to the output file, unless the interpreter is to read it. -/
theorem last_stdout {up : Predecessor} : (stageStreams false up plan true).stdout =
    StageFiles.stream plan.files.output := by
  have hlt : i < line.commands.length := by omega
  have hout : plan.wiring.stdout ≠ .pipe := by
    rw [hwiring, Ne, CommandLine.wiring_stdout_iff hlt]
    omega
  rw [stageStreams_stdout_eq]
  simp [StageFiles.streams, hout]

end

section

variable (hplans : plans.map (fun plan => (plan.command, plan.wiring)) =
  line.commands.zip line.wirings)

include hplans

theorem commands_of_plans : plans.map Plan.command = line.commands := by
  have hfst := congrArg (List.map Prod.fst) hplans
  rwa [List.map_map, List.map_fst_zip (Nat.le_of_eq line.length_wirings.symm)] at hfst

theorem length_plans : plans.length = line.commands.length := by
  rw [← commands_of_plans hplans, List.length_map]

/-- Each plan is that of the stage at its place. -/
theorem wiring_of_plans {i : Nat} {plan : Plan} (hplan : plans[i]? = some plan) :
    i < line.commands.length ∧ line.commands[i]? = some plan.command ∧
      plan.wiring = line.wiring i := by
  have hi : i < line.commands.length := by
    rw [← length_plans hplans]
    exact (List.getElem?_eq_some_iff.1 hplan).1
  have hpair : (line.commands.zip line.wirings)[i]? = some (plan.command, plan.wiring) := by
    rw [← hplans, List.getElem?_map, hplan]
    rfl
  obtain ⟨hcommand, hwiring⟩ := List.getElem?_zip_eq_some.1 hpair
  exact ⟨hi, hcommand, Option.some.inj (hwiring.symm.trans (CommandLine.getElem?_wirings hi))⟩

end

section

variable (h : Launched line.blocks chunk s .none plans stages relays loop)
  (hplans : plans.map (fun plan => (plan.command, plan.wiring)) = line.commands.zip line.wirings)

include h hplans

theorem Launched.length_attempts : loop.attempts.length = line.commands.length := by
  have hlen := length_plans hplans
  rw [← h.length_eq, ← List.length_map (f := Stage.pid), ← h.spawns, ← Trace.map_pid_attempts,
    List.length_map] at hlen
  exact hlen

/-- Each attempt is one for the stage at its place. -/
theorem Launched.attempt_eq {i : Nat} {a : Attempt} (ha : loop.attempts[i]? = some a) :
    ∃ plan ∈ plans, ∃ up, i < line.commands.length ∧ line.commands[i]? = some plan.command ∧
      plan.wiring = line.wiring i ∧
      (Predecessor.none :: loop.attempts.map (.of ·.pid))[i]? = some up ∧
      a = ⟨Platform.direct.arguments plan.command.argv, s.cwd,
        stageStreams line.blocks up plan (i + 1 == line.commands.length), a.pid⟩ := by
  have hi : i < loop.attempts.length := (List.getElem?_eq_some_iff.1 ha).1
  have hspawns : loop.spawns = loop.attempts.map Attempt.pid := (Trace.map_pid_attempts _).symm
  have hlength : loop.attempts.length = plans.length := by
    rw [← h.length_eq, ← List.length_map (f := Stage.pid), ← h.spawns, hspawns, List.length_map]
  have hplan : i < plans.length := hlength ▸ hi
  obtain ⟨up, hup⟩ : ∃ up, (Predecessor.none :: loop.spawns.map .of)[i]? = some up := by
    refine ⟨_, List.getElem?_eq_getElem ?_⟩
    rw [hspawns]
    simp only [List.length_cons, List.length_map]
    omega
  obtain ⟨pid, hpid, hattempt⟩ := h.attempt (List.getElem?_eq_getElem hplan) hup
  obtain ⟨hi, hcommand, hwiring⟩ := wiring_of_plans hplans (List.getElem?_eq_getElem hplan)
  rw [← hlength, h.length_attempts hplans] at hattempt
  refine ⟨plans[i], List.getElem_mem _, up, hi, hcommand, hwiring, ?_, ?_⟩
  · rw [hspawns, List.map_map] at hup
    exact hup
  · rw [ha] at hattempt
    rw [Option.some.inj hattempt]

/-- The commands of the line are tried in order. -/
theorem Launched.arguments_eq : loop.attempts.map Attempt.arguments =
    line.commands.map (Platform.direct.arguments ·.argv) := by
  refine List.ext_getElem? fun i => ?_
  rw [List.getElem?_map, List.getElem?_map]
  cases ha : loop.attempts[i]? with
  | none =>
    have hi := List.getElem?_eq_none_iff.1 ha
    rw [h.length_attempts hplans] at hi
    rw [List.getElem?_eq_none hi]
    rfl
  | some a =>
    obtain ⟨plan, -, up, -, hcommand, -, -, heq⟩ := h.attempt_eq hplans ha
    rw [hcommand, heq]
    rfl

variable (hfiles : ∀ plan ∈ plans, FilesOpened s plan.wiring plan.files opened)

include hfiles

/-- Neighbours are linked by pipes. -/
theorem Launched.between {i : Nat} {up down : Attempt} (hup : loop.attempts[i]? = some up)
    (hdown : loop.attempts[i + 1]? = some down) : up.streams.stdout = .pipe ∧
      up.streams.stderr = .inherit ∧
        down.streams.stdin = if up.pid.isSome then .pipe else .null := by
  obtain ⟨plan, hplan, before, -, -, hwiring, -, heq⟩ := h.attempt_eq hplans hup
  obtain ⟨plan', -, before', hi, -, hwiring', hbefore', heq'⟩ := h.attempt_eq hplans hdown
  have hout : plan.wiring.stdout = .pipe := by
    rw [hwiring]
    exact (CommandLine.wiring_stdout_iff (Nat.lt_of_succ_lt hi)).2 hi
  have hin : plan'.wiring.stdin = .pipe := by
    rw [hwiring']
    exact (CommandLine.wiring_stdin_iff line (i + 1)).2 (Nat.succ_ne_zero i)
  have herror : plan.wiring.errorPath = none := by
    have hsound := CommandLine.wirings_sound (CommandLine.getElem?_wirings (Nat.lt_of_succ_lt hi))
    rw [hwiring, hsound.errorPath_eq, if_neg (Nat.ne_of_lt hi)]
  refine ⟨?_, ?_, ?_⟩
  · rw [heq, stageStreams_stdout_eq]
    simp [StageFiles.streams, hout]
  · have hfile := (hfiles plan hplan).error
    rw [herror] at hfile
    rw [heq, stageStreams_stderr_eq, show plan.files.error = none from hfile]
    rfl
  · -- behind a stage that has no process there is nothing to read
    obtain rfl : Predecessor.of up.pid = before' := by
      rw [List.getElem?_cons_succ, List.getElem?_map, hup] at hbefore'
      exact Option.some.inj hbefore'
    rw [heq']
    cases up.pid with
    | none => rfl
    | some pid => exact stageStreams_of_stdin hin (fun h => by cases h)

/-- The first stage reads the input file. -/
theorem Launched.first_stdin {a : Attempt} (ha : loop.attempts.head? = some a) :
    ∃ file, Opened s (CommandLine.target? line.input) .read file opened ∧
      a.streams.stdin = StageFiles.stream file := by
  rw [List.head?_eq_getElem?] at ha
  obtain ⟨plan, hplan, up, -, -, hwiring, hup, heq⟩ := h.attempt_eq hplans ha
  obtain rfl : Predecessor.none = up := Option.some.inj hup
  exact ⟨plan.files.input, opened_input hwiring (hfiles plan hplan),
    by rw [heq]; exact Shell.first_stdin hwiring⟩

/-- The last stage writes its errors to the error file, and what it writes goes to a pipe, or in the
background to the output file. -/
theorem Launched.last_streams {a : Attempt} (ha : loop.attempts.getLast? = some a) :
    (if line.background then
      ∃ file, Opened s (CommandLine.target? line.output)
        (if line.append then .append else .write) file opened ∧
          a.streams.stdout = StageFiles.stream file
    else a.streams.stdout = .pipe) ∧
      ∃ file, Opened s (CommandLine.target? line.error) .write file opened ∧
        a.streams.stderr = StageFiles.stream file := by
  rw [List.getLast?_eq_getElem?, h.length_attempts hplans] at ha
  obtain ⟨plan, hplan, up, hi, -, hwiring, -, heq⟩ := h.attempt_eq hplans ha
  have hend : line.commands.length - 1 + 1 = line.commands.length := by omega
  have hfile := hfiles plan hplan
  refine ⟨?_, plan.files.error, opened_error hend hwiring hfile,
    by rw [heq, stageStreams_stderr_eq]⟩
  cases hbg : line.background with
  | false =>
    -- in the foreground the interpreter reads what the last stage writes, even if there is a file
    rw [if_neg (by simp), heq, stageStreams_stdout_eq]
    simp [StageFiles.streams, hend, CommandLine.blocks, hbg]
  | true =>
    rw [if_pos rfl]
    refine ⟨plan.files.output, opened_output hend hwiring hfile, ?_⟩
    rw [heq, CommandLine.blocks, hbg, beq_iff_eq.2 hend]
    exact last_stdout hend hwiring

/-- **The loop wires the stages.** Whatever its attempts bring, the stages are wired when it ends. -/
theorem Launched.wired (hnew : loop.started.Nodup) : Wired line s opened loop := by
  have hrelayed : loop.relayed = relaysBetween loop.spawns := h.relayed
  have hspawned : ∀ {i : Nat} {a : Attempt}, loop.attempts[i]? = some a →
      loop.spawns[i]? = some a.pid := by
    intro i a ha
    rw [← Trace.map_pid_attempts, List.getElem?_map, ha]
    rfl
  refine ⟨h.arguments_eq hplans, fun i up down => h.between hplans hfiles, ?_, ?_, ?_, ?_⟩
  · intro i up down hup hdown pid hpid
    have hup := hspawned hup
    rw [hpid] at hup
    rw [hrelayed]
    exact filter_relaysBetween_from hnew hup (hspawned hdown)
  · intro i up down hup hdown pid hpid
    have hdown := hspawned hdown
    rw [hpid] at hdown
    rw [hrelayed]
    exact filter_relaysBetween_to hnew (hspawned hup) hdown
  · intro a ha
    refine ⟨h.first_stdin hplans hfiles ha, fun pid hpid => ?_⟩
    rw [hrelayed]
    refine not_to_first hnew ?_
    rw [← Trace.map_pid_attempts, List.head?_map, ha, Option.map_some, hpid]
  · intro a ha
    obtain ⟨hout, herror⟩ := h.last_streams hplans hfiles ha
    refine ⟨hout, herror, fun pid hpid => ?_⟩
    rw [hrelayed]
    refine not_from_last hnew ?_
    rw [← Trace.map_pid_attempts, List.getLast?_map, ha, Option.map_some, hpid]

end

end Shell

/-! ### The rest of the run -/

/-- Whether a request starts nothing, and reads the output of no process but one. -/
def Request.isAfter (last : Option ProcessId) : Request → Bool
  | .spawn .. | .startRelay .. => false
  | .readOutput pid => last == some pid
  | _ => true

theorem Request.isAfter_of_isAside {last : Option ProcessId} {r : Request}
    (h : r.isAside = true) : r.isAfter last = true := by
  cases r <;> first | rfl | cases h

theorem Trace.attempts_of_after {last : Option ProcessId} {es : Trace}
    (h : es.Only (Request.isAfter last)) : es.attempts = [] := by
  refine List.filterMap_eq_nil_iff.2 fun e he => ?_
  have hkind := h e he
  obtain ⟨r, o⟩ := e
  cases r <;> first | rfl | cases hkind

theorem Trace.relayed_of_after {last : Option ProcessId} {es : Trace}
    (h : es.Only (Request.isAfter last)) : es.relayed = [] := by
  refine List.filterMap_eq_nil_iff.2 fun e he => ?_
  have hkind := h e he
  obtain ⟨r, o⟩ := e
  cases r <;> first | rfl | cases hkind

namespace Shell

variable {last : Option ProcessId} {sink : Option FileId} {stages : List Stage}
  {relays : List RelayId} {line : CommandLine}

theorem drainTo_asks (pid : ProcessId) {put : Text.Bytes → Shell (σ × Trace) Unit}
    (hput : ∀ bytes, Asks k (Request.isAfter (some pid)) (put bytes)) (rounds : Nat) :
    Asks k (Request.isAfter (some pid)) (drainTo pid put rounds) := by
  induction rounds with
  | zero => exact fun _ => .never ⟨rfl, Trace.only_nil _⟩
  | succ rounds ih =>
    refine Asks.bind (.ask (by simp [Request.isAfter])) fun bytes => ?_
    cases bytes with
    | nil => exact .pure ()
    | cons b bytes => exact (hput _).bind fun _ => ih

theorem drain_asks (pid : ProcessId) (sink : Option FileId) :
    Asks k (Request.isAfter (some pid)) (drain pid sink) := by
  refine fun s => .bound_bind (f := fun rounds => _) ?_
  cases sink with
  | some file => exact (drainTo_asks pid (fun _ => .ask rfl) _).bind (fun _ => .ask rfl) s
  | none =>
    refine Asks.bind (.ask rfl) (fun takesBytes => ?_) s
    cases takesBytes with
    | true =>
      exact (Asks.ask rfl).bind fun _ =>
        (drainTo_asks pid (fun _ => .ask rfl) _).bind fun _ => .ask rfl
    | false => exact (drainTo_asks pid (fun _ => .ask rfl) _).bind fun _ => .ask rfl

theorem waitAll_asks {p : Request → Bool} (hp : ∀ pid, p (.wait pid) = true)
    (pids : List ProcessId) : Asks k p (pids.forM fun pid => do let _ ← wait pid) :=
  .forM fun pid => (Asks.ask (hp pid)).bind fun _ => .pure ()

theorem collect_asks : Asks k (Request.isAfter (lastPid stages)) (collect sink stages relays) := by
  have hlast : Asks k (Request.isAfter (lastPid stages)) (drainLast sink (lastPid stages)) := by
    cases lastPid stages with
    | none => exact .pure _
    | some pid =>
      exact (drain_asks pid sink).bind fun _ => (Asks.ask rfl).bind fun _ => .ask rfl
  refine hlast.attempt.bind fun code => ?_
  rcases code with f | code
  · exact .pure _
  · have hothers : Asks k (Request.isAfter (lastPid stages)) (awaitOthers stages relays) :=
      (Asks.forM fun _ => .ask rfl).bind fun _ => waitAll_asks (fun _ => rfl) _
    refine hothers.attempt.bind fun waited => ?_
    rcases waited with f | _ <;> exact .pure _

theorem detach_asks (stages : List Stage) (s : Session) :
    Ensures k (detach stages) s fun _ _ es => es.Only (Request.isAfter last) := by
  induction stages generalizing s with
  | nil => exact .pure (Trace.only_nil _)
  | cons stage stages ih =>
    obtain ⟨command, pid⟩ := stage
    cases pid with
    | none => exact ih s
    | some pid =>
      have hpoll : ∀ o, Trace.Only (Request.isAfter last) [⟨.poll pid, o⟩] :=
        fun o => Trace.only_cons.2 ⟨rfl, Trace.only_nil _⟩
      refine Ensures.bind (Q := fun _ _ es => es.Only (Request.isAfter last)) ?_ ?_
        (fun _ _ _ h => h) fun _ _ h => h
      · refine .ask_bind (fun code => ?_) (fun f => hpoll _) (hpoll _)
        cases code with
        | some code => exact .pure (hpoll _)
        | none =>
          refine (register_ensures _ _).mono fun _ _ _ h => Trace.only_cons.2 ⟨rfl, ?_⟩
          exact h.2.mono fun _ => Request.isAfter_of_isAside
      · exact fun _ s' es hes => (ih s').mono fun _ _ _ h => Trace.only_append.2 ⟨hes, h⟩

/-- What a pipeline has come to when its files are closed. -/
def Ending.result : Ending → Result
  | .done result => result
  | .exited result _ _ => result

/-- What comes after the stages have been started: it starts nothing, it reads from one process
only, and the processes that it tells of are those of the stages. -/
abbrev Follows (last : Option ProcessId) (pids : List ProcessId) : Post Ending := fun o _ es =>
  es.Only (Request.isAfter last) ∧ ∀ ending, o = .returned ending → ending.result.pids = pids

theorem follows_done {x : Shell (σ × Trace) Unit} {r : Result} {pids : List ProcessId}
    (hx : Ensures k x s fun _ _ es => es.Only (Request.isAfter last)) (hr : r.pids = pids) :
    Ensures k (x >>= fun _ => pure (Ending.done r)) s (Follows last pids) := by
  refine hx.bind (fun _ s' es hes => .pure ⟨?_, ?_⟩) (fun _ _ _ h => ⟨h, fun _ => nofun⟩)
    fun _ _ h => ⟨h, fun _ => nofun⟩
  · rw [List.append_nil]
    exact hes
  · rintro _ ⟨⟩
    exact hr

theorem awaitPipeline_follows (result : Result) :
    Ensures k (awaitPipeline sink stages relays result) s
      (Follows (lastPid stages) result.pids) := by
  refine (collect_asks s).bind ?_ (fun _ _ _ h => ⟨h.2, fun _ => by simp⟩)
    fun _ _ h => ⟨h.2, fun _ => by simp⟩
  rintro ⟨code, fault⟩ s' es ⟨rfl, hes⟩
  have hrest : ∀ {x : Shell (σ × Trace) Ending},
      Ensures k x s' (Follows (lastPid stages) result.pids) → Ensures k x s' fun o s'' es' =>
        Follows (lastPid stages) result.pids o s'' (es ++ es') := fun h =>
    h.mono fun _ _ _ h => ⟨Trace.only_append.2 ⟨hes, h.1⟩, h.2⟩
  cases fault with
  | none =>
    refine hrest (.pure ⟨Trace.only_nil _, ?_⟩)
    rintro _ ⟨⟩
    rfl
  | some f =>
    cases f with
    | interrupt =>
      refine hrest (follows_done ?_ rfl)
      have hreport : ∀ o, Trace.Only (Request.isAfter (lastPid stages))
          [⟨.report "error running pipeline: interrupted", o⟩] :=
        fun o => Trace.only_cons.2 ⟨rfl, Trace.only_nil _⟩
      refine .modifySession_bind (.ask_bind (fun _ => ?_) (fun _ => hreport _) (hreport _))
      exact (detach_asks stages _).mono fun _ _ _ h => Trace.only_cons.2 ⟨rfl, h⟩
    | system | described | brokenPipe | cannotOpen =>
      refine hrest ?_
      simp only [Fault.isIo, if_true]
      rw [← bind_assoc]
      have hwait : ∀ text : String, Asks k (Request.isAfter (lastPid stages)) (report text >>=
          fun _ => (pidsOf stages).forM fun pid => do let _ ← wait pid) :=
        fun text => (Asks.ask rfl).bind fun _ => waitAll_asks (fun _ => rfl) _
      exact follows_done ((hwait _ s').mono fun _ _ _ h => h.2) rfl
    | invalid | wrongKind | outOfRange | linkLoop =>
      exact hrest (.raise ⟨Trace.only_nil _, fun _ => by simp⟩)

/-- What is left of a line once its stages have been started. -/
def settle (line : CommandLine) (sink : Option FileId) (stages : List Stage)
    (relays : List RelayId) : Shell σ Ending :=
  let result : Result := {
    pids := pidsOf stages, background := line.background
    failure := if stages.any (·.pid.isNone) then some .spawn else none }
  if line.blocks then awaitPipeline sink stages relays result
  else do
    leaveInBackground line stages
    return .done result

/-- Starting the stages comes first. -/
theorem runStages_eq (plans : List Plan) : (runStages line plans : Shell σ Ending) =
    (do
      let s ← session
      let r ← launch line.blocks s.settings.relayChunk .none plans
      settle line (plans.getLast?.bind (·.files.output)) r.1 r.2) := rfl

theorem settle_follows : Ensures k (settle line sink stages relays) s
    (Follows (if line.background then none else lastPid stages) (pidsOf stages)) := by
  cases hbg : line.background with
  | false =>
    simp only [settle, CommandLine.blocks, hbg, Bool.not_false, if_true, Bool.false_eq_true,
      if_false]
    exact awaitPipeline_follows _
  | true =>
    simp only [settle, CommandLine.blocks, hbg, Bool.not_true, Bool.false_eq_true, if_false,
      if_true]
    refine follows_done ((leaveInBackground_ensures stages).mono fun _ _ _ h => ?_) rfl
    exact h.1.mono fun _ => Request.isAfter_of_isAside

theorem reportRelays_pids (r : Result) (relays : List RelayId) :
    Performs k Request.isAside (reportRelays r relays) s fun r' _ => r'.pids = r.pids := by
  induction relays generalizing r with
  | nil => exact .pure rfl
  | cons relay relays ih =>
    refine .ask_bind rfl fun fault => ?_
    cases fault with
    | none => exact ih r
    | some f => exact .ask_bind rfl fun _ => ih _

theorem conclude_ensures (ending : Ending) : Ensures k (conclude ending) s fun o _ es =>
    es.Aside ∧ ∀ r, o = .returned r → r.pids = ending.result.pids := by
  cases ending with
  | done result =>
    refine .pure ⟨Trace.only_nil _, ?_⟩
    rintro _ ⟨⟩
    rfl
  | exited result relays lastStarted =>
    refine Ensures.bind (reportRelays_pids result relays) ?_ (fun _ _ _ h => ⟨h.2.1, fun _ => nofun⟩)
      fun _ _ h => ⟨h.2.1, fun _ => nofun⟩
    rintro r s' es ⟨rfl, hes, hr⟩
    refine (reportExit_asks r lastStarted s').bind ?_
      (fun _ _ _ h => ⟨Trace.only_append.2 ⟨hes, h.2⟩, fun _ => nofun⟩)
      fun _ _ h => ⟨Trace.only_append.2 ⟨hes, h.2⟩, fun _ => nofun⟩
    rintro _ s'' es' ⟨rfl, hes'⟩
    refine .pure ⟨?_, ?_⟩
    · rw [List.append_nil]
      exact Trace.only_append.2 ⟨hes, hes'⟩
    · rintro _ ⟨⟩
      exact hr

/-- What comes of doing something, then closing files, depends only on what comes of it. -/
theorem closing_run_congr {α τ : Type} {k : Kernel τ} {x y : Shell τ α} {w w' : World τ}
    (ids : List FileId) (h : x k w = y k w') : closing ids x k w = closing ids y k w' := by
  have hattempt : x.attempt k w = y.attempt k w' := by rw [attempt, attempt, h]
  rw [closing, closing, bind_run, bind_run, hattempt]

/-- What comes after the loop, up to the end of the run. -/
theorem rest_follows (ids : List FileId) : Ensures k (do
      let ending ← closing ids (settle line sink stages relays)
      conclude ending) s fun o _ es =>
    es.Only (Request.isAfter (if line.background then none else lastPid stages)) ∧
      ∀ r, o = .returned r → r.pids = pidsOf stages := by
  have haside : ∀ {es : Trace}, es.Aside →
      es.Only (Request.isAfter (if line.background then none else lastPid stages)) :=
    fun h => h.mono fun _ => Request.isAfter_of_isAside
  refine (Ensures.closing ids settle_follows).bind ?_ ?_ ?_
  · rintro ending s' _ ⟨o, es₁, es₂, rfl, ⟨hes, hpids⟩, hclosed, hafter⟩
    have hclosed := hclosed.mono fun _ => Request.isAside_of_isClose
    refine (conclude_ensures ending).mono fun o' _ es₃ h => ⟨?_, fun r hr => ?_⟩
    · exact Trace.only_append.2 ⟨Trace.only_append.2 ⟨hes, haside hclosed⟩, haside h.1⟩
    · rw [h.2 r hr]
      exact hpids ending (hafter.returned rfl)
  · rintro f s' _ ⟨o, es₁, es₂, rfl, ⟨hes, -⟩, hclosed, -⟩
    have hclosed := hclosed.mono fun _ => Request.isAside_of_isClose
    exact ⟨Trace.only_append.2 ⟨hes, haside hclosed⟩, fun _ => nofun⟩
  · rintro s' _ ⟨o, es₁, es₂, rfl, ⟨hes, -⟩, hclosed, -⟩
    have hclosed := hclosed.mono fun _ => Request.isAside_of_isClose
    exact ⟨Trace.only_append.2 ⟨hes, haside hclosed⟩, fun _ => nofun⟩

/-- Neither opening files nor starting processes reads anything, and what comes after reads from the
last stage only. -/
theorem last_of_reads {line : CommandLine} {stages : List Stage} {opened loop rest : Trace}
    (hopened : opened.Aside) (hloop : loop.Only Request.isLaunch)
    (hspawns : loop.spawns = stages.map Stage.pid)
    (hrest : rest.Only (Request.isAfter (if line.background then none else lastPid stages)))
    {e : Event} (he : e ∈ opened ++ loop ++ rest) {pid : ProcessId}
    (hread : e.request = .readOutput pid) :
    line.background = false ∧ loop.spawns.getLast? = some (some pid) := by
  rw [List.append_assoc, List.mem_append, List.mem_append] at he
  rcases he with he | he | he
  · have hkind := hopened e he
    rw [hread] at hkind
    cases hkind
  · have hkind := hloop e he
    rw [hread] at hkind
    cases hkind
  · have hkind := hrest e he
    rw [hread] at hkind
    cases hbg : line.background with
    | true => simp [hbg, Request.isAfter] at hkind
    | false =>
      have hlast : lastPid stages = some pid := by simpa [hbg, Request.isAfter] using hkind
      refine ⟨rfl, ?_⟩
      obtain ⟨stage, hstage, hpid⟩ := Option.bind_eq_some_iff.1 hlast
      rw [hspawns, List.getLast?_map, hstage, Option.map_some, hpid]

end Shell

open Shell

/-- **Stages are wired soundly.** Take a pipeline whose files have been opened, and the end of the
loop that starts its stages, whichever of them it could start: their processes are linked one to
the next, nothing else is started in the run, nothing but the drain of the last stage reads from a
process, and the result names the processes that were started. -/
theorem runPipeline_wires {line : CommandLine} {s s₁ s₂ : Session} {out out₁ out₂ : σ}
    {plans : List Plan} {stages : List Stage} {relays : List RelayId} {opened loop : Trace}
    (hopened : openStages (line.commands.zip line.wirings) k.traced ⟨s, (out, [])⟩ =
      (.returned (plans, none), ⟨s₁, (out₁, opened)⟩))
    (hloop : launch line.blocks s₁.settings.relayChunk .none plans k.traced
      ⟨s₁, (out₁, opened)⟩ = (.returned (stages, relays), ⟨s₂, (out₂, opened ++ loop)⟩))
    (hnew : loop.started.Nodup) :
    (∀ i w, line.wirings[i]? = some w → line.WiringsSound i w) ∧ Wired line s opened loop ∧
      ∃ o s' out' rest,
        runPipeline line k.traced ⟨s, (out, [])⟩ = (o, ⟨s', (out', opened ++ loop ++ rest)⟩) ∧
        rest.attempts = [] ∧ rest.relayed = [] ∧
        (∀ e ∈ opened ++ loop ++ rest, ∀ pid, e.request = .readOutput pid →
          line.background = false ∧ loop.spawns.getLast? = some (some pid)) ∧
        ∀ r, o = .returned r → r.pids = loop.started := by
  obtain ⟨-, rfl, hopening, hplans⟩ := (openStages_ensures _).run hopened
  obtain ⟨hcommands, hfiles⟩ := hplans _ rfl
  have hperforms : Performs k Request.isLaunch
      (launch line.blocks s₁.settings.relayChunk .none plans) s₁ fun r es =>
        Launched line.blocks s₁.settings.relayChunk s₁ .none plans r.1 r.2 es := launch_performs
  obtain ⟨o₁, s₁', out₁', es, hrun₁, -, hs₂, hlaunch, hyields⟩ := hperforms out₁ opened
  rw [hloop] at hrun₁
  simp only [Prod.mk.injEq, World.mk.injEq, List.append_cancel_left_eq] at hrun₁
  obtain ⟨rfl, rfl, rfl, rfl⟩ := hrun₁
  subst hs₂
  have hlaunched : Launched line.blocks s₂.settings.relayChunk s₂ .none plans stages relays loop :=
    hyields
  have hfollows : Ensures k (do
      let ending ← closing (idsOf plans)
        (settle line (plans.getLast?.bind (·.files.output)) stages relays)
      conclude ending) s₂ fun o _ es =>
        es.Only (Request.isAfter (if line.background then none else lastPid stages)) ∧
          ∀ r, o = .returned r → r.pids = pidsOf stages := rest_follows (idsOf plans)
  obtain ⟨o, s', out', rest, hrun₂, -, hrest, hpids⟩ := hfollows out₂ (opened ++ loop)
  have hstages : runStages line plans k.traced ⟨s₂, (out₁, opened)⟩ =
      settle line (plans.getLast?.bind (·.files.output)) stages relays k.traced
        ⟨s₂, (out₂, opened ++ loop)⟩ := by
    rw [runStages_eq, bind_run, session_run]
    show (launch line.blocks s₂.settings.relayChunk .none plans >>= _) k.traced _ = _
    rw [bind_run, hloop]
  have hrun : runPipeline line k.traced ⟨s₂, (out, [])⟩ =
      (o, ⟨s', (out', opened ++ loop ++ rest)⟩) := by
    rw [← hrun₂, runPipeline_eq, bind_run, hopened]
    show (closing (idsOf plans) (runStages line plans) >>= conclude) k.traced _ = _
    rw [bind_run, bind_run, closing_run_congr _ hstages]
  have hspawns : loop.spawns = stages.map Stage.pid := hlaunched.spawns
  refine ⟨fun i w => CommandLine.wirings_sound, hlaunched.wired (hcommands rfl) hfiles hnew, o, s',
    out', rest, hrun, Trace.attempts_of_after hrest, Trace.relayed_of_after hrest, ?_, fun r hr => ?_⟩
  · exact fun e he pid hread => last_of_reads hopening hlaunch hspawns hrest he hread
  · rw [hpids r hr, Trace.started, hspawns, List.filterMap_map]
    rfl

/-- A host that knows the programs `a` and `b` only. -/
def gapHost : Host Host.Scripted where
  programs := Host.Scripted.programs [("a", { out := [120, 10] }), ("b", { copies := true })]
  patience := 40

/-- The line `a | x | b`. -/
def gapLine : CommandLine := { first := ⟨"a", []⟩, others := [⟨"x", []⟩, ⟨"b", []⟩] }

/-- The stages of that line, which needs no files. -/
def gapPlans : List Plan :=
  (gapLine.commands.zip gapLine.wirings).map fun stage => ⟨stage.1, stage.2, {}⟩

/-- A session that has no jobs. -/
def gapSession : Session := { cwd := ⟨.root, []⟩, home := "/", settings := { historyFile := "" } }

/-- The loop that starts these stages. -/
def gapLoop : Outcome (List Stage × List RelayId) × World (Host.Machine Host.Scripted × Trace) :=
  launch gapLine.blocks gapSession.settings.relayChunk .none gapPlans gapHost.kernel.traced
    ⟨gapSession, ({}, [])⟩

/-- The first process gets a relay that leads nowhere, and the last one has nothing to read. -/
theorem runPipeline_wires_gap :
    gapLoop.1 = .returned ([⟨⟨"a", []⟩, some 1⟩, ⟨⟨"x", []⟩, none⟩, ⟨⟨"b", []⟩, some 2⟩], [0]) ∧
      gapLoop.2.outside.2.relayed = [(1, none)] ∧
        Wired gapLine gapSession [] gapLoop.2.outside.2 := by
  have hreturned : gapLoop.1 =
      .returned ([⟨⟨"a", []⟩, some 1⟩, ⟨⟨"x", []⟩, none⟩, ⟨⟨"b", []⟩, some 2⟩], [0]) := by
    decide +kernel
  refine ⟨hreturned, by decide +kernel, ?_⟩
  have hopened : openStages (gapLine.commands.zip gapLine.wirings) gapHost.kernel.traced
      ⟨gapSession, ({}, [])⟩ = (.returned (gapPlans, none), ⟨gapSession, ({}, [])⟩) := rfl
  exact (runPipeline_wires hopened (Prod.ext hreturned rfl) (by decide +kernel)).2.1

end LineShell
