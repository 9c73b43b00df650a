import LineShell.Proofs.HeldFile
import LineShell.Proofs.Targets

namespace LineShell

open Text (Bytes)

/-!
# Runs that write a file

What a whole run of the interpreter leaves in a file that it holds.

* `Held.opened` — a file that has just been opened for writing holds what it was opened with;
* `Request.Keeps`, `Held.answer`, `Held.plays` — whatever the interpreter asks, what is in the file is
  what was given, and what the process that has it has written;
* `Held.spawned`, `Held.returned` — a process gets the file as its standard output, and lets go of it.
-/

/-! ### Opening the file -/

/-- What a file holds that is opened for writing, where something is there already. -/
def OpenMode.kept (mode : OpenMode) (old : Option Bytes) : Bytes :=
  if mode = .append then old.getD [] else []

/-- What a file holds when it has been opened for writing. -/
theorem FileSystem.content?_openWriting {fs fs' : FileSystem} {i : Inode} {cwd : Path} {path : String}
    {keep : Bool} {content : Bytes} (h : fs.openWriting cwd path keep = .ok (i, fs'))
    (hcontent : fs'.content? i = some content) :
    content = if keep then (fs.content? i).getD [] else [] := by
  unfold FileSystem.openWriting at h
  cases hfind : fs.find cwd .written path with
  | error e => simp [hfind, Bind.bind, Except.bind] at h
  | ok spot =>
    simp only [hfind, Bind.bind, Except.bind] at h
    cases spot with
    | found j =>
      simp only at h
      split at h
      · cases h
      · cases h
        cases keep with
        | true =>
          rw [if_pos rfl] at hcontent ⊢
          rw [hcontent]
          rfl
        | false =>
          -- it was a file already, and is empty now
          obtain ⟨executable, hnode⟩ := Host.Machine.node?_of_content? hcontent
          simp only [Bool.false_eq_true, if_false, FileSystem.setContent, FileSystem.node?,
            Array.getElem?_modify, if_true, Option.map_eq_some_iff] at hnode ⊢
          obtain ⟨_ | _ | _ | _, -, hold⟩ := hnode <;> cases hold
          rfl
    | absent directory name =>
      cases h
      have hnone : fs.content? fs.nodes.size = none := by
        unfold FileSystem.content? FileSystem.node?
        rw [Array.getElem?_eq_none (Nat.le_refl _)]
      have hempty : content = [] := by
        obtain ⟨executable, hnode⟩ := Host.Machine.node?_of_content? hcontent
        simp only [FileSystem.modifyEntries, FileSystem.node?,
          Array.getElem?_modify, Array.getElem?_push_size] at hnode
        split at hnode <;> cases hnode
        · rfl
        · rfl
      rw [hempty]
      split
      · exact congrArg (·.getD []) hnone.symm
      · rfl

/-! ### Requests -/

/-- A request closes one of the interpreter's files. -/
def Request.closes (id : FileId) : Request → Bool
  | .closeFile j => j == id
  | _ => false

namespace Host

variable {S : Type} {ps : Programs S} {wrote : S → Bytes} {m m₁ m₂ m' : Machine S} {node : Inode}
  {n o : Nat} {k : Option Nat} {id j : FileId} {lent closed : Bool} {given : Bytes} {es : Trace}

/-- The node that one of the interpreter's files leads to. -/
def Machine.nodeOf? (m : Machine S) (id : FileId) : Option Inode :=
  m.handles[id]?.bind fun handle => m.openings[handle.opening]?.map Opening.node

/-- What opening a file for writing makes of a machine. -/
theorem openHandle_writing {path : String} {mode : OpenMode}
    (h : m.openHandle path mode = (.returned id, m₁)) (hmode : mode ≠ .read) :
    ∃ i files, m.files.openWriting m.cwd path (decide (mode = .append)) = .ok (i, files) ∧
      id = m.handles.size ∧ m₁ = { m with
        files, openings := m.openings.push { node := i, append := mode = .append }
        handles := m.handles.push { opening := m.openings.size, path, mode } } := by
  unfold Machine.openHandle at h
  split at h
  · cases h
  · split at h
    · cases h
    · rename_i opening m₂ hopen
      unfold Machine.openPath at hopen
      simp only [Bind.bind, Except.bind, Pure.pure, Except.pure] at hopen
      cases mode with
      | read => exact absurd rfl hmode
      | write | append =>
        simp only at hopen
        split at hopen
        · cases hopen
        · rename_i opened hopened
          cases hopen
          cases h
          exact ⟨opened.1, opened.2, hopened, rfl, rfl⟩

variable (wrote) in
/-- **A file has been opened** for writing, and nobody else has it open. -/
theorem Held.opened (h : Apart node n none none m) {path : String} {mode : OpenMode}
    (hopen : m.openHandle path mode = (.returned id, m₁)) (hmode : mode ≠ .read)
    (hnode : m₁.nodeOf? id = some node) (hfile : m₁.files.content? node ≠ none) (lent : Bool) :
    ∃ o, Held wrote node n o id lent none false (mode.kept (m.files.content? node)) m₁ := by
  obtain ⟨i, files, hwriting, rfl, rfl⟩ := openHandle_writing hopen hmode
  have hhandle : (m.handles.push ({ opening := m.openings.size, path, mode } : Handle))[m.handles.size]? =
      some { opening := m.openings.size, path, mode } := Array.getElem?_push_size
  have hopening : (m.openings.push ({ node := i, append := mode = .append } : Opening))[m.openings.size]? =
      some { node := i, append := mode = .append } := Array.getElem?_push_size
  obtain rfl : i = node := by
    simpa only [Machine.nodeOf?, hhandle, Option.bind_some, hopening, Option.map_some,
      Option.some.injEq] using hnode
  obtain ⟨content, hcontent⟩ := Option.ne_none_iff_exists'.1 hfile
  have hkept : content = mode.kept (m.files.content? i) := by
    rw [FileSystem.content?_openWriting hwriting hcontent, OpenMode.kept]
    simp only [decide_eq_true_eq]
  have hgrown : Grown m ({ m with
      files, openings := m.openings.push { node := i, append := mode = .append }
      handles := m.handles.push { opening := m.openings.size, path, mode } } : Machine S) :=
    .of_push rfl
  refine ⟨m.openings.size, ⟨FileSystem.plain_of_content? hcontent, ?_, ?_, ?_⟩, nofun,
    fun hk => absurd rfl hk, nofun, content, [], ⟨⟨_, hopening, rfl, ?_⟩, hcontent⟩, ⟨_, hhandle, rfl, rfl, rfl⟩,
    ?_, fun _ => rfl⟩
  · exact ⟨hgrown.past h.inherited.1, hgrown.past h.inherited.2.1, hgrown.past h.inherited.2.2⟩
  · intro j p hp d hd
    exact (h.process hp d hd).imp_left hgrown.past
  · intro j handle hj hcounts
    rcases getElem?_push_cases hj with hold | ⟨rfl, -⟩
    · refine .inl (hgrown.past ((h.handle hold hcounts).resolve_right nofun))
    · exact .inr rfl
  · -- what is appended goes to the end, and an empty file has no other place
    by_cases happend : mode = .append
    · exact .inl (decide_eq_true happend)
    · right
      rw [hkept, OpenMode.kept, if_neg happend]
      rfl
  · rw [hkept]
    rfl

/-! ### Whatever the interpreter asks -/

/-- Another file that is opened comes after those that there are. -/
theorem handles_openHandle (m : Machine S) (path : String) (mode : OpenMode) (hid : id < m.handles.size) :
    (m.openHandle path mode).2.handles[id]? = m.handles[id]? := by
  rcases openHandle_cases m path mode with
    ⟨-, hopen⟩ | ⟨e, -, hopen⟩ | ⟨mid, opening, hopen, hhandles, -⟩
  · rw [hopen]
  · rw [hopen]
  · rw [hopen, hhandles, Array.getElem?_push, if_neg (Nat.ne_of_lt hid)]

/-- A new process comes after those that there are, with the next number. -/
theorem Machine.processes_addProcess (m : Machine S) (argv : List String) (cwd : Path)
    (streams : Streams) (launch : Launch S) :
    (m.addProcess argv cwd streams launch).1 = m.nextPid ∧
      ∃ q, (m.addProcess argv cwd streams launch).2.processes = m.processes.push q ∧
        q.pid = m.nextPid ∧ q.observed = none := by
  have hpid : ∀ (m : Machine S) (stream : Stream) (pipe : Pipe),
      (m.addPipe stream pipe).2.nextPid = m.nextPid := by
    intro m stream pipe
    unfold Machine.addPipe
    split <;> rfl
  obtain ⟨-, -, hprocesses⟩ := disk_addPipe m streams.stdin launch.input
  obtain ⟨-, -, hprocesses'⟩ := disk_addPipe (m.addPipe streams.stdin launch.input).2 streams.stdout
    launch.output
  unfold Machine.addProcess
  simp only
  rw [hprocesses'.trans hprocesses, hpid, hpid]
  exact ⟨rfl, _, rfl, rfl, rfl⟩

/-- A stream that goes to one of the interpreter's files leads where that does. -/
theorem Machine.channel_file {stream : Stream} {handle : Handle} (hstream : stream = .file id)
    (hhandle : m.handles[id]? = some handle) (c : Channel) (pipe : Option Nat) :
    m.channel stream c pipe = .opening handle.opening := by
  subst hstream
  unfold Machine.channel
  simp only [hhandle]

/-- A request concerns a file only by one of the interpreter's files, and starts no process with it.
To a file that is lent nothing is written. -/
def Request.Keeps (n : Nat) (id : FileId) (lent : Bool) : Request → Prop
  | .writeFile j _ => j = id → lent = false
  | .spawn _ _ streams => Streams.Avoid n (some id) streams
  | .writeHistory _ => False
  | _ => True

namespace Held

theorem id_lt (h : Held wrote node n o id lent k closed given m) : id < m.handles.size := by
  obtain ⟨-, -, -, ⟨handle, hhandle, -⟩, -⟩ := h.filed
  exact (Array.getElem?_eq_some_iff.1 hhandle).1

/-- Another process is started. -/
theorem started (h : Held wrote node n o id lent k closed given m) {argv : List String} {cwd : Path}
    {streams : Streams} (hstreams : Streams.Avoid n (some id) streams) (launch : Launch S) :
    Held wrote node n o id lent k closed given (m.addProcess argv cwd streams launch).2 := by
  have hdisk := (disk_addProcess m argv cwd streams launch).1
  obtain ⟨-, q, hprocesses, -⟩ := m.processes_addProcess argv cwd streams launch
  refine h.spared (.of_disk hdisk)
    (h.apart.spawned hstreams.stdin (.inl hstreams.stdout) hstreams.stderr) ?_ ?_ ?_
  · exact congrArg (fun d : Disk => d.handles[id]?) hdisk
  · rw [hprocesses, Array.size_push]
    exact Nat.le_succ _
  · intro i p hk hp
    rw [hprocesses, Array.getElem?_push, if_neg (Nat.ne_of_lt (h.there hk))] at hp
    exact ⟨p, hp, rfl, fun d hd _ => hd⟩

/-- Something is done to another of the interpreter's files. -/
theorem beside (h : Held wrote node n o id lent k closed given m)
    (hbeside : Apart node n k (some id) m₁ ∧ Spared node m m₁) (hnet : m₁.net = m.net)
    (hhandle : m₁.handles[id]? = m.handles[id]?) (r : Request) (out : Outcome r.Reply)
    (hcloses : r.closes id = false) (hhanded : Event.handed (some id) ⟨r, out⟩ = []) :
    Held wrote node n o id lent k (closed || r.closes id)
      (given ++ Event.handed (some id) ⟨r, out⟩) m₁ := by
  rw [hcloses, hhanded, Bool.or_false, List.append_nil]
  exact h.of_net hbeside.2 hbeside.1 hhandle hnet

/-- **Whatever the interpreter asks**, what is in the file is what was given, and what the process has
written. -/
theorem answer (h : Held wrote node n o id lent k closed given m) (host : Host S)
    (hrec : Records host.programs wrote)
    (hquiet : ∀ s pid number next, host.programs.next s ≠ .signal pid number next) {r : Request}
    (hr : Request.Keeps n id lent r)
    (hnew : OnlyOpens node m.openings.size (fun _ => False) (host.answer r m).2) :
    Held wrote node n o id lent k (closed || r.closes id)
      (given ++ Event.handed (some id) ⟨r, (host.answer r m).1⟩) (host.answer r m).2 := by
  have hsame : r.closes id = false → (∀ out, Event.handed (some id) ⟨r, out⟩ = []) →
      Held wrote node n o id lent k closed given (host.answer r m).2 →
        Held wrote node n o id lent k (closed || r.closes id)
          (given ++ Event.handed (some id) ⟨r, (host.answer r m).1⟩) (host.answer r m).2 := by
    intro hcloses hhanded hheld
    rw [hcloses, hhanded, Bool.or_false, List.append_nil]
    exact hheld
  cases haccess : Request.isAccess r with
  | false =>
    obtain ⟨m₁, hmoves, hslackens⟩ := host.answer_slackens haccess m
    have h₁ := h.moves hrec hquiet hmoves ((Grown.of_disk hslackens.disk).onlyOpens hnew)
    refine hsame ?_ (fun out => ?_) (h₁.slackens hslackens)
    · cases r <;> first | rfl | cases haccess
    · cases r <;> cases out <;> first | rfl | cases haccess
  | true =>
    cases r with
    | openFile path mode =>
      exact h.beside (h.apart.openHandle path mode hnew) (m.openHandle_net path mode)
        (handles_openHandle m path mode h.id_lt) _ _ rfl rfl
    | writeFile j bytes =>
      by_cases hj : j = id
      · subst hj
        obtain rfl : lent = false := hr rfl
        rw [show closed = (closed || Request.closes j (.writeFile j bytes)) from
          (Bool.or_false closed).symm] at h
        exact h.writeHandle bytes rfl
      · have hhanded : ∀ out, Event.handed (some id) ⟨.writeFile j bytes, out⟩ = [] := by
          rintro (_ | _ | _)
          · exact if_neg fun hid => hj (Option.some.inj hid).symm
          · rfl
          · rfl
        exact h.beside (h.apart.writeHandle (fun hid => hj (Option.some.inj hid).symm) bytes)
          (m.writeHandle_net j bytes) (Machine.handles_writeHandle_of_ne (Ne.symm hj) bytes) _ _ rfl
          (hhanded _)
    | flushFile j =>
      by_cases hj : j = id
      · subst hj
        exact hsame rfl (fun out => by cases out <;> rfl) h.flushHandle
      · exact h.beside (h.apart.flushHandle fun hid => hj (Option.some.inj hid).symm)
          (m.flushHandle_net j) (Machine.handles_flushHandle_of_ne (Ne.symm hj)) _ _ rfl rfl
    | closeFile j =>
      by_cases hj : j = id
      · subst hj
        have hcloses : (closed || Request.closes j (.closeFile j)) = true := by
          rw [Request.closes, beq_self_eq_true, Bool.or_true]
        rw [hcloses]
        show Held wrote node n o j lent k true (given ++ []) (m.closeHandle j).2
        rw [List.append_nil]
        exact h.closeHandle
      · exact h.beside (h.apart.closeHandle fun hid => hj (Option.some.inj hid).symm)
          (m.closeHandle_net j) (Machine.handles_closeHandle_of_ne (Ne.symm hj)) _ _
          (beq_false_of_ne hj) rfl
    | spawn argv cwd streams =>
      refine hsame rfl (fun out => by cases out <;> rfl) ?_
      show Held wrote node n o id lent k closed given (host.spawn m argv cwd streams).2
      unfold spawn
      split
      · exact h.slackens (.of_processes rfl rfl rfl)
      · exact h.started hr _
    | writeHistory path => exact hr.elim
    | _ => cases haccess

/-- **Runs**: what is in the file at the end is what was given, and what has been given since, and what
the process has written. -/
theorem plays (h : Held wrote node n o id lent k closed given m) (hrec : Records ps wrote)
    (hquiet : ∀ s pid number next, ps.next s ≠ .signal pid number next)
    (hes : ∀ e ∈ es, Request.Keeps n id lent e.request) (hplays : Plays ps m es m')
    (hnew : OnlyOpens node m.openings.size (fun _ => False) m') :
    Held wrote node n o id lent k (closed || es.any (·.request.closes id))
      (given ++ es.handed (some id)) m' := by
  induction es generalizing m closed given with
  | nil =>
    rw [List.any_nil, Bool.or_false]
    show Held wrote node n o id lent k closed (given ++ []) m'
    rw [List.append_nil]
    exact h.moves hrec hquiet hplays hnew
  | cons e es ih =>
    obtain ⟨m₁, m₂, host, hmoves, rfl, hanswer, hrest⟩ := hplays
    have hgrown := Grown.of_answer host hquiet e.request m₁
    have hgrown' := Grown.of_plays hquiet hrest
    rw [hanswer] at hgrown
    have h₁ := h.moves hrec hquiet hmoves ((hgrown.trans hgrown').onlyOpens hnew)
    have hgrown₁ := Grown.of_moves hquiet hmoves
    -- what is opened later on is opened after what has been opened before
    have hnew₂ : ∀ {m₃ : Machine S}, Grown m m₃ →
        OnlyOpens node m₃.openings.size (fun _ => False) m' :=
      fun hle o x ho => hnew o x (Nat.le_trans hle.size_le ho)
    have h₂ := h₁.answer host hrec hquiet (r := e.request) (hes e (.head _)) <| by
      rw [hanswer]
      exact hgrown'.onlyOpens (hnew₂ hgrown₁)
    rw [hanswer] at h₂
    have h' := ih h₂ (fun e he => hes e (.tail _ he)) hrest (hnew₂ (hgrown₁.trans hgrown))
    rw [List.any_cons, ← Bool.or_assoc]
    show Held wrote node n o id lent k _ (given ++ (e.handed (some id) ++ Trace.handed (some id) es)) m'
    rw [← List.append_assoc]
    exact h'

/-! ### A process that has the file -/

/-- **A process gets the file** as its standard output. -/
theorem spawned (h : Held wrote node n o id true none closed given m) {argv : List String} {cwd : Path}
    {streams : Streams} {launch : Launch S} (hin : Stream.Avoids n (some id) streams.stdin)
    (hout : streams.stdout = .file id) (herr : Stream.Avoids n (some id) streams.stderr)
    (hwrote : wrote launch.program = []) :
    Held wrote node n o id true (some m.processes.size) closed given
      (m.addProcess argv cwd streams launch).2 := by
  obtain ⟨content, waiting, hends, ⟨handle, hhandle, hclosed, hopening, hpending⟩, htotal, hempty⟩ :=
    h.filed
  have hdisk := (disk_addProcess m argv cwd streams launch).1
  obtain ⟨hdisk₁, -, hprocesses₁⟩ := disk_addPipe m streams.stdin launch.input
  obtain ⟨hdisk₂, -, hprocesses₂⟩ := disk_addPipe (m.addPipe streams.stdin launch.input).2
    streams.stdout launch.output
  obtain ⟨q, hprocesses, hprogram, hdescriptors⟩ : ∃ q : Process S,
      (m.addProcess argv cwd streams launch).2.processes = m.processes.push q ∧
        q.program = launch.program ∧ ∀ d ∈ q.descriptors, d.1 = 1 → d.2 = .opening o := by
    have hhandles := congrArg (fun d : Disk => d.handles[id]?) (hdisk₂.trans hdisk₁)
    unfold Machine.addProcess
    simp only
    rw [hprocesses₂.trans hprocesses₁]
    refine ⟨_, rfl, rfl, ?_⟩
    rintro ⟨fd, c⟩ hd hone
    simp only [List.mem_cons, Prod.mk.injEq, List.not_mem_nil, or_false] at hd
    obtain ⟨rfl, -⟩ | ⟨rfl, rfl⟩ | ⟨rfl, -⟩ := hd
    · cases hone
    · -- the file that the interpreter has open is where the output goes
      exact (Machine.channel_file hout (hhandles.trans hhandle) _ _).trans
        (congrArg Channel.opening hopening)
    · cases hone
  have hnew : (m.addProcess argv cwd streams launch).2.processes[m.processes.size]? = some q := by
    rw [hprocesses, Array.getElem?_push_size]
  refine ⟨Apart.spawned (h.apart.of_none rfl _) hin (.inr rfl) herr, ?_, fun _ => rfl, ?_, content,
    waiting, hends.of_disk hdisk, ⟨handle, ?_, hclosed, hopening, hpending⟩, ?_, hempty⟩
  · rintro i ⟨⟩
    rw [hprocesses, Array.size_push]
    exact Nat.lt_succ_self _
  · rintro i p ⟨⟩ hp
    cases hnew.symm.trans hp
    exact hdescriptors
  · exact (congrArg (fun d : Disk => d.handles[id]?) hdisk).trans hhandle
  · have hnothing : (m.addProcess argv cwd streams launch).2.wroteBy wrote (some m.processes.size) =
        [] := by
      unfold Machine.wroteBy
      rw [Option.bind_some, hnew]
      show wrote q.program = []
      rw [hprogram, hwrote]
    rw [hnothing]
    exact htotal

/-- A process that has nothing open any more does not have the file either. -/
theorem released {i : Nat} {p : Process S} (h : Held wrote node n o id lent (some i) closed given m)
    (hp : m.processes[i]? = some p) (hnothing : p.descriptors = []) :
    Held wrote node n o id lent none closed (given ++ wrote p.program) m := by
  obtain ⟨content, waiting, hends, hfile, htotal, hempty⟩ := h.filed
  refine ⟨⟨h.apart.plain, h.apart.inherited, fun {j q} hq d hd => ?_, h.apart.handle⟩, nofun,
    fun hk => absurd rfl hk, nofun, content, waiting, hends, hfile, ?_, hempty⟩
  · refine .inl ((h.apart.process hq d hd).resolve_right ?_)
    rintro ⟨hk, -⟩
    cases hk
    cases hp.symm.trans hq
    rw [hnothing] at hd
    cases hd
  · rw [htotal]
    unfold Machine.wroteBy
    rw [Option.bind_some, hp, Option.bind_none, List.append_nil]

/-- What is in a file that no process has, once nothing waits to be put there. -/
theorem content (h : Held wrote node n o id lent none closed given m)
    (hflushed : lent = true ∨ closed = true) : m.files.content? node = some given := by
  obtain ⟨content, waiting, hends, -, htotal, hempty⟩ := h.filed
  rw [hempty hflushed, List.append_nil] at htotal
  rw [hends.content, htotal]
  exact congrArg some (List.append_nil given)

/-- Nobody has a file open that is closed and that no process has. -/
theorem apart_of_closed (h : Held wrote node n o id lent none true given m) :
    Apart node m.handles.size none none m where
  plain := h.apart.plain
  inherited := h.apart.inherited
  process hp d hd := h.apart.process hp d hd
  handle {j handle} hhandle hcounts := by
    have hlt : j < m.handles.size := (Array.getElem?_eq_some_iff.1 hhandle).1
    have hopen := hcounts.resolve_left (Nat.not_le.2 hlt)
    refine .inl ((h.apart.handle hhandle (.inr hopen)).resolve_right ?_)
    rintro ⟨⟩
    obtain ⟨-, -, -, ⟨handle', hhandle', hclosed, -⟩, -⟩ := h.filed
    cases hhandle.symm.trans hhandle'
    rw [hclosed] at hopen
    cases hopen

end Held

end Host

end LineShell
