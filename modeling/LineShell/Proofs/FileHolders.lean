import LineShell.Proofs.FileAccess

namespace LineShell.Host

open Text (Bytes)

/-!
# Who holds a file

* `Slackens` — nobody has come by a descriptor, and no file has changed;
* `Host.answer_slackens` — most requests only let processes move;
* `Apart` — nobody has a file open but one process as its standard output, and the interpreter;
* `Apart.step`, `Apart.slackens`, `Apart.spawned` — and that stays so;
* `Apart.moves` — what nobody has open stays as it is, whoever moves.
-/

variable {S : Type} {ps : Programs S} {m m₁ m₂ : Machine S} {p q : Process S} {node : Inode}
  {n : Nat} {k : Option Nat} {id : Option FileId}

/-! ### Requests that open nothing -/

/-- A process that has gone on without its program, and has come by no descriptor. -/
structure Process.Slackens (p q : Process S) : Prop where
  program : q.program = p.program
  descriptors : q.descriptors ⊆ p.descriptors

/-- Nobody has come by a descriptor, no program has gone on and no file has changed. -/
structure Slackens (m m₁ : Machine S) : Prop where
  disk : m₁.disk = m.disk
  inherited : m₁.inherited = m.inherited
  size : m₁.processes.size = m.processes.size
  process : ∀ {i : Nat} {q : Process S}, m₁.processes[i]? = some q →
    ∃ p, m.processes[i]? = some p ∧ p.Slackens q

namespace Slackens

theorem of_processes (hdisk : m₁.disk = m.disk) (hinherited : m₁.inherited = m.inherited)
    (hprocesses : m₁.processes = m.processes) : Slackens m m₁ where
  disk := hdisk
  inherited := hinherited
  size := congrArg Array.size hprocesses
  process {i q} hq := ⟨q, by rw [← hprocesses]; exact hq, rfl, List.Subset.refl _⟩

theorem refl (m : Machine S) : Slackens m m := .of_processes rfl rfl rfl

theorem trans (h : Slackens m m₁) (h' : Slackens m₁ m₂) : Slackens m m₂ where
  disk := h'.disk.trans h.disk
  inherited := h'.inherited.trans h.inherited
  size := h'.size.trans h.size
  process hq := by
    obtain ⟨p', hp', hprogram', hds'⟩ := h'.process hq
    obtain ⟨p, hp, hprogram, hds⟩ := h.process hp'
    exact ⟨p, hp, hprogram'.trans hprogram, List.Subset.trans hds' hds⟩

theorem modifyProcess (m : Machine S) (i : Nat) {f : Process S → Process S}
    (hf : ∀ p : Process S, p.Slackens (f p)) : Slackens m (m.modifyProcess i f) where
  disk := rfl
  inherited := rfl
  size := Array.size_modify
  process {j q} hq := by
    rw [Machine.modifyProcess, Array.getElem?_modify] at hq
    split at hq
    · obtain ⟨p, hp, rfl⟩ := Option.map_eq_some_iff.1 hq
      exact ⟨p, hp, hf p⟩
    · exact ⟨q, hq, rfl, List.Subset.refl _⟩

theorem modifyPipe (m : Machine S) (j : Nat) (f : Pipe → Pipe) : Slackens m (m.modifyPipe j f) :=
  .of_processes rfl rfl rfl

theorem release (m : Machine S) (p : Process S) (c : Channel) : Slackens m (m.release p c) := by
  cases c with
  | pipe j => exact .modifyPipe m j _
  | _ => exact .refl m

theorem releaseAll (ds : List (Nat × Channel)) (m : Machine S) (p : Process S) :
    Slackens m (ds.foldl (fun m d => m.release p d.2) m) := by
  induction ds generalizing m with
  | nil => exact .refl m
  | cons d ds ih => exact (release m p d.2).trans (ih _)

theorem retire (m : Machine S) (i : Nat) (life : Life) : Slackens m (m.retire i life) := by
  unfold Machine.retire
  split
  · exact .refl m
  · exact (releaseAll _ m _).trans (modifyProcess _ i fun _ => ⟨rfl, List.nil_subset _⟩)

theorem observe (m : Machine S) (i : Nat) (status : Int) : Slackens m (m.observe i status) :=
  modifyProcess m i fun _ => ⟨rfl, List.Subset.refl _⟩

theorem strike (m : Machine S) (i : Nat) (signal : Signal) (status : Int) :
    Slackens m (m.strike i signal status) :=
  ((retire m i _).trans (observe _ i status)).trans
    (modifyProcess _ i fun _ => ⟨rfl, List.Subset.refl _⟩)

theorem terminate (m : Machine S) (pid : ProcessId) : Slackens m (m.terminate pid).2 := by
  unfold Machine.terminate
  split
  · split
    · exact .refl m
    · exact .refl m
    · exact strike m _ _ _
    all_goals exact modifyProcess m _ fun _ => ⟨rfl, List.Subset.refl _⟩
  · exact .refl m

theorem kill (m : Machine S) (pid : ProcessId) : Slackens m (m.kill pid) := by
  unfold Machine.kill
  split
  · split
    · exact retire m _ _
    · exact strike m _ _ _
  · exact .refl m

theorem finish (m : Machine S) (pid : ProcessId) (status : Option Int) :
    Slackens m (m.finish pid status) := by
  unfold Machine.finish
  split
  · split
    · exact .refl m
    · split
      · exact .refl m
      · exact modifyProcess m _ fun _ => ⟨rfl, List.Subset.refl _⟩
    · exact retire m _ _
  · exact .refl m

theorem finishAll (m : Machine S) (pids : List ProcessId) :
    Slackens m (pids.foldl (fun m pid => m.finish pid none) m) := by
  induction pids generalizing m with
  | nil => exact .refl m
  | cons pid pids ih => exact (finish m pid none).trans (ih _)

theorem nextInput (m : Machine S) (deeds : List Deed) : Slackens m (m.nextInput deeds).2 := by
  induction deeds generalizing m with
  | nil => exact .of_processes rfl rfl rfl
  | cons deed deeds ih =>
    cases deed with
    | enters line => exact .of_processes rfl rfl rfl
    | interrupts => exact .of_processes rfl rfl rfl
    | awaits pids => exact (finishAll m pids).trans (ih _)

theorem showPrompt (m : Machine S) (prompt : String) (afterInterrupt : Bool) :
    Slackens m (m.showPrompt prompt afterInterrupt) := by
  unfold Machine.showPrompt
  split <;> exact .of_processes rfl rfl rfl

theorem log (m : Machine S) (r : Record) : Slackens m (m.log r) := by
  unfold Machine.log
  split <;> exact .of_processes rfl rfl rfl

theorem bind (m : Machine S) (binding : String) : Slackens m (m.bind binding).2 := by
  unfold Machine.bind
  split
  · split <;> exact .of_processes rfl rfl rfl
  · exact .of_processes rfl rfl rfl

theorem loadEntries (m : Machine S) (path : String) : Slackens m (m.loadEntries path).2 := by
  unfold Machine.loadEntries
  split
  · exact .refl m
  · split
    · exact .refl m
    · split <;> exact .of_processes rfl rfl rfl

theorem addRelay (m : Machine S) (writer : ProcessId) (reader : Option ProcessId) (chunk : Int) :
    Slackens m (m.addRelay writer reader chunk).2 := by
  unfold Machine.addRelay
  split <;> exact .of_processes rfl rfl rfl

/-- A relay opens nothing. -/
theorem stepRelay {j : Nat} (h : m.stepRelay j = some m₁) : Slackens m m₁ := by
  obtain ⟨r, -, -, hkept, -⟩ := Machine.stepRelay_relayOf h
  exact .of_processes (Machine.disk_stepRelay h) hkept.inherited
    (Array.ext_getElem? fun i => hkept.process i id)

end Slackens

/-- Whether a request may change files or who has them open: it concerns a file, starts a process, or
writes the typed lines. -/
def Request.isAccess : Request → Bool
  | .openFile .. | .writeFile .. | .flushFile _ | .closeFile _ | .spawn .. | .writeHistory _ => true
  | _ => false

/-- **Most requests** let processes move, and then open nothing and change no file. -/
theorem answer_slackens (h : Host S) {r : Request} (hr : Request.isAccess r = false) (m : Machine S) :
    ∃ m₁, Moves h.programs m m₁ ∧ Slackens m₁ (h.answer r m).2 := by
  have hlook : ∀ pid, ∃ m₁, Moves h.programs m m₁ ∧ Slackens m₁ (h.look m pid).2 := by
    intro pid
    refine ⟨_, h.settle_moves h.patience m, ?_⟩
    unfold look
    simp only
    split
    · split
      · exact .refl _
      · exact .observe _ _ _
      · exact (Slackens.retire _ _ _).trans (.observe _ _ _)
      · exact .modifyProcess _ _ fun _ => ⟨rfl, List.Subset.refl _⟩
      · exact .refl _
    · exact .refl _
  cases r with
  | openFile | writeFile | flushFile | closeFile | spawn | writeHistory => cases hr
  | canonical path =>
    refine ⟨m, .refl, ?_⟩
    unfold answer
    simp only
    split
    · exact .refl m
    · split <;> exact .refl m
  | isDirectory path =>
    refine ⟨m, .refl, ?_⟩
    unfold answer
    simp only
    split <;> exact .refl m
  | readOutput pid =>
    show ∃ m₁, _ ∧ Slackens m₁ (h.readLine m pid).2
    unfold readLine
    split
    · exact ⟨m, .refl, .refl m⟩
    · simp only
      split
      · exact ⟨m, .refl, .refl m⟩
      · split <;> rename_i hrun <;> obtain ⟨hmoves, -⟩ := h.runUntil_moves hrun
        · exact ⟨_, hmoves, .modifyPipe _ _ _⟩
        all_goals exact ⟨_, hmoves, .refl _⟩
  | closeOutput pid =>
    refine ⟨m, .refl, ?_⟩
    rw [answer]
    split
    · exact .modifyPipe m _ _
    · exact .refl m
  | wait pid =>
    show ∃ m₁, _ ∧ Slackens m₁ (h.awaitExit m pid).2
    unfold awaitExit
    split
    · split
      · exact ⟨m, .refl, .modifyProcess m _ fun _ => ⟨rfl, List.Subset.refl _⟩⟩
      · split
        · exact ⟨m, .refl, .refl m⟩
        · split <;> rename_i hrun <;> obtain ⟨hmoves, -⟩ := h.runUntil_moves hrun
          · exact ⟨_, hmoves, (Slackens.retire _ _ _).trans (.observe _ _ _)⟩
          · exact ⟨_, hmoves, .refl _⟩
    · exact ⟨m, .refl, .refl m⟩
  | waitBriefly pid => exact hlook pid
  | poll pid => exact hlook pid
  | terminate pid => exact ⟨m, .refl, .terminate m pid⟩
  | survivors pids => exact ⟨_, h.settle_moves h.patience m, .refl _⟩
  | kill pid => exact ⟨m, .refl, .kill m pid⟩
  | startRelay writer reader chunk => exact ⟨m, .refl, .addRelay m writer reader chunk⟩
  | joinRelay relay =>
    show ∃ m₁, _ ∧ Slackens m₁ (h.joinRelay m relay).2
    unfold joinRelay
    simp only
    split <;> rename_i hrun <;> exact ⟨_, (h.runUntil_moves hrun).1, .refl _⟩
  | log record => exact ⟨m, .refl, .log m record⟩
  | readInput prompt afterInterrupt =>
    exact ⟨_, h.settle_moves h.patience m, (Slackens.showPrompt _ _ _).trans (.nextInput _ _)⟩
  | bindKey binding => exact ⟨m, .refl, .bind m binding⟩
  | readHistory path => exact ⟨m, .refl, .loadEntries m path⟩
  | limitHistory size =>
    refine ⟨m, .refl, ?_⟩
    unfold answer
    simp only
    split <;> exact .of_processes rfl rfl rfl
  | _ => exact ⟨m, .refl, .of_processes rfl rfl rfl⟩

/-! ### Who leads to a file -/

theorem Machine.past_of_openings {c : Channel} (h : m₁.openings = m.openings)
    (hc : m.Past node c) : m₁.Past node c := by
  unfold Machine.Past at hc ⊢
  rw [h]
  exact hc

/-- A node is a file or not there yet, and nobody leads to it, but perhaps one process by its standard
output, and the interpreter by one of its files. Its files below a number do not count once they are
closed. -/
structure Apart (node : Inode) (n : Nat) (k : Option Nat) (id : Option FileId) (m : Machine S) :
    Prop where
  plain : m.files.Plain node
  inherited : m.Past node m.inherited.1 ∧ m.Past node m.inherited.2.1 ∧ m.Past node m.inherited.2.2
  process : ∀ {i : Nat} {p : Process S}, m.processes[i]? = some p → ∀ d ∈ p.descriptors,
    m.Past node d.2 ∨ (k = some i ∧ d.1 = 1)
  handle : ∀ {j : Nat} {handle : Handle}, m.handles[j]? = some handle →
    n ≤ j ∨ handle.closed = false → m.Past node (.opening handle.opening) ∨ id = some j

/-- A step leaves a file one. -/
theorem Accesses.plain {i : Nat} (h : Accesses ps m i p m₁) (hplain : m.files.Plain node)
    (hnew : OnlyOpens node m.openings.size (fun _ => False) m₁) : m₁.files.Plain node := by
  have hsame : ∀ {m m₁ : Machine S}, m.files.Plain node →
      m₁.files.node? node = m.files.node? node → m₁.files.Plain node :=
    fun h hfile n hn => h n (hfile ▸ hn)
  cases h with
  | none hdisk => exact hsame hplain (congrArg (fun d : Disk => d.files.node? node) hdisk)
  | moves _ _ _ hdisk => exact hsame hplain (congrArg (fun d : Disk => d.files.node? node) hdisk)
  | writes _ _ hwrite hdisk =>
    rcases m.writeOpening_disk hwrite with heq | ⟨x, content, f, -, -, hmodify⟩
    · exact hsame hplain (congrArg (fun d : Disk => d.files.node? node) (hdisk.trans heq))
    · have hfiles : m₁.files = m.files.setContent x.node content :=
        congrArg Disk.files (hdisk.trans hmodify)
      rw [hfiles]
      exact hplain.setContent x.node content
  | @opens fd o path mode next m₂ _ hopen hdisk _ =>
    obtain ⟨rfl, i, hopenings, -, hfiles⟩ := m.openPath_disk hopen
    refine hsame (m := m) hplain ?_
    have hopened : m₁.openings[m.openings.size]? = some { node := i, append := mode = .append } := by
      have hpush : m₁.openings = _ := (congrArg Disk.openings hdisk).trans hopenings
      rw [hpush, Array.getElem?_push_size]
    have hfile : m₂.files.node? node = m.files.node? node :=
      hfiles node hplain fun hnode => hnew _ _ (Nat.le_refl _) hopened hnode.symm
    exact (congrArg (fun d : Disk => d.files.node? node) hdisk).trans hfile

theorem Accesses.handles {i : Nat} (h : Accesses ps m i p m₁) : m₁.handles = m.handles := by
  cases h with
  | none hdisk => exact congrArg Disk.handles hdisk
  | moves _ _ _ hdisk => exact congrArg Disk.handles hdisk
  | writes _ _ hwrite hdisk =>
    exact (congrArg Disk.handles hdisk).trans (Machine.writeOpening_handles hwrite)
  | opens _ hopen hdisk =>
    obtain ⟨-, _, -, hhandles, -⟩ := m.openPath_disk hopen
    exact (congrArg Disk.handles hdisk).trans hhandles

namespace Apart

variable (h : Apart node n k id m)

include h

theorem of_none (hk : k = none) (k' : Option Nat) : Apart node n k' id m := by
  subst hk
  exact ⟨h.plain, h.inherited, fun hp d hd => .inl ((h.process hp d hd).resolve_right nofun),
    h.handle⟩

theorem slackens (hs : Slackens m m₁) : Apart node n k id m₁ := by
  have hopenings : m₁.openings = m.openings := congrArg Disk.openings hs.disk
  have hfiles : m₁.files = m.files := congrArg Disk.files hs.disk
  have hhandles : m₁.handles = m.handles := congrArg Disk.handles hs.disk
  refine ⟨?_, ?_, ?_, ?_⟩
  · rw [hfiles]
    exact h.plain
  · rw [hs.inherited]
    exact ⟨Machine.past_of_openings hopenings h.inherited.1,
      Machine.past_of_openings hopenings h.inherited.2.1,
      Machine.past_of_openings hopenings h.inherited.2.2⟩
  · intro i q hq d hd
    obtain ⟨p, hp, -, hds⟩ := hs.process hq
    exact (h.process hp d (hds hd)).imp_left (Machine.past_of_openings hopenings)
  · intro j handle hhandle hopen
    rw [hhandles] at hhandle
    exact (h.handle hhandle hopen).imp_left (Machine.past_of_openings hopenings)

/-- What a process of this kind uses does not lead to the file, unless it is the one. -/
theorem past_of_lookup {i fd : Nat} {c : Channel} (hp : m.processes[i]? = some p)
    (hlookup : p.descriptors.lookup fd = some c) (hnot : ¬ (k = some i ∧ fd = 1)) :
    m.Past node c := by
  obtain ⟨before, after, hds, -⟩ := List.lookup_eq_some_iff.1 hlookup
  refine (h.process hp (fd, c) ?_).resolve_right hnot
  rw [hds]
  exact List.mem_append_right _ (.head _)

/-- **Whoever takes a step**, nobody else comes to lead to the file. -/
theorem step (hquiet : ∀ s pid number next, ps.next s ≠ .signal pid number next) {a : Nat}
    (hstep : m.stepActor ps a = some m₁)
    (hnew : OnlyOpens node m.openings.size (fun _ => False) m₁) : Apart node n k id m₁ := by
  unfold Machine.stepActor at hstep
  split at hstep
  · obtain ⟨p, hp, haccess⟩ := Machine.stepProcess_accesses hquiet hstep
    obtain ⟨p', hp', hkept, q, hq, -⟩ := Machine.stepProcess_stepOf hquiet hstep
    cases hp.symm.trans hp'
    have hgrown := haccess.grown
    have hhandles := haccess.handles
    refine ⟨haccess.plain h.plain hnew, ?_, ?_, ?_⟩
    · rw [hkept.inherited]
      exact ⟨hgrown.past h.inherited.1, hgrown.past h.inherited.2.1, hgrown.past h.inherited.2.2⟩
    · intro i q' hq' d hd
      by_cases hi : i = a
      · subst hi
        cases hq.symm.trans hq'
        have hold : d ∈ p.descriptors → m₁.Past node d.2 ∨ (k = some i ∧ d.1 = 1) :=
          fun hd => (h.process hp d hd).imp_left hgrown.past
        cases haccess with
        | none _ hds => exact hold (hds q hq hd)
        | moves _ _ _ _ hds => exact hold (hds q hq hd)
        | writes _ _ _ _ hds => exact hold (hds q hq hd)
        | @opens fd o path mode next m₂ _ hopen hdisk hds =>
          rw [hds q hq] at hd
          rcases List.mem_cons.1 hd with rfl | hd
          · -- what it has opened is another file
            obtain ⟨rfl, j, hopenings, -⟩ := m.openPath_disk hopen
            have hopened : m₁.openings[m.openings.size]? =
                some { node := j, append := mode = .append } := by
              have hpush : m₁.openings = _ := (congrArg Disk.openings hdisk).trans hopenings
              rw [hpush, Array.getElem?_push_size]
            refine .inl fun o ho => ?_
            cases ho
            exact ⟨_, hopened, fun hnode => hnew _ _ (Nat.le_refl _) hopened hnode⟩
          · exact hold hd
      · rw [hkept.process i hi] at hq'
        exact (h.process hq' d hd).imp_left hgrown.past
    · intro j handle hhandle hopen
      rw [hhandles] at hhandle
      exact (h.handle hhandle hopen).imp_left hgrown.past
  · exact h.slackens (.stepRelay hstep)

/-- A step leaves the file alone if it does not use it as its standard output. -/
theorem spared (hquiet : ∀ s pid number next, ps.next s ≠ .signal pid number next) {a : Nat}
    (hstep : m.stepActor ps a = some m₁)
    (hnew : OnlyOpens node m.openings.size (fun _ => False) m₁)
    (hidle : ∀ p, k = some a → m.processes[a]? = some p → ¬ (ps.next p.program).Uses 1) :
    Spared node m m₁ := by
  unfold Machine.stepActor at hstep
  split at hstep
  · obtain ⟨p, hp, haccess⟩ := Machine.stepProcess_accesses hquiet hstep
    refine haccess.spared h.plain (fun fd c huses hlookup => ?_) hnew
    refine h.past_of_lookup hp hlookup ?_
    rintro ⟨hk, rfl⟩
    exact hidle p hk hp huses
  · exact .of_disk (Machine.disk_stepRelay hstep)

/-! ### Processes that are started -/

end Apart

/-- A stream leads to a file of the interpreter from some number on, but not to one of them, if it
leads to any. -/
def Stream.Avoids (n : Nat) (id : Option FileId) : Stream → Prop
  | .file j => n ≤ j ∧ id ≠ some j
  | _ => True

/-- The streams of a process lead past a file of the interpreter. -/
structure Streams.Avoid (n : Nat) (id : Option FileId) (streams : Streams) : Prop where
  stdin : Stream.Avoids n id streams.stdin
  stdout : Stream.Avoids n id streams.stdout
  stderr : Stream.Avoids n id streams.stderr

theorem disk_addPipe (m : Machine S) (stream : Stream) (pipe : Pipe) :
    (m.addPipe stream pipe).2.disk = m.disk ∧ (m.addPipe stream pipe).2.inherited = m.inherited ∧
      (m.addPipe stream pipe).2.processes = m.processes := by
  unfold Machine.addPipe
  split <;> exact ⟨rfl, rfl, rfl⟩

/-- Starting a process changes no file. -/
theorem disk_addProcess (m : Machine S) (argv : List String) (cwd : Path) (streams : Streams)
    (launch : Launch S) : (m.addProcess argv cwd streams launch).2.disk = m.disk ∧
      (m.addProcess argv cwd streams launch).2.inherited = m.inherited := by
  obtain ⟨hdisk, hinherited, -⟩ := disk_addPipe m streams.stdin launch.input
  obtain ⟨hdisk', hinherited', -⟩ := disk_addPipe (m.addPipe streams.stdin launch.input).2
    streams.stdout launch.output
  exact ⟨hdisk'.trans hdisk, hinherited'.trans hinherited⟩

theorem disk_spawn (h : Host S) (m : Machine S) (argv : List String) (cwd : Path)
    (streams : Streams) : (h.spawn m argv cwd streams).2.disk = m.disk ∧
      (h.spawn m argv cwd streams).2.inherited = m.inherited := by
  unfold spawn
  split
  · exact ⟨rfl, rfl⟩
  · exact disk_addProcess m argv cwd streams _

theorem Apart.past_channel (h : Apart node n k id m) {stream : Stream} {c : Channel}
    {pipe : Option Nat} (hs : Stream.Avoids n id stream) (hc : m.Past node c) :
    m.Past node (m.channel stream c pipe) := by
  have hnothing : ∀ c, (∀ o, c ≠ .opening o) → m.Past node c := fun c hc o ho => absurd ho (hc o)
  unfold Machine.channel
  split
  · exact hnothing _ nofun
  · split
    · rename_i handle hhandle
      exact (h.handle hhandle (.inl hs.1)).resolve_right hs.2
    · exact hnothing _ nofun
  · exact hc
  · exact hnothing _ nofun

/-- **A process is started**, whose standard streams lead past the file but perhaps for its output. -/
theorem Apart.spawned (h : Apart node n k id m) {argv : List String} {cwd : Path} {streams : Streams}
    {launch : Launch S} (hin : Stream.Avoids n id streams.stdin)
    (hout : Stream.Avoids n id streams.stdout ∨ k = some m.processes.size)
    (herr : Stream.Avoids n id streams.stderr) :
    Apart node n k id (m.addProcess argv cwd streams launch).2 := by
  obtain ⟨hdisk₁, hinherited₁, hprocesses₁⟩ := disk_addPipe m streams.stdin launch.input
  obtain ⟨hdisk₂, hinherited₂, hprocesses₂⟩ := disk_addPipe (m.addPipe streams.stdin launch.input).2
    streams.stdout launch.output
  have h₂ : Apart node n k id
      ((m.addPipe streams.stdin launch.input).2.addPipe streams.stdout launch.output).2 :=
    h.slackens (.of_processes (hdisk₂.trans hdisk₁) (hinherited₂.trans hinherited₁)
      (hprocesses₂.trans hprocesses₁))
  have hsize := congrArg Array.size (hprocesses₂.trans hprocesses₁)
  unfold Machine.addProcess
  refine ⟨h₂.plain, h₂.inherited, fun {i q} hq d hd => ?_, h₂.handle⟩
  rcases getElem?_push_cases hq with hold | ⟨hi, rfl⟩
  · exact h₂.process hold d hd
  · simp only [List.mem_cons, List.not_mem_nil, or_false] at hd
    rcases hd with rfl | rfl | rfl
    · exact .inl (h₂.past_channel hin h₂.inherited.1)
    · rcases hout with hout | hout
      · exact .inl (h₂.past_channel hout h₂.inherited.2.1)
      · exact .inr ⟨by rw [hout, hi, hsize], rfl⟩
    · exact .inl (h₂.past_channel herr h₂.inherited.2.2)

/-! ### Growing -/

theorem Grown.of_step (hquiet : ∀ s pid number next, ps.next s ≠ .signal pid number next) {a : Nat}
    (hstep : m.stepActor ps a = some m₁) : Grown m m₁ := by
  unfold Machine.stepActor at hstep
  split at hstep
  · obtain ⟨p, -, haccess⟩ := Machine.stepProcess_accesses hquiet hstep
    exact haccess.grown
  · exact .of_disk (Machine.disk_stepRelay hstep)

theorem Grown.of_moves (hquiet : ∀ s pid number next, ps.next s ≠ .signal pid number next)
    (hmoves : Moves ps m m₁) : Grown m m₁ := by
  induction hmoves with
  | refl => exact .refl m
  | step _ hstep ih => exact ih.trans (.of_step hquiet hstep)
  | pass _ turn clock ih => exact ih.trans (.of_disk rfl)

theorem Grown.writeOpening {o : Nat} {bytes : Bytes} (h : m.writeOpening o bytes = .ok m₁) :
    Grown m m₁ := by
  rcases m.writeOpening_disk h with hdisk | ⟨x, content, f, -, hf, hdisk⟩
  · exact .of_disk hdisk
  · exact .of_modify hf (congrArg Disk.openings hdisk)

theorem Grown.of_openings (h : m₁.openings = m.openings) : Grown m m₁ :=
  ⟨fun {_ x} hx => ⟨x, h ▸ hx, rfl, rfl⟩, Nat.le_of_eq (congrArg Array.size h).symm⟩

theorem Grown.flushHandle (m : Machine S) (j : FileId) : Grown m (m.flushHandle j).2 := by
  unfold Machine.flushHandle
  split
  · exact .refl m
  · split
    · exact .refl m
    · split
      · exact .refl m
      · split
        · exact .refl m
        · rename_i hwrite
          exact (Grown.writeOpening hwrite).trans (.of_openings rfl)

theorem Grown.writeHandle (m : Machine S) (j : FileId) (bytes : Bytes) :
    Grown m (m.writeHandle j bytes).2 := by
  have hflush := Grown.flushHandle m j
  unfold Machine.writeHandle
  split
  · exact .refl m
  · split
    · exact .refl m
    · split
      · exact .of_openings rfl
      · split
        · rename_i heq
          rw [heq] at hflush
          split
          · exact hflush.trans (.of_openings rfl)
          · split
            · exact hflush
            · rename_i hwrite
              exact hflush.trans (.writeOpening hwrite)
        · exact hflush

theorem Grown.closeHandle (m : Machine S) (j : FileId) : Grown m (m.closeHandle j).2 := by
  unfold Machine.closeHandle
  split
  · exact .refl m
  · split
    · exact .refl m
    · exact (Grown.flushHandle m j).trans (.of_openings rfl)

theorem Grown.openHandle (m : Machine S) (path : String) (mode : OpenMode) :
    Grown m (m.openHandle path mode).2 := by
  unfold Machine.openHandle
  split
  · exact .refl m
  · split
    · exact .refl m
    · rename_i hopen
      obtain ⟨-, i, hopenings, -⟩ := m.openPath_disk hopen
      exact .of_push hopenings

/-- **Whatever the interpreter asks**, who has a file open keeps it. -/
theorem Grown.of_answer (h : Host S)
    (hquiet : ∀ s pid number next, h.programs.next s ≠ .signal pid number next) (r : Request)
    (m : Machine S) : Grown m (h.answer r m).2 := by
  cases haccess : Request.isAccess r with
  | false =>
    obtain ⟨m₁, hmoves, hslackens⟩ := h.answer_slackens haccess m
    exact (Grown.of_moves hquiet hmoves).trans (.of_disk hslackens.disk)
  | true =>
    cases r with
    | openFile path mode => exact .openHandle m path mode
    | writeFile j bytes => exact .writeHandle m j bytes
    | flushFile j => exact .flushHandle m j
    | closeFile j => exact .closeHandle m j
    | spawn argv cwd streams =>
      exact .of_disk (disk_spawn h m argv cwd streams).1
    | writeHistory path =>
      refine .of_openings ?_
      show (m.saveEntries path).2.openings = m.openings
      unfold Machine.saveEntries
      split
      · rfl
      · split
        · rfl
        · unfold Machine.cutEntries
          split
          · rfl
          · simp only
            split
            · rfl
            · split <;> rfl
    | _ => cases haccess

theorem Grown.of_plays {es : Trace} {m' : Machine S}
    (hquiet : ∀ s pid number next, ps.next s ≠ .signal pid number next)
    (hplays : Plays ps m es m') : Grown m m' := by
  induction es generalizing m with
  | nil => exact .of_moves hquiet hplays
  | cons e es ih =>
    obtain ⟨m₁, m₂, host, hmoves, rfl, hanswer, hrest⟩ := hplays
    have hgrown := Grown.of_answer host hquiet e.request m₁
    rw [hanswer] at hgrown
    exact ((Grown.of_moves hquiet hmoves).trans hgrown).trans (ih hrest)

/-! ### Files that nobody has open -/

/-- **Whoever moves**, a file that no process has open stays as it is. -/
theorem Apart.moves (h : Apart node n none id m)
    (hquiet : ∀ s pid number next, ps.next s ≠ .signal pid number next)
    (hmoves : Moves ps m m₁) (hnew : OnlyOpens node m.openings.size (fun _ => False) m₁) :
    Apart node n none id m₁ ∧ Spared node m m₁ := by
  induction hmoves with
  | refl => exact ⟨h, .refl node m⟩
  | @step m₁ m₂ a hmoves hstep ih =>
    obtain ⟨h₁, hspared⟩ := ih ((Grown.of_step hquiet hstep).onlyOpens hnew)
    have hnew' : OnlyOpens node m₁.openings.size (fun _ => False) m₂ :=
      fun o x ho => hnew o x (Nat.le_trans hspared.size_le ho)
    have hspared' := h₁.spared hquiet hstep hnew' fun p hk => by cases hk
    exact ⟨h₁.step hquiet hstep hnew', hspared.trans hspared'⟩
  | pass hmoves turn clock ih =>
    obtain ⟨h₁, hspared⟩ := ih hnew
    exact ⟨h₁.slackens (.of_processes rfl rfl rfl), hspared.trans (.of_disk rfl)⟩

/-! ### The interpreter's other files -/

/-- One of the interpreter's files is changed, which stays closed if it was. -/
theorem Apart.modifyHandle (h : Apart node n k id m) (j : FileId) {f : Handle → Handle}
    (hf : ∀ handle : Handle, (f handle).opening = handle.opening ∧
      (handle.closed = true → (f handle).closed = true)) :
    Apart node n k id (m.modifyHandle j f) ∧ Spared node m (m.modifyHandle j f) := by
  refine ⟨⟨h.plain, h.inherited, h.process, fun {i handle} hhandle hopen => ?_⟩,
    ⟨.of_openings rfl, rfl, fun hx _ => hx⟩⟩
  rw [Machine.modifyHandle, Array.getElem?_modify] at hhandle
  split at hhandle
  · obtain ⟨old, hold, rfl⟩ := Option.map_eq_some_iff.1 hhandle
    obtain ⟨hopening, hclosed⟩ := hf old
    rw [hopening]
    refine h.handle hold (hopen.imp_right fun hopen => ?_)
    exact Bool.eq_false_iff.2 fun hold => Bool.eq_false_iff.1 hopen (hclosed hold)
  · exact h.handle hhandle hopen

theorem Apart.writeOpening (h : Apart node n k id m) {o : Nat} {bytes : Bytes}
    (hpast : m.Past node (.opening o)) (hwrite : m.writeOpening o bytes = .ok m₁) :
    Apart node n k id m₁ ∧ Spared node m m₁ := by
  have hspared := Spared.writeOpening hpast hwrite
  have hnet := Machine.writeOpening_net hwrite
  have hhandles : m₁.handles = m.handles := Machine.writeOpening_handles hwrite
  refine ⟨⟨fun n hn => h.plain n (hspared.file ▸ hn), ?_, ?_, ?_⟩, hspared⟩
  · have hinherited : m₁.inherited = m.inherited := congrArg Net.inherited hnet
    rw [hinherited]
    exact ⟨hspared.past h.inherited.1, hspared.past h.inherited.2.1, hspared.past h.inherited.2.2⟩
  · intro i p hp d hd
    have hprocesses : m₁.processes = m.processes := congrArg Net.processes hnet
    rw [hprocesses] at hp
    exact (h.process hp d hd).imp_left hspared.past
  · intro j handle hhandle hopen
    rw [hhandles] at hhandle
    exact (h.handle hhandle hopen).imp_left hspared.past

variable {j : FileId} (hj : id ≠ some j)

include hj

theorem Apart.flushHandle (h : Apart node n k id m) :
    Apart node n k id (m.flushHandle j).2 ∧ Spared node m (m.flushHandle j).2 := by
  unfold Machine.flushHandle
  split
  · exact ⟨h, .refl node m⟩
  · rename_i handle hhandle
    split
    · exact ⟨h, .refl node m⟩
    · rename_i hopen
      have hpast := (h.handle hhandle (.inr (Bool.eq_false_iff.2 hopen))).resolve_right hj
      split
      · exact ⟨h, .refl node m⟩
      · split
        · exact ⟨h, .refl node m⟩
        · rename_i hwrite
          obtain ⟨h₁, hspared⟩ := h.writeOpening hpast hwrite
          obtain ⟨h₂, hspared'⟩ := h₁.modifyHandle j (f := fun h => { h with pending := [] })
            fun _ => ⟨rfl, fun h => h⟩
          exact ⟨h₂, hspared.trans hspared'⟩

theorem Apart.writeHandle (h : Apart node n k id m) (bytes : Bytes) :
    Apart node n k id (m.writeHandle j bytes).2 ∧ Spared node m (m.writeHandle j bytes).2 := by
  obtain ⟨hflush, hspared⟩ := h.flushHandle hj
  unfold Machine.writeHandle
  split
  · exact ⟨h, .refl node m⟩
  · rename_i handle hhandle
    split
    · exact ⟨h, .refl node m⟩
    · rename_i hopen
      have hpast := (h.handle hhandle (.inr (Bool.eq_false_iff.2 hopen))).resolve_right hj
      split
      · exact h.modifyHandle j fun _ => ⟨rfl, fun h => h⟩
      · split
        · rename_i heq
          rw [heq] at hflush hspared
          split
          · obtain ⟨h₂, hspared'⟩ := hflush.modifyHandle j (f := fun h => { h with pending := bytes })
              fun _ => ⟨rfl, fun h => h⟩
            exact ⟨h₂, hspared.trans hspared'⟩
          · split
            · exact ⟨hflush, hspared⟩
            · rename_i hwrite
              obtain ⟨h₂, hspared'⟩ := hflush.writeOpening (hspared.past hpast) hwrite
              exact ⟨h₂, hspared.trans hspared'⟩
        · exact ⟨hflush, hspared⟩

theorem Apart.closeHandle (h : Apart node n k id m) :
    Apart node n k id (m.closeHandle j).2 ∧ Spared node m (m.closeHandle j).2 := by
  obtain ⟨hflush, hspared⟩ := h.flushHandle hj
  unfold Machine.closeHandle
  split
  · exact ⟨h, .refl node m⟩
  · split
    · exact ⟨h, .refl node m⟩
    · obtain ⟨h₂, hspared'⟩ := hflush.modifyHandle j (f := fun h => { h with closed := true })
        fun _ => ⟨rfl, fun _ => rfl⟩
      exact ⟨h₂, hspared.trans hspared'⟩

omit hj in
/-- Another file is opened for the interpreter. -/
theorem Apart.openHandle (h : Apart node n k id m) (path : String) (mode : OpenMode)
    (hnew : OnlyOpens node m.openings.size (fun _ => False) (m.openHandle path mode).2) :
    Apart node n k id (m.openHandle path mode).2 ∧ Spared node m (m.openHandle path mode).2 := by
  unfold Machine.openHandle at hnew ⊢
  split
  · exact ⟨h, .refl node m⟩
  · rename_i hnul
    rw [if_neg hnul] at hnew
    split
    · exact ⟨h, .refl node m⟩
    · rename_i opening m₁ hopen
      simp only [hopen] at hnew
      obtain ⟨rfl, i, hopenings, hhandles, -⟩ := m.openPath_disk hopen
      have hopened : m₁.openings[m.openings.size]? = some { node := i, append := mode = .append } := by
        rw [hopenings, Array.getElem?_push_size]
      have hpast : m₁.Past node (.opening m.openings.size) := by
        intro o ho
        cases ho
        exact ⟨_, hopened, fun hnode => hnew _ _ (Nat.le_refl _) hopened hnode⟩
      have hspared := Spared.openPath h.plain hopen hpast
      have hnet := Machine.openPath_net hopen
      have hspared' : Spared node m { m₁ with
          handles := m₁.handles.push { opening := m.openings.size, path, mode } } :=
        hspared.trans ⟨.of_openings rfl, rfl, fun hx _ => hx⟩
      refine ⟨⟨fun n hn => h.plain n (hspared.file ▸ hn), ?_, ?_, ?_⟩, hspared'⟩
      · have hinherited : m₁.inherited = m.inherited := congrArg Net.inherited hnet
        show m₁.Past node m₁.inherited.1 ∧ m₁.Past node m₁.inherited.2.1 ∧
          m₁.Past node m₁.inherited.2.2
        rw [hinherited]
        exact ⟨hspared.past h.inherited.1, hspared.past h.inherited.2.1, hspared.past h.inherited.2.2⟩
      · intro i p hp d hd
        have hprocesses : m₁.processes = m.processes := congrArg Net.processes hnet
        exact (h.process (hprocesses ▸ hp) d hd).imp_left hspared.past
      · intro j handle hhandle hcounts
        rcases getElem?_push_cases hhandle with hold | ⟨-, rfl⟩
        · exact (h.handle (hhandles ▸ hold) hcounts).imp_left hspared.past
        · exact .inl hpast

/-- A request concerns none of the interpreter's files that lead to a node, and starts no process that
does. -/
def Request.Avoids (n : Nat) (id : Option FileId) : Request → Prop
  | .writeFile j _ | .flushFile j | .closeFile j => id ≠ some j
  | .spawn _ _ streams => Streams.Avoid n id streams
  | .writeHistory _ => False
  | _ => True

omit hj in
/-- **Whatever the interpreter asks** that does not concern a file that no process has open, that file
stays as it is. -/
theorem Apart.answer (h : Apart node n none id m) (host : Host S)
    (hquiet : ∀ s pid number next, host.programs.next s ≠ .signal pid number next) {r : Request}
    (hr : Request.Avoids n id r)
    (hnew : OnlyOpens node m.openings.size (fun _ => False) (host.answer r m).2) :
    Apart node n none id (host.answer r m).2 ∧ Spared node m (host.answer r m).2 := by
  cases haccess : Request.isAccess r with
  | false =>
    obtain ⟨m₁, hmoves, hslackens⟩ := host.answer_slackens haccess m
    obtain ⟨h₁, hspared⟩ := h.moves hquiet hmoves ((Grown.of_disk hslackens.disk).onlyOpens hnew)
    exact ⟨h₁.slackens hslackens, hspared.trans (.of_disk hslackens.disk)⟩
  | true =>
    cases r with
    | openFile path mode => exact h.openHandle path mode hnew
    | writeFile j bytes => exact h.writeHandle hr bytes
    | flushFile j => exact h.flushHandle hr
    | closeFile j => exact h.closeHandle hr
    | spawn argv cwd streams =>
      refine ⟨?_, .of_disk (disk_spawn host m argv cwd streams).1⟩
      show Apart node n none id (host.spawn m argv cwd streams).2
      unfold spawn
      split
      · exact h.slackens (.of_processes rfl rfl rfl)
      · exact h.spawned hr.stdin (.inl hr.stdout) hr.stderr
    | writeHistory path => exact hr.elim
    | _ => cases haccess

omit hj in
/-- **Runs that leave a file alone.** -/
theorem Apart.plays {es : Trace} {m' : Machine S} (h : Apart node n none id m)
    (hquiet : ∀ s pid number next, ps.next s ≠ .signal pid number next)
    (hes : ∀ e ∈ es, Request.Avoids n id e.request) (hplays : Plays ps m es m')
    (hnew : OnlyOpens node m.openings.size (fun _ => False) m') :
    Apart node n none id m' ∧ Spared node m m' := by
  induction es generalizing m with
  | nil => exact h.moves hquiet hplays hnew
  | cons e es ih =>
    obtain ⟨m₁, m₂, host, hmoves, rfl, hanswer, hrest⟩ := hplays
    have hgrown := Grown.of_answer host hquiet e.request m₁
    have hgrown' := Grown.of_plays hquiet hrest
    rw [hanswer] at hgrown
    obtain ⟨h₁, hspared₁⟩ := h.moves hquiet hmoves ((hgrown.trans hgrown').onlyOpens hnew)
    -- what is opened later on is opened after what has been opened before
    have hnew₂ : ∀ {m₃ : Machine S}, Grown m m₃ →
        OnlyOpens node m₃.openings.size (fun _ => False) m' :=
      fun hle o x ho => hnew o x (Nat.le_trans hle.size_le ho)
    obtain ⟨h₂, hspared₂⟩ := h₁.answer host hquiet (r := e.request) (hes e (.head _)) <| by
      rw [hanswer]
      exact hgrown'.onlyOpens (hnew₂ hspared₁.toGrown)
    rw [hanswer] at h₂ hspared₂
    obtain ⟨h', hspared'⟩ := ih h₂ (fun e he => hes e (.tail _ he)) hrest
      (hnew₂ (hspared₁.trans hspared₂).toGrown)
    exact ⟨h', (hspared₁.trans hspared₂).trans hspared'⟩

end LineShell.Host
