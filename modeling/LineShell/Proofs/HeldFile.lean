import LineShell.Proofs.Delivery
import LineShell.Proofs.OutputRecord

namespace LineShell

open Text (Bytes)

/-!
# Files that a line writes

A file of the interpreter's that nobody else has open, but perhaps the process whose standard output it
is.

* `Held` — such a file, and what it will hold when all that waits has been put into it;
* `Held.step`, `Held.moves` — whatever the process writes goes behind all that is there;
* `Held.answer`, `Held.plays` — and so does what the interpreter hands on;
* `Held.spawned` — a process gets the file as its standard output.
-/

theorem FileSystem.plain_of_content? {fs : FileSystem} {node : Inode} {content : Bytes}
    (h : fs.content? node = some content) :
    fs.Plain node := by
  obtain ⟨executable, hnode⟩ := Host.Machine.node?_of_content? h
  intro n hn
  cases hnode.symm.trans hn
  exact ⟨content, executable, rfl⟩

namespace Host

variable {S : Type} {ps : Programs S} {wrote : S → Bytes} {m m₁ m₂ : Machine S} {p q : Process S}
  {node : Inode} {n o : Nat} {k : Option Nat} {id : FileId} {lent closed : Bool} {given content : Bytes}

/-- What a process has written to its standard output. -/
def Machine.wroteBy (m : Machine S) (wrote : S → Bytes) (k : Option Nat) : Bytes :=
  match k.bind (m.processes[·]?) with
  | some p => wrote p.program
  | none => []

/-- A file of the interpreter's, which nobody else has open but perhaps one process as its standard
output. What is there, and what waits in its buffer, is what was given, and what the process has
written. A file that is lent to a process the interpreter does not write to itself. -/
structure Held (wrote : S → Bytes) (node : Inode) (n o : Nat) (id : FileId) (lent : Bool)
    (k : Option Nat) (closed : Bool) (given : Bytes) (m : Machine S) : Prop where
  apart : Apart node n k (some id) m
  there : ∀ {i : Nat}, k = some i → i < m.processes.size
  borrowed : k ≠ none → lent = true
  output : ∀ {i : Nat} {p : Process S}, k = some i → m.processes[i]? = some p →
    ∀ d ∈ p.descriptors, d.1 = 1 → d.2 = .opening o
  filed : ∃ content waiting, m.Appending o node content ∧
    (∃ handle, m.handles[id]? = some handle ∧ handle.closed = closed ∧ handle.opening = o ∧
      handle.pending = waiting) ∧
    content ++ waiting = given ++ m.wroteBy wrote k ∧ (lent = true ∨ closed = true → waiting = [])

/-- A file that is left alone ends where it did. -/
theorem Spared.ends (h : Spared node m m₁) (hends : m.Appending o node content) : m₁.Appending o node content := by
  obtain ⟨x, hx, hnode, hend⟩ := hends.opening
  refine ⟨⟨x, h.same hx hnode, hnode, hend⟩, ?_⟩
  have hcontent : m₁.files.content? node = m.files.content? node := by
    unfold FileSystem.content?
    rw [h.file]
  rw [hcontent]
  exact hends.content

theorem Machine.Appending.of_disk (h : m.Appending o node content) (hdisk : m₁.disk = m.disk) :
    m₁.Appending o node content :=
  (Spared.of_disk hdisk).ends h

namespace Held

/-- Where the file is left alone and the process writes nothing, all is as it was. -/
theorem spared (h : Held wrote node n o id lent k closed given m) (hs : Spared node m m₁)
    (happart : Apart node n k (some id) m₁) (hhandle : m₁.handles[id]? = m.handles[id]?)
    (hsize : m.processes.size ≤ m₁.processes.size)
    (hprocess : ∀ {i : Nat} {q : Process S}, k = some i → m₁.processes[i]? = some q →
      ∃ p, m.processes[i]? = some p ∧ wrote q.program = wrote p.program ∧
        ∀ d ∈ q.descriptors, d.1 = 1 → d ∈ p.descriptors) :
    Held wrote node n o id lent k closed given m₁ := by
  obtain ⟨content, waiting, hends, hfile, htotal, hempty⟩ := h.filed
  refine ⟨happart, fun hk => Nat.lt_of_lt_of_le (h.there hk) hsize, h.borrowed,
    fun hk hq d hd hone => ?_, content, waiting, hs.ends hends, ?_, ?_, hempty⟩
  · obtain ⟨p, hp, -, hds⟩ := hprocess hk hq
    exact h.output hk hp d (hds d hd hone) hone
  · rw [hhandle]
    exact hfile
  · have hwrote : m₁.wroteBy wrote k = m.wroteBy wrote k := by
      cases k with
      | none => rfl
      | some i =>
        have hlt := Nat.lt_of_lt_of_le (h.there rfl) hsize
        obtain ⟨p, hp, hsame, -⟩ := hprocess rfl (Array.getElem?_eq_getElem hlt)
        unfold Machine.wroteBy
        simp only [Option.bind_some, hp, Array.getElem?_eq_getElem hlt]
        exact hsame
    rw [hwrote]
    exact htotal

theorem slackens (h : Held wrote node n o id lent k closed given m) (hs : Slackens m m₁) :
    Held wrote node n o id lent k closed given m₁ := by
  refine h.spared (.of_disk hs.disk) (h.apart.slackens hs) ?_ (Nat.le_of_eq hs.size.symm) ?_
  · exact congrArg (fun d : Disk => d.handles[id]?) hs.disk
  · intro i q _ hq
    obtain ⟨p, hp, hprogram, hds⟩ := hs.process hq
    exact ⟨p, hp, by rw [hprogram], fun d hd _ => hds hd⟩

end Held

/-- A step changes none of the interpreter's files, be they read from or not. -/
theorem handles_of_step (hquiet : ∀ s pid number next, ps.next s ≠ .signal pid number next) {a : Nat}
    (hstep : m.stepActor ps a = some m₁) : m₁.handles = m.handles := by
  unfold Machine.stepActor at hstep
  split at hstep
  · obtain ⟨p, -, haccess⟩ := Machine.stepProcess_accesses hquiet hstep
    exact haccess.handles
  · exact congrArg Disk.handles (Machine.disk_stepRelay hstep)

theorem size_of_step (hquiet : ∀ s pid number next, ps.next s ≠ .signal pid number next) {a : Nat}
    (hstep : m.stepActor ps a = some m₁) : m₁.processes.size = m.processes.size := by
  unfold Machine.stepActor at hstep
  split at hstep
  · obtain ⟨p, -, hkept, -⟩ := Machine.stepProcess_stepOf hquiet hstep
    exact hkept.processes_size
  · exact (Slackens.stepRelay hstep).size

/-- What a step leaves of a process that does not write to its standard output by it. -/
theorem silent_of_step (hrec : Records ps wrote)
    (hquiet : ∀ s pid number next, ps.next s ≠ .signal pid number next) {a i : Nat}
    (hstep : m.stepActor ps a = some m₁)
    (hidle : ∀ p, i = a → m.processes[a]? = some p → ¬ (ps.next p.program).Uses 1)
    (hq : m₁.processes[i]? = some q) : ∃ p, m.processes[i]? = some p ∧
      wrote q.program = wrote p.program ∧ ∀ d ∈ q.descriptors, d.1 = 1 → d ∈ p.descriptors := by
  have hsame : m.processes[i]? = some q → ∃ p, m.processes[i]? = some p ∧
      wrote q.program = wrote p.program ∧ ∀ d ∈ q.descriptors, d.1 = 1 → d ∈ p.descriptors :=
    fun hp => ⟨q, hp, rfl, fun d hd _ => hd⟩
  unfold Machine.stepActor at hstep
  split at hstep
  · obtain ⟨p, hp, haccess⟩ := Machine.stepProcess_accesses hquiet hstep
    obtain ⟨p', hp', hkept, -⟩ := Machine.stepProcess_stepOf hquiet hstep
    cases hp.symm.trans hp'
    by_cases hi : i = a
    · subst hi
      refine ⟨p, hp, ?_, fun d hd hone => ?_⟩
      · -- a sleeper that wakes has not gone on
        unfold Machine.stepProcess at hstep
        simp only [hp, Bind.bind, Option.bind] at hstep
        split at hstep
        · exact Machine.act_wrote (hrec.step _) (hquiet _) (hidle p rfl hp) hp hstep hq
        · split at hstep
          · cases hstep
            rw [Machine.of_modifyProcess hp hq]
          · cases hstep
        · cases hstep
      · cases haccess with
        | none _ hds => exact hds q hq hd
        | moves _ _ _ _ hds => exact hds q hq hd
        | writes _ _ _ _ hds => exact hds q hq hd
        | opens hnext _ _ hds =>
          rw [hds q hq] at hd
          rcases List.mem_cons.1 hd with rfl | hd
          · -- nothing is opened as the standard output
            have hrecords := hrec.step p.program
            rw [hnext] at hrecords
            exact absurd hone hrecords.1
          · exact hd
    · exact hsame (hkept.process i hi ▸ hq)
  · obtain ⟨r, -, -, hkept, -⟩ := Machine.stepRelay_relayOf hstep
    exact hsame (hkept.process i (fun h => h) ▸ hq)

namespace Held

/-- What is in the file when a process has it: what was given, and what the process has written. -/
theorem ends_of_process (h : Held wrote node n o id lent k closed given m) {i : Nat} (hk : k = some i)
    (hp : m.processes[i]? = some p) : m.Appending o node (given ++ wrote p.program) := by
  obtain ⟨content, waiting, hends, -, htotal, hempty⟩ := h.filed
  have hwaiting : waiting = [] := hempty (.inl (h.borrowed (by rw [hk]; exact Option.some_ne_none i)))
  have hwrote : m.wroteBy wrote k = wrote p.program := by
    unfold Machine.wroteBy
    rw [hk, Option.bind_some, hp]
  rw [hwaiting, List.append_nil, hwrote] at htotal
  exact htotal ▸ hends

/-- The process that has the file has gone on, and holds what it held. -/
theorem of_process (h : Held wrote node n o id lent k closed given m) {i : Nat} (hk : k = some i)
    (hp : m.processes[i]? = some p) (happart : Apart node n k (some id) m₁)
    (hhandles : m₁.handles = m.handles) (hsize : m₁.processes.size = m.processes.size)
    (hq : m₁.processes[i]? = some q) (hds : q.descriptors = p.descriptors)
    (hends : m₁.Appending o node (given ++ wrote q.program)) :
    Held wrote node n o id lent k closed given m₁ := by
  obtain ⟨content, waiting, -, hfile, -, hempty⟩ := h.filed
  have hwaiting : waiting = [] := hempty (.inl (h.borrowed (by rw [hk]; exact Option.some_ne_none i)))
  refine ⟨happart, fun hk => hsize ▸ h.there hk, h.borrowed, fun hk' hq' d hd hone => ?_, _, [], hends,
    ?_, ?_, fun _ => rfl⟩
  · cases hk.symm.trans hk'
    cases hq.symm.trans hq'
    exact h.output hk hp d (hds ▸ hd) hone
  · rw [hhandles, ← hwaiting]
    exact hfile
  · have hwrote : m₁.wroteBy wrote k = wrote q.program := by
      unfold Machine.wroteBy
      rw [hk, Option.bind_some, hq]
    rw [hwrote, List.append_nil]

/-- The process writes to the file. -/
theorem writes (h : Held wrote node n o id lent k closed given m) (hrec : Records ps wrote)
    (hquiet : ∀ s pid number next, ps.next s ≠ .signal pid number next) {i : Nat} (hk : k = some i)
    (hp : m.processes[i]? = some p) {bytes : Bytes} {next : Except Nat Nat → S}
    (hnext : ps.next p.program = .write 1 bytes next) (hstep : m.stepActor ps i = some m₁)
    (hnew : OnlyOpens node m.openings.size (fun _ => False) m₁) :
    Held wrote node n o id lent k closed given m₁ := by
  have happart := h.apart.step hquiet hstep hnew
  have hhandles := handles_of_step hquiet hstep
  have hsize := size_of_step hquiet hstep
  have hends := h.ends_of_process hk hp
  have hrecords := hrec.step p.program
  rw [hnext] at hrecords
  obtain ⟨htook, hfailed⟩ := hrecords.write_output
  unfold Machine.stepActor at hstep
  rw [if_pos (h.there hk)] at hstep
  unfold Machine.stepProcess at hstep
  simp only [hp, Bind.bind, Option.bind] at hstep
  split at hstep
  · unfold Machine.act at hstep
    rw [hnext] at hstep
    dsimp only at hstep
    cases hlookup : p.descriptors.lookup 1 with
    | none =>
      -- its standard output is closed
      rw [hlookup] at hstep
      cases hstep
      have hq := Machine.processes_modifyProcess_self hp
        fun p : Process S => { p with program := next (.error 9) }
      refine h.of_process hk hp happart hhandles hsize hq rfl ?_
      show Machine.Appending _ o node (given ++ wrote (next (.error 9)))
      rw [hfailed]
      exact hends.of_disk rfl
    | some c =>
      obtain ⟨before, after, hds, -⟩ := List.lookup_eq_some_iff.1 hlookup
      have hmem : (1, c) ∈ p.descriptors := by
        rw [hds]
        exact List.mem_append_right _ (.head _)
      obtain rfl : c = .opening o := h.output hk hp (1, c) hmem rfl
      obtain ⟨m₂, hwrite, hends₂, -, -⟩ := hends.put bytes
      rw [hlookup] at hstep
      unfold Machine.writeStep at hstep
      simp only [hwrite, Option.some.injEq] at hstep
      subst hstep
      have hprocesses : m₂.processes = m.processes :=
        congrArg Net.processes (Machine.writeOpening_net hwrite)
      have hp₂ : m₂.processes[i]? = some p := by
        rw [hprocesses]
        exact hp
      have hq := Machine.processes_modifyProcess_self hp₂
        fun p : Process S => { p with program := next (.ok bytes.length) }
      refine h.of_process hk hp happart hhandles hsize hq rfl ?_
      show Machine.Appending _ o node (given ++ wrote (next (.ok bytes.length)))
      rw [htook, List.take_length, ← List.append_assoc]
      exact hends₂.of_disk rfl
  · split at hstep
    · -- it only wakes
      cases hstep
      have hq := Machine.processes_modifyProcess_self hp fun p : Process S => { p with life := .running }
      exact h.of_process hk hp happart hhandles hsize hq rfl (hends.of_disk rfl)
    · cases hstep
  · cases hstep

/-- **Whoever takes a step**, what is in the file is what was given and what the process has
written. -/
theorem step (h : Held wrote node n o id lent k closed given m) (hrec : Records ps wrote)
    (hquiet : ∀ s pid number next, ps.next s ≠ .signal pid number next) {a : Nat}
    (hstep : m.stepActor ps a = some m₁)
    (hnew : OnlyOpens node m.openings.size (fun _ => False) m₁) :
    Held wrote node n o id lent k closed given m₁ := by
  by_cases hidle : ∀ p, k = some a → m.processes[a]? = some p → ¬ (ps.next p.program).Uses 1
  · refine h.spared (h.apart.spared hquiet hstep hnew hidle) (h.apart.step hquiet hstep hnew) ?_
      (Nat.le_of_eq (size_of_step hquiet hstep).symm) ?_
    · rw [handles_of_step hquiet hstep]
    · intro i q hk hq
      refine silent_of_step hrec hquiet hstep ?_ hq
      rintro p rfl hp
      exact hidle p hk hp
  · push Not at hidle
    obtain ⟨p, hk, hp, huses⟩ := hidle
    obtain ⟨bytes, next, hnext⟩ := (hrec.step p.program).uses huses
    exact h.writes hrec hquiet hk hp hnext hstep hnew

theorem moves (h : Held wrote node n o id lent k closed given m) (hrec : Records ps wrote)
    (hquiet : ∀ s pid number next, ps.next s ≠ .signal pid number next)
    (hmoves : Moves ps m m₁) (hnew : OnlyOpens node m.openings.size (fun _ => False) m₁) :
    Held wrote node n o id lent k closed given m₁ := by
  induction hmoves with
  | refl => exact h
  | @step m₁ m₂ a hmoves hstep ih =>
    have hnew₁ := (Grown.of_step hquiet hstep).onlyOpens hnew
    have hle := (Grown.of_moves hquiet hmoves).size_le
    exact (ih hnew₁).step hrec hquiet hstep fun o x ho => hnew o x (Nat.le_trans hle ho)
  | pass hmoves turn clock ih => exact (ih hnew).slackens (.of_processes rfl rfl rfl)

end Held

/-! ### What the interpreter does to the file -/

namespace Machine

variable {i j : FileId}

theorem handles_flushHandle_of_ne (hne : j ≠ i) :
    (m.flushHandle i).2.handles[j]? = m.handles[j]? := by
  unfold flushHandle
  split
  · rfl
  · split
    · rfl
    · split
      · rfl
      · split
        · rfl
        · rename_i hwrite
          exact (handles_modifyHandle_ne (Ne.symm hne) _).trans (by rw [writeOpening_handles hwrite])

theorem handles_writeHandle_of_ne (hne : j ≠ i) (bytes : Bytes) :
    (m.writeHandle i bytes).2.handles[j]? = m.handles[j]? := by
  have hflush := handles_flushHandle_of_ne (m := m) hne
  unfold writeHandle
  split
  · rfl
  · split
    · rfl
    · split
      · exact handles_modifyHandle_ne (Ne.symm hne) _
      · split
        · rename_i heq
          rw [heq] at hflush
          split
          · exact (handles_modifyHandle_ne (Ne.symm hne) _).trans hflush
          · split
            · exact hflush
            · rename_i hwrite
              refine Eq.trans ?_ hflush
              rw [writeOpening_handles hwrite]
        · exact hflush

theorem handles_closeHandle_of_ne (hne : j ≠ i) :
    (m.closeHandle i).2.handles[j]? = m.handles[j]? := by
  unfold closeHandle
  split
  · rfl
  · split
    · rfl
    · exact (handles_modifyHandle_ne (Ne.symm hne) _).trans (handles_flushHandle_of_ne hne)

end Machine

/-- A file of the interpreter's is written to, flushed or closed. -/
theorem Apart.filed (h : Apart node n k (some id) m) (hgrown : Grown m m₁) (hnet : m₁.net = m.net)
    (hends : m₁.Appending o node content)
    (hhandles : ∀ j, j ≠ id → m₁.handles[j]? = m.handles[j]?) : Apart node n k (some id) m₁ where
  plain := FileSystem.plain_of_content? hends.content
  inherited := by
    have hinherited : m₁.inherited = m.inherited := congrArg Net.inherited hnet
    rw [hinherited]
    exact ⟨hgrown.past h.inherited.1, hgrown.past h.inherited.2.1, hgrown.past h.inherited.2.2⟩
  process {i p} hp d hd := by
    have hprocesses : m₁.processes = m.processes := congrArg Net.processes hnet
    rw [hprocesses] at hp
    exact (h.process hp d hd).imp_left hgrown.past
  handle {j handle} hhandle hcounts := by
    by_cases hj : j = id
    · exact .inr (congrArg some hj.symm)
    · rw [hhandles j hj] at hhandle
      exact (h.handle hhandle hcounts).imp_left hgrown.past

namespace Held

/-- Something is done to another file of the interpreter's. -/
theorem of_net (h : Held wrote node n o id lent k closed given m) (hs : Spared node m m₁)
    (happart : Apart node n k (some id) m₁) (hhandle : m₁.handles[id]? = m.handles[id]?)
    (hnet : m₁.net = m.net) : Held wrote node n o id lent k closed given m₁ := by
  have hprocesses : m₁.processes = m.processes := congrArg Net.processes hnet
  refine h.spared hs happart hhandle (Nat.le_of_eq (congrArg Array.size hprocesses).symm) ?_
  intro i q _ hq
  exact ⟨q, hprocesses ▸ hq, rfl, fun d hd _ => hd⟩

/-- Something is done to the file itself. -/
theorem filed_to (h : Held wrote node n o id lent k closed given m) (hgrown : Grown m m₁)
    (hnet : m₁.net = m.net) (hhandles : ∀ j, j ≠ id → m₁.handles[j]? = m.handles[j]?)
    {closed' : Bool} {given' content' waiting' : Bytes} (hends : m₁.Appending o node content')
    (hfile : ∃ handle, m₁.handles[id]? = some handle ∧ handle.closed = closed' ∧
      handle.opening = o ∧ handle.pending = waiting')
    (htotal : content' ++ waiting' = given' ++ m.wroteBy wrote k)
    (hempty : lent = true ∨ closed' = true → waiting' = []) :
    Held wrote node n o id lent k closed' given' m₁ := by
  have hprocesses : m₁.processes = m.processes := congrArg Net.processes hnet
  refine ⟨h.apart.filed hgrown hnet hends hhandles, fun hk => ?_, h.borrowed, fun hk hp => ?_, content',
    waiting', hends, hfile, ?_, hempty⟩
  · rw [hprocesses]
    exact h.there hk
  · rw [hprocesses] at hp
    exact h.output hk hp
  · have hwrote : m₁.wroteBy wrote k = m.wroteBy wrote k := by
      unfold Machine.wroteBy
      rw [hprocesses]
    rw [hwrote]
    exact htotal

/-- What is written to the file goes behind all that was given. -/
theorem writeHandle (h : Held wrote node n o id false k closed given m) (bytes : Bytes) {out : Outcome Unit}
    (hrun : m.writeHandle id bytes = (out, m₁)) :
    Held wrote node n o id false k closed (given ++ Event.handed (some id) ⟨.writeFile id bytes, out⟩)
      m₁ := by
  obtain ⟨content, waiting, hends, ⟨handle, hhandle, hclosed, hopening, hpending⟩, htotal, hempty⟩ :=
    h.filed
  cases closed with
  | true =>
    -- what is closed takes nothing more
    unfold Machine.writeHandle at hrun
    rw [hhandle] at hrun
    simp only [hclosed, if_true] at hrun
    cases hrun
    show Held wrote node n o id false k true (given ++ []) m
    rw [List.append_nil]
    exact h
  | false =>
    have hbehind : m.Behind id o node content waiting :=
      ⟨hends, handle, hhandle, hclosed, hopening, hpending⟩
    obtain ⟨m₂, content', waiting', hwrite, h₂, hsum, -⟩ := hbehind.write bytes
    have hgrown := Grown.writeHandle m id bytes
    have hnet := m.writeHandle_net id bytes
    have hothers : ∀ j, j ≠ id → (m.writeHandle id bytes).2.handles[j]? = m.handles[j]? :=
      fun j hj => Machine.handles_writeHandle_of_ne hj bytes
    cases hwrite.symm.trans hrun
    rw [hwrite] at hgrown hnet hothers
    have hgiven : given ++ Event.handed (some id) ⟨.writeFile id bytes, .returned ()⟩ =
        given ++ bytes := congrArg (given ++ ·) (if_pos rfl)
    refine hgiven ▸ h.filed_to hgrown hnet hothers h₂.toAppending h₂.handle ?_ ?_
    · rw [hsum, htotal]
      have hnone : k = none := by_contra fun hk => Bool.noConfusion (h.borrowed hk)
      subst hnone
      show given ++ [] ++ bytes = given ++ bytes ++ []
      rw [List.append_nil, List.append_nil]
    · rintro (hk | hk) <;> cases hk

theorem flushHandle (h : Held wrote node n o id lent k closed given m) :
    Held wrote node n o id lent k closed given (m.flushHandle id).2 := by
  obtain ⟨content, waiting, hends, ⟨handle, hhandle, hclosed, hopening, hpending⟩, htotal, hempty⟩ :=
    h.filed
  cases closed with
  | true =>
    have hsame : (m.flushHandle id).2 = m := by
      unfold Machine.flushHandle
      rw [hhandle]
      simp only [hclosed, if_true]
    rw [hsame]
    exact h
  | false =>
    have hbehind : m.Behind id o node content waiting :=
      ⟨hends, handle, hhandle, hclosed, hopening, hpending⟩
    obtain ⟨m₂, hflush, h₂, -⟩ := hbehind.flush
    have hgrown := Grown.flushHandle m id
    have hnet := m.flushHandle_net id
    have hothers : ∀ j, j ≠ id → (m.flushHandle id).2.handles[j]? = m.handles[j]? :=
      fun j hj => Machine.handles_flushHandle_of_ne hj
    rw [hflush] at hgrown hnet hothers ⊢
    refine h.filed_to hgrown hnet hothers h₂.toAppending h₂.handle ?_ fun _ => rfl
    rw [List.append_nil]
    exact htotal

theorem closeHandle (h : Held wrote node n o id lent k closed given m) :
    Held wrote node n o id lent k true given (m.closeHandle id).2 := by
  have hflushed := h.flushHandle
  obtain ⟨-, -, -, ⟨handle, hhandle, hclosed, -, -⟩, -, -⟩ := h.filed
  cases closed with
  | true =>
    have hsame : (m.closeHandle id).2 = m := by
      unfold Machine.closeHandle
      rw [hhandle]
      simp only [hclosed, if_true]
    rw [hsame]
    exact h
  | false =>
    obtain ⟨content, waiting, hends, hfile, htotal, -⟩ := h.filed
    have hbehind : m.Behind id o node content waiting := ⟨hends, hfile⟩
    obtain ⟨m₂, hflush, h₂, -⟩ := hbehind.flush
    have hflushed : Held wrote node n o id lent k false given m₂ := by
      rw [hflush] at hflushed
      exact hflushed
    have hclose : (m.closeHandle id).2 = m₂.modifyHandle id fun h => { h with closed := true } := by
      unfold Machine.closeHandle
      rw [hhandle]
      simp only [hclosed, Bool.false_eq_true, if_false, hflush]
    obtain ⟨handle₂, hhandle₂, -, hopening₂, hpending₂⟩ := h₂.handle
    have hwrote : m₂.wroteBy wrote k = m.wroteBy wrote k := by
      have hnet := m.flushHandle_net id
      rw [hflush] at hnet
      have hprocesses : m₂.processes = m.processes := congrArg Net.processes hnet
      unfold Machine.wroteBy
      rw [hprocesses]
    rw [hclose]
    have hgrown : Grown m₂ (m₂.modifyHandle id fun h => { h with closed := true }) := .of_openings rfl
    refine hflushed.filed_to hgrown rfl (fun j hj => Machine.handles_modifyHandle_ne (Ne.symm hj) _)
      ⟨h₂.opening, h₂.content⟩
      ⟨{ handle₂ with closed := true }, Machine.handles_modifyHandle_self hhandle₂ _, rfl, hopening₂,
        hpending₂⟩ ?_ fun _ => rfl
    rw [List.append_nil, htotal, hwrote]

end Held

end Host

end LineShell
