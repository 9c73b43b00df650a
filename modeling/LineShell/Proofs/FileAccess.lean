import LineShell.Proofs.HandleBuffer
import LineShell.Proofs.Plays

namespace LineShell

open Text (Bytes)

/-!
# Access to files

Who can get at a file: a process through its descriptors, and the interpreter through the files that
it has opened.

* `FileSystem.Plain` — a node that is a file, or not there yet;
* `Machine.disk` — the files, and where those who have opened one are in it;
* `Accesses` — what one step of a process does to these: at most it reads from, writes to or opens one
  file;
* `Machine.Past` — a channel that does not lead to a file;
* `Spared` — a file that is left alone, with all who have opened it;
* `Grown` — who has opened a file has it open for good.
-/

namespace FileSystem

/-- A node is a file, or there is none yet. -/
def Plain (fs : FileSystem) (node : Inode) : Prop :=
  ∀ n, fs.node? node = some n → ∃ content executable, n = .file content executable

theorem node?_setContent_of_ne (fs : FileSystem) {i node : Inode} (h : node ≠ i)
    (content : Bytes) : (fs.setContent i content).node? node = fs.node? node := by
  unfold setContent node?
  rw [Array.getElem?_modify, if_neg (Ne.symm h)]

theorem Plain.setContent {fs : FileSystem} {node : Inode} (h : fs.Plain node) (i : Inode)
    (content : Bytes) : (fs.setContent i content).Plain node := by
  intro n hn
  unfold FileSystem.setContent node? at hn
  rw [Array.getElem?_modify] at hn
  split at hn
  · obtain ⟨old, hold, rfl⟩ := Option.map_eq_some_iff.1 hn
    obtain ⟨content', executable, rfl⟩ := h old hold
    exact ⟨content, executable, rfl⟩
  · exact h n hn

/-- A new node changes nothing but its directory. -/
theorem node?_add (fs : FileSystem) {node : Inode} (hplain : fs.Plain node)
    (directory : Inode) (name : String) (new : Node) (hne : node ≠ (fs.add directory name new).1) :
    (fs.add directory name new).2.node? node = fs.node? node := by
  have hsize : node ≠ fs.nodes.size := hne
  unfold add modifyEntries node?
  rw [Array.getElem?_modify, Array.getElem?_push, if_neg hsize]
  split
  · rename_i hdirectory
    cases hnode : fs.nodes[node]? with
    | none => rfl
    | some n =>
      obtain ⟨content, executable, rfl⟩ := hplain n hnode
      rfl
  · rfl

/-- Opening a file to write to changes no other file. -/
theorem node?_openWriting {fs fs' : FileSystem} {node i : Inode} {cwd : Path}
    {path : String} {keep : Bool} (hplain : fs.Plain node)
    (h : fs.openWriting cwd path keep = .ok (i, fs')) (hne : node ≠ i) :
    fs'.node? node = fs.node? node := by
  unfold openWriting at h
  cases hfind : fs.find cwd .written path with
  | error e => simp [hfind, Bind.bind, Except.bind] at h
  | ok spot =>
    simp only [hfind, Bind.bind, Except.bind] at h
    cases spot with
    | found j =>
      simp only at h
      split at h
      · cases h
      · cases h
        split
        · rfl
        · exact node?_setContent_of_ne fs hne []
    | absent directory name =>
      cases h
      exact node?_add fs hplain directory name _ hne

end FileSystem

namespace Host

variable {S : Type} {ps : Programs S} {m m₁ m₂ : Machine S} {p q : Process S} {k : Nat}

/-- Files, and where those who have opened one are in it. -/
structure Disk where
  files : FileSystem
  openings : Array Opening
  handles : Array Handle

namespace Machine

/-- The files of a machine, and where those who have opened one are in it. -/
def disk (m : Machine S) : Disk := ⟨m.files, m.openings, m.handles⟩

theorem disk_release (m : Machine S) (p : Process S) (c : Channel) :
    (m.release p c).disk = m.disk := by
  cases c <;> rfl

theorem disk_releaseAll (ds : List (Nat × Channel)) (m : Machine S) (p : Process S) :
    (ds.foldl (fun m d => m.release p d.2) m).disk = m.disk := by
  induction ds generalizing m with
  | nil => rfl
  | cons d ds ih => exact (ih _).trans (disk_release m p d.2)

theorem disk_retire (m : Machine S) (i : Nat) (life : Life) : (m.retire i life).disk = m.disk := by
  unfold retire
  split
  · rfl
  · exact disk_releaseAll _ m _

theorem disk_log (m : Machine S) (r : Record) : (m.log r).disk = m.disk := by
  unfold log
  split <;> rfl

theorem disk_finishRelay (m : Machine S) (j : Nat) (r : RelayTask) (fault : Option Fault) :
    (m.finishRelay j r fault).disk = m.disk := by
  refine (disk_log _ _).trans ?_
  unfold endRelay
  split <;> rfl

theorem disk_failRelay (m : Machine S) (j : Nat) (r : RelayTask) (f : Fault) :
    (m.failRelay j r f).disk = m.disk := by
  unfold failRelay
  split
  · exact disk_finishRelay m j r _
  · split
    · exact disk_finishRelay m j r _
    · unfold killRelay endRelay
      split <;> rfl

theorem disk_stepRelay {j : Nat} (h : m.stepRelay j = some m₁) : m₁.disk = m.disk := by
  unfold stepRelay at h
  cases hr : m.relays[j]? with
  | none => simp [hr] at h
  | some r =>
    simp only [hr, Bind.bind, Option.bind] at h
    split at h
    · cases h
    · split at h
      · cases h
        exact disk_finishRelay m j r _
      · split at h
        · -- it reads what it is to write next
          unfold pullRelay at h
          split at h
          · cases h
            exact disk_failRelay m j r _
          · split at h
            · cases h
              exact disk_finishRelay m j r _
            · cases h
              exact disk_finishRelay m j r _
            · cases h
              exact disk_failRelay m j r _
            · split at h <;> cases h
              exact disk_finishRelay m j r _
            · split at h <;> cases h
              · exact disk_finishRelay m j r _
              · rfl
        · -- it writes what it has read
          unfold pushRelay at h
          split at h
          · cases h
            exact disk_failRelay m j r _
          · cases h
          · cases h
            exact disk_failRelay m j r _
          · cases h
            exact disk_failRelay m j r _
          · cases h
            rfl

end Machine

/-! ### Steps of processes -/

/-- An action reads from a descriptor, writes to it, or gives back to it. -/
inductive Action.Uses (fd : Nat) : Action S → Prop
  | read (limit : Nat) (next : Except Nat Bytes → S) : Uses fd (.read fd limit next)
  | write (bytes : Bytes) (next : Except Nat Nat → S) : Uses fd (.write fd bytes next)
  | giveBack (count : Nat) (next : S) : Uses fd (.giveBack fd count next)

/-- What a step of a process does to files: nothing, or it goes on in a file, or writes to one, through
a descriptor that it has, or it opens one. -/
inductive Accesses (ps : Programs S) (m : Machine S) (k : Nat) (p : Process S) (m₁ : Machine S) : Prop
  | none (hdisk : m₁.disk = m.disk)
      (hds : ∀ q, m₁.processes[k]? = some q → q.descriptors ⊆ p.descriptors)
  | moves {fd o : Nat} {f : Opening → Opening} (huses : (ps.next p.program).Uses fd)
      (hlookup : p.descriptors.lookup fd = some (.opening o))
      (hf : ∀ x, (f x).node = x.node ∧ (f x).append = x.append)
      (hdisk : m₁.disk = { m.disk with openings := m.openings.modify o f })
      (hds : ∀ q, m₁.processes[k]? = some q → q.descriptors ⊆ p.descriptors)
  | writes {fd o : Nat} {bytes : Bytes} {m₂ : Machine S} (huses : (ps.next p.program).Uses fd)
      (hlookup : p.descriptors.lookup fd = some (.opening o))
      (hwrite : m.writeOpening o bytes = .ok m₂) (hdisk : m₁.disk = m₂.disk)
      (hds : ∀ q, m₁.processes[k]? = some q → q.descriptors ⊆ p.descriptors)
  | opens {fd o : Nat} {path : String} {mode : OpenMode} {next : Option Nat → S} {m₂ : Machine S}
      (hnext : ps.next p.program = .openFile fd path mode next)
      (hopen : m.openPath p.cwd path mode = .ok (o, m₂)) (hdisk : m₁.disk = m₂.disk)
      (hds : ∀ q, m₁.processes[k]? = some q → q.descriptors = (fd, .opening o) :: p.descriptors)

namespace Machine

/-- What becomes of a process that is changed. -/
theorem of_modifyProcess {f : Process S → Process S} (hp : m.processes[k]? = some p)
    (hq : (m.modifyProcess k f).processes[k]? = some q) : q = f p :=
  Option.some.inj (hq.symm.trans (processes_modifyProcess_self hp f))

theorem subset_of_modifyProcess {f : Process S → Process S} (hp : m.processes[k]? = some p)
    (hf : (f p).descriptors ⊆ p.descriptors) :
    ∀ q, (m.modifyProcess k f).processes[k]? = some q → q.descriptors ⊆ p.descriptors := by
  intro q hq
  rw [of_modifyProcess hp hq]
  exact hf

theorem subset_of_net {f : Process S → Process S} (hnet : m₁.net = m.net)
    (hp : m.processes[k]? = some p) (hf : (f p).descriptors ⊆ p.descriptors) :
    ∀ q, (m₁.modifyProcess k f).processes[k]? = some q → q.descriptors ⊆ p.descriptors :=
  subset_of_modifyProcess ((congrArg (·.processes[k]?) hnet).trans hp) hf

/-- Reading from an open file goes on in it, if it is one. -/
theorem readOpening_disk {o limit : Nat} {bytes : Bytes} (h : m.readOpening o limit = .ok (bytes, m₁)) :
    ∃ f : Opening → Opening, (∀ x, (f x).node = x.node ∧ (f x).append = x.append) ∧
      m₁.disk = { m.disk with openings := m.openings.modify o f } := by
  have hsame : ∀ m : Machine S, m.disk = { m.disk with openings := m.openings.modify o id } := by
    intro m
    have hid : m.openings.modify o id = m.openings := by
      refine Array.ext_getElem? fun i => ?_
      rw [Array.getElem?_modify]
      split <;> simp
    rw [hid]
    rfl
  unfold readOpening at h
  split at h
  · cases h
  · split at h <;> cases h
    · rename_i opening _ _ content _ _
      let taken := (content.drop opening.offset).take limit
      exact ⟨fun x => { x with offset := x.offset + taken.length }, fun x => ⟨rfl, rfl⟩, rfl⟩
    all_goals exact ⟨id, fun x => ⟨rfl, rfl⟩, hsame m⟩

theorem readStep_accesses (hp : m.processes[k]? = some p) {fd limit : Nat}
    {next : Except Nat Bytes → S} (hnext : ps.next p.program = .read fd limit next)
    (h : m.readStep k fd limit (p.descriptors.lookup fd) next = some m₁) : Accesses ps m k p m₁ := by
  have hhear : ∀ answer, Accesses ps m k p (m.hear k fd answer next) := fun answer =>
    .none rfl (subset_of_modifyProcess hp (List.Subset.refl _))
  unfold readStep at h
  split at h
  · cases h
    exact hhear _
  · split at h <;> cases h
    · exact .none rfl (subset_of_modifyProcess hp (List.Subset.refl _))
    · exact hhear _
    · exact hhear _
  · rename_i o hlookup
    split at h <;> cases h
    · rename_i bytes m₂ hread
      obtain ⟨f, hf, hdisk⟩ := readOpening_disk hread
      have huses : (ps.next p.program).Uses fd := hnext ▸ .read limit next
      exact .moves huses hlookup hf hdisk (subset_of_net (readOpening_net hread) hp (List.Subset.refl _))
    · exact hhear _
  · cases h
    exact hhear _

theorem writeStep_accesses (hp : m.processes[k]? = some p) {fd : Nat} {bytes : Bytes}
    {next : Except Nat Nat → S} (hnext : ps.next p.program = .write fd bytes next)
    (h : m.writeStep k bytes (p.descriptors.lookup fd) next = some m₁) : Accesses ps m k p m₁ := by
  have hgo : ∀ m₁ : Machine S, m₁.disk = m.disk → m₁.net = m.net → ∀ program,
      Accesses ps m k p (m₁.goOn k program) := fun m₁ hdisk hnet program =>
    .none hdisk (subset_of_net hnet hp (List.Subset.refl _))
  unfold writeStep at h
  split at h
  · cases h
    exact hgo m rfl rfl _
  · cases h
    exact hgo (m.writeOut bytes) rfl rfl _
  · cases h
    exact hgo (m.writeErr bytes) rfl rfl _
  · split at h <;> cases h
    · exact .none rfl (subset_of_modifyProcess hp (List.Subset.refl _))
    all_goals exact hgo m rfl rfl _
  · rename_i o hlookup
    split at h <;> cases h
    · rename_i m₂ hwrite
      have huses : (ps.next p.program).Uses fd := hnext ▸ .write bytes next
      exact .writes huses hlookup hwrite rfl (subset_of_net (writeOpening_net hwrite) hp (List.Subset.refl _))
    · exact hgo m rfl rfl _
  · cases h
    exact hgo m rfl rfl _

/-- A process that lets go of all lives on in another way, and has nothing open. -/
theorem of_retire (m : Machine S) (life : Life) (hp : m.processes[k]? = some p)
    (hq : (m.retire k life).processes[k]? = some q) : q = { p with life, descriptors := [] } := by
  unfold retire at hq
  rw [hp] at hq
  obtain ⟨-, hprocesses⟩ := releaseAll_kept (K := fun _ => True) (R := fun _ => True)
    (J := fun _ => True) p.descriptors m p fun _ _ _ => trivial
  exact of_modifyProcess ((congrArg (·[k]?) hprocesses).trans hp) hq

theorem retire_subset (m : Machine S) (life : Life) (hp : m.processes[k]? = some p) :
    ∀ q, (m.retire k life).processes[k]? = some q → q.descriptors ⊆ p.descriptors := by
  intro q hq
  rw [of_retire m life hp hq]
  exact List.nil_subset _

/-- **What a step of a process does to files.** -/
theorem act_accesses (hquiet : ∀ pid number next, ps.next p.program ≠ .signal pid number next)
    (hp : m.processes[k]? = some p) (h : act ps m k p = some m₁) : Accesses ps m k p m₁ := by
  have hgo : ∀ program, Accesses ps m k p (m.goOn k program) := fun program =>
    .none rfl (subset_of_modifyProcess hp (List.Subset.refl _))
  unfold act at h
  split at h
  · exact readStep_accesses hp ‹_› h
  · exact writeStep_accesses hp ‹_› h
  · rename_i fd path mode next hnext
    split at h <;> cases h
    · rename_i o m₂ hopen
      refine .opens hnext hopen rfl fun q hq => ?_
      rw [of_modifyProcess ((congrArg (·.processes[k]?) (openPath_net hopen)).trans hp) hq]
    · exact hgo _
  · rename_i fd next _
    simp only [Option.some.injEq] at h
    rw [← h]
    have hfilter : p.descriptors.filter (·.1 != fd) ⊆ p.descriptors := List.filter_subset_self _
    cases hc : p.descriptors.lookup fd with
    | none => exact .none rfl (subset_of_modifyProcess hp hfilter)
    | some c =>
      exact .none (disk_release m p c)
        (subset_of_modifyProcess ((congrArg (·[k]?) (release_processes m p c)).trans hp) hfilter)
  · rename_i fd count next hnext
    cases h
    have huses : (ps.next p.program).Uses fd := hnext ▸ .giveBack count next
    have hds := subset_of_net (f := fun p : Process S => { p with program := next })
      (giveBack_net m (p.descriptors.lookup fd) count) hp (List.Subset.refl _)
    cases hc : p.descriptors.lookup fd with
    | none => exact .none rfl (hc ▸ hds)
    | some c =>
      cases c with
      | opening o =>
        exact .moves (f := fun x => { x with offset := x.offset - count }) huses hc
          (fun x => ⟨rfl, rfl⟩) rfl (hc ▸ hds)
      | _ => exact .none rfl (hc ▸ hds)
  · cases h
    exact hgo _
  · cases h
    exact hgo _
  · cases h
    exact hgo _
  · exact absurd ‹_› (hquiet _ _ _)
  · cases h
    exact .none rfl (subset_of_modifyProcess hp (List.Subset.refl _))
  · cases h
    exact .none (disk_retire m k _) (retire_subset m _ hp)
  · cases h
    exact .none (disk_retire m k _) (retire_subset m _ hp)

theorem stepProcess_accesses (hquiet : ∀ s pid number next, ps.next s ≠ .signal pid number next)
    (h : stepProcess ps m k = some m₁) : ∃ p, m.processes[k]? = some p ∧ Accesses ps m k p m₁ := by
  unfold stepProcess at h
  cases hp : m.processes[k]? with
  | none => simp [hp] at h
  | some p =>
    simp only [hp, Bind.bind, Option.bind] at h
    refine ⟨p, rfl, ?_⟩
    split at h
    · exact act_accesses (hquiet p.program) hp h
    · split at h
      · cases h
        exact .none rfl (subset_of_modifyProcess hp (List.Subset.refl _))
      · cases h
    · cases h

end Machine

/-! ### Files that are left alone -/

namespace Machine

/-- A channel leads to no file, or to another one. -/
def Past (m : Machine S) (node : Inode) (c : Channel) : Prop :=
  ∀ o, c = .opening o → ∃ x, m.openings[o]? = some x ∧ x.node ≠ node

/-- What writing to an open file does to files. -/
theorem writeOpening_disk {o : Nat} {bytes : Bytes} (h : m.writeOpening o bytes = .ok m₁) :
    m₁.disk = m.disk ∨ ∃ x content, ∃ f : Opening → Opening, m.openings[o]? = some x ∧
      (∀ x, (f x).node = x.node ∧ (f x).append = x.append) ∧ m₁.disk = { m.disk with
        files := m.files.setContent x.node content, openings := m.openings.modify o f } := by
  unfold writeOpening at h
  split at h
  · cases h
  · rename_i x hx
    split at h
    · rename_i content _ _
      let offset := if x.append then content.length else x.offset
      cases h
      exact .inr ⟨x, overwrite content offset bytes,
        fun y => { y with offset := offset + bytes.length }, hx, fun y => ⟨rfl, rfl⟩, rfl⟩
    all_goals first | (cases h; exact .inl rfl) | cases h

theorem writeOpening_handles {o : Nat} {bytes : Bytes} (h : m.writeOpening o bytes = .ok m₁) :
    m₁.handles = m.handles := by
  unfold writeOpening at h
  split at h
  · cases h
  · split at h <;> first | (cases h; rfl) | cases h

/-- What opening a file does to files. -/
theorem openPath_disk {cwd : Path} {path : String} {mode : OpenMode} {o : Nat}
    (h : m.openPath cwd path mode = .ok (o, m₁)) : o = m.openings.size ∧ ∃ i,
      m₁.openings = m.openings.push { node := i, append := mode = .append } ∧
      m₁.handles = m.handles ∧ ∀ node, m.files.Plain node → node ≠ i →
        m₁.files.node? node = m.files.node? node := by
  unfold openPath at h
  simp only [Bind.bind, Except.bind, Pure.pure, Except.pure] at h
  cases mode with
  | read =>
    cases hopen : m.files.openReading cwd path with
    | error e => simp [hopen, Functor.map, Except.map] at h
    | ok i =>
      simp only [hopen, Functor.map, Except.map] at h
      cases h
      exact ⟨rfl, i, rfl, rfl, fun _ _ _ => rfl⟩
  | write | append =>
    simp only at h
    split at h
    · cases h
    · rename_i opened hopen
      cases h
      exact ⟨rfl, opened.1, rfl, rfl, fun node hplain hne => FileSystem.node?_openWriting hplain hopen hne⟩

end Machine

/-- Who has opened a file has it open for good: only where he is in it changes. -/
structure Grown (m m₁ : Machine S) : Prop where
  opening : ∀ {o : Nat} {x : Opening}, m.openings[o]? = some x →
    ∃ y, m₁.openings[o]? = some y ∧ y.node = x.node ∧ y.append = x.append
  size_le : m.openings.size ≤ m₁.openings.size

/-- A file has been left alone, with all who have it open. -/
structure Spared (node : Inode) (m m₁ : Machine S) : Prop extends Grown m m₁ where
  file : m₁.files.node? node = m.files.node? node
  same : ∀ {o : Nat} {x : Opening}, m.openings[o]? = some x → x.node = node →
    m₁.openings[o]? = some x

/-- The only ones who come to have a file open from some number on are of some kind. -/
def OnlyOpens (node : Inode) (n : Nat) (P : Nat → Prop) (m : Machine S) : Prop :=
  ∀ o x, n ≤ o → m.openings[o]? = some x → x.node = node → P o

variable {node : Inode} {n : Nat} {P : Nat → Prop}

namespace Grown

theorem of_disk (h : m₁.disk = m.disk) : Grown m m₁ := by
  have hopenings : m₁.openings = m.openings := congrArg Disk.openings h
  refine ⟨fun {o x} hx => ⟨x, ?_, rfl, rfl⟩, ?_⟩
  · rw [hopenings]
    exact hx
  · rw [hopenings]

theorem refl (m : Machine S) : Grown m m := .of_disk rfl

theorem trans (h : Grown m m₁) (h' : Grown m₁ m₂) : Grown m m₂ := by
  refine ⟨fun hx => ?_, Nat.le_trans h.size_le h'.size_le⟩
  obtain ⟨y, hy, hnode, happend⟩ := h.opening hx
  obtain ⟨z, hz, hnode', happend'⟩ := h'.opening hy
  exact ⟨z, hz, hnode'.trans hnode, happend'.trans happend⟩

theorem of_modify {o : Nat} {f : Opening → Opening}
    (hf : ∀ x, (f x).node = x.node ∧ (f x).append = x.append)
    (h : m₁.openings = m.openings.modify o f) : Grown m m₁ := by
  refine ⟨fun {i x} hx => ?_, ?_⟩
  · rw [h, Array.getElem?_modify, hx]
    split
    · exact ⟨f x, rfl, hf x⟩
    · exact ⟨x, rfl, rfl, rfl⟩
  · rw [h, Array.size_modify]

theorem of_push {x : Opening} (h : m₁.openings = m.openings.push x) : Grown m m₁ := by
  refine ⟨fun {o y} hy => ⟨y, ?_, rfl, rfl⟩, ?_⟩
  · rw [h]
    exact getElem?_push_of_some x hy
  · rw [h, Array.size_push]
    exact Nat.le_succ _

theorem onlyOpens (h : Grown m m₁) (h₁ : OnlyOpens node n P m₁) : OnlyOpens node n P m := by
  intro o x ho hx hnode
  obtain ⟨y, hy, hsame, -⟩ := h.opening hx
  exact h₁ o y ho hy (hsame.trans hnode)

theorem past (h : Grown m m₁) {c : Channel} (hc : m.Past node c) : m₁.Past node c := by
  intro o ho
  obtain ⟨x, hx, hne⟩ := hc o ho
  obtain ⟨y, hy, hsame, -⟩ := h.opening hx
  exact ⟨y, hy, fun hnode => hne (hsame.symm.trans hnode)⟩

end Grown

namespace Spared

theorem of_disk (h : m₁.disk = m.disk) : Spared node m m₁ where
  toGrown := .of_disk h
  file := congrArg (fun d : Disk => d.files.node? node) h
  same {o _} hx _ := (congrArg (fun d : Disk => d.openings[o]?) h).trans hx

theorem refl (node : Inode) (m : Machine S) : Spared node m m := .of_disk rfl

theorem trans (h : Spared node m m₁) (h' : Spared node m₁ m₂) : Spared node m m₂ where
  toGrown := h.toGrown.trans h'.toGrown
  file := h'.file.trans h.file
  same hx hnode := h'.same (h.same hx hnode) hnode

/-- Where somebody goes on in another file. -/
theorem of_modify {o : Nat} {f : Opening → Opening} (hpast : m.Past node (.opening o))
    (hf : ∀ x, (f x).node = x.node ∧ (f x).append = x.append)
    (hopenings : m₁.openings = m.openings.modify o f)
    (hnode : m₁.files.node? node = m.files.node? node) : Spared node m m₁ where
  toGrown := .of_modify hf hopenings
  file := hnode
  same {i x} hx hxnode := by
    obtain ⟨y, hy, hne⟩ := hpast o rfl
    rw [hopenings, Array.getElem?_modify, if_neg]
    · exact hx
    · rintro rfl
      cases hx.symm.trans hy
      exact hne hxnode

theorem writeOpening {o : Nat} {bytes : Bytes} (hpast : m.Past node (.opening o))
    (h : m.writeOpening o bytes = .ok m₁) : Spared node m m₁ := by
  rcases m.writeOpening_disk h with hdisk | ⟨x, content, f, hx, hf, hdisk⟩
  · exact .of_disk hdisk
  · obtain ⟨y, hy, hne⟩ := hpast o rfl
    cases hx.symm.trans hy
    refine .of_modify hpast hf (congrArg Disk.openings hdisk) ?_
    have hfiles : m₁.files = _ := congrArg Disk.files hdisk
    rw [hfiles]
    exact FileSystem.node?_setContent_of_ne m.files (Ne.symm hne) content

theorem openPath {cwd : Path} {path : String} {mode : OpenMode} {o : Nat}
    (hplain : m.files.Plain node) (h : m.openPath cwd path mode = .ok (o, m₁))
    (hpast : m₁.Past node (.opening o)) : Spared node m m₁ := by
  obtain ⟨rfl, i, hopenings, -, hfiles⟩ := m.openPath_disk h
  obtain ⟨x, hx, hne⟩ := hpast _ rfl
  rw [hopenings, Array.getElem?_push_size] at hx
  cases hx
  refine ⟨.of_push hopenings, hfiles node hplain (Ne.symm hne), fun hy _ => ?_⟩
  rw [hopenings]
  exact getElem?_push_of_some _ hy

end Spared

/-- What is opened by a step is opened for good. -/
theorem Accesses.grown (h : Accesses ps m k p m₁) : Grown m m₁ := by
  cases h with
  | none hdisk => exact .of_disk hdisk
  | moves _ _ hf hdisk => exact .of_modify hf (congrArg Disk.openings hdisk)
  | writes _ _ hwrite hdisk =>
    rcases m.writeOpening_disk hwrite with hsame | ⟨x, content, f, -, hf, hmodify⟩
    · exact .of_disk (hdisk.trans hsame)
    · exact .of_modify hf (congrArg Disk.openings (hdisk.trans hmodify))
  | opens _ hopen hdisk =>
    obtain ⟨-, i, hopenings, -, -⟩ := m.openPath_disk hopen
    exact .of_push ((congrArg Disk.openings hdisk).trans hopenings)

/-- **A step leaves a file alone** that its process neither uses nor opens. -/
theorem Accesses.spared (h : Accesses ps m k p m₁) (hplain : m.files.Plain node)
    (hpast : ∀ fd c, (ps.next p.program).Uses fd → p.descriptors.lookup fd = some c → m.Past node c)
    (hnew : OnlyOpens node m.openings.size (fun _ => False) m₁) : Spared node m m₁ := by
  cases h with
  | none hdisk => exact .of_disk hdisk
  | moves huses hlookup hf hdisk =>
    exact .of_modify (hpast _ _ huses hlookup) hf (congrArg Disk.openings hdisk)
      (congrArg (fun d : Disk => d.files.node? node) hdisk)
  | writes huses hlookup hwrite hdisk =>
    exact (Spared.writeOpening (hpast _ _ huses hlookup) hwrite).trans (.of_disk hdisk)
  | @opens fd o path mode next m₂ _ hopen hdisk _ =>
    obtain ⟨rfl, i, hopenings, -⟩ := m.openPath_disk hopen
    have hpush : m₂.openings[m.openings.size]? = some { node := i, append := mode = .append } := by
      rw [hopenings, Array.getElem?_push_size]
    refine (Spared.openPath hplain hopen fun o ho => ?_).trans (.of_disk hdisk)
    cases ho
    refine ⟨_, hpush, fun hnode => hnew _ _ (Nat.le_refl _) ?_ hnode⟩
    exact (congrArg (fun d : Disk => d.openings[m.openings.size]?) hdisk).trans hpush

end Host

end LineShell
