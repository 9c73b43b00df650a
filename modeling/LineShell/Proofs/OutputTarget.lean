import LineShell.Proofs.HeldRuns

namespace LineShell.Host

open Text (Bytes)

/-!
# The file that a line's output goes to

* `outputNode?` — the file that a line's output goes to, found as the line opens its files;
* `Machine.timesOpened` — how often a file has been opened;
* `Opens.ids_eq` — the files of a line are opened in a row;
* `Apart.opens`, `Held.opens` — what comes of a file while those of a line are opened;
* `Apart.shut` — and of one that none of them is, when they have been closed again.
-/

variable {S : Type} {wrote : S → Bytes} {m m₁ m₂ m' : Machine S} {node : Inode} {n : Nat}
  {id : Option FileId} {ids ids' : List FileId} {s : Session} {line : CommandLine} {t : Target}
  {ts ts' before : List Target} {f : Fault}

/-! ### How often a file has been opened -/

/-- How often a file has been opened, by whomever. -/
def Machine.timesOpened (m : Machine S) (node : Inode) : Nat :=
  (m.openings.toList.map Opening.node).count node

/-- What has been opened has been opened for good. -/
theorem Grown.nodes (h : Grown m m₁) :
    m.openings.toList.map Opening.node <+: m₁.openings.toList.map Opening.node := by
  refine List.prefix_iff_getElem?.2 fun i hi => ?_
  have hlt : i < m.openings.size := by simpa using hi
  obtain ⟨y, hy, hnode, -⟩ := h.opening (Array.getElem?_eq_getElem hlt)
  simp [hy, hnode]

theorem Grown.timesOpened_le (h : Grown m m₁) (node : Inode) :
    m.timesOpened node ≤ m₁.timesOpened node := h.nodes.count_le node

/-- Where a file has not been opened more often, nobody has opened it since. -/
theorem Grown.onlyOpens_of_le (h : Grown m m₁) (hle : m₁.timesOpened node ≤ m.timesOpened node) :
    OnlyOpens node m.openings.size (fun _ => False) m₁ := by
  intro o x ho hx hnode
  obtain ⟨rest, hrest⟩ := h.nodes
  have hcount : rest.count node = 0 := by
    have htotal : (m₁.openings.toList.map Opening.node).count node =
        (m.openings.toList.map Opening.node).count node + rest.count node := by
      rw [← hrest, List.count_append]
    unfold Machine.timesOpened at hle
    omega
  -- the opening comes after those that there were
  refine List.count_eq_zero.1 hcount (List.mem_iff_getElem?.2 ⟨o - m.openings.size, ?_⟩)
  have hget : (m₁.openings.toList.map Opening.node)[o]? = some node := by
    simp [hx, hnode]
  rw [← hrest, List.getElem?_append_right (by simpa using ho)] at hget
  simpa using hget

/-! ### Files that are opened in a row -/

/-- What comes of a file that can be opened. -/
theorem opened_of_openHandle {path : String} {mode : OpenMode} {j : FileId}
    (h : m.openHandle path mode = (.returned j, m₁)) :
    j = m.handles.size ∧ ∃ x handle, m₁.openings = m.openings.push x ∧
      m₁.handles = m.handles.push handle ∧ m₁.nodeOf? j = some x.node := by
  unfold Machine.openHandle at h
  split at h
  · cases h
  · split at h
    · cases h
    · rename_i opening m₂ hopen
      cases h
      obtain ⟨rfl, i, hopenings, hhandles, -⟩ := Machine.openPath_disk hopen
      rw [hhandles]
      refine ⟨rfl, _, _, hopenings, rfl, ?_⟩
      unfold Machine.nodeOf?
      simp only [Array.getElem?_push_size, Option.bind_some, hopenings, Option.map_some]

namespace Opens

/-- The files that are opened come one after another behind those that there are. -/
theorem ids_eq (h : Opens s m ts ids m') : ids = List.range' m.handles.size ts.length ∧
    m'.handles.size = m.handles.size + ts.length := by
  induction h with
  | nil m => exact ⟨rfl, rfl⟩
  | @cons m mid m' t ts j ids hopen _ ih =>
    obtain ⟨rfl, x, handle, -, hhandles, -⟩ := opened_of_openHandle hopen
    have hsize : mid.handles.size = m.handles.size + 1 := by rw [hhandles, Array.size_push]
    rw [hsize] at ih
    refine ⟨?_, ?_⟩
    · rw [List.length_cons, List.range'_succ, ih.1]
    · rw [ih.2, List.length_cons]
      omega

/-- They change nothing of those that there are. -/
theorem handles_eq (h : Opens s m ts ids m') {j : FileId} (hj : j < m.handles.size) :
    m'.handles[j]? = m.handles[j]? := by
  induction h with
  | nil m => rfl
  | cons hopen _ ih =>
    obtain ⟨-, x, handle, -, hhandles, -⟩ := opened_of_openHandle hopen
    rw [hhandles] at ih
    rw [ih (by rw [Array.size_push]; exact Nat.lt_succ_of_lt hj), Array.getElem?_push,
      if_neg (Nat.ne_of_lt hj)]

theorem grown (h : Opens s m ts ids m') : Grown m m' := by
  induction h with
  | nil m => exact .refl m
  | cons hopen _ ih =>
    obtain ⟨-, x, handle, hopenings, -⟩ := opened_of_openHandle hopen
    exact (Grown.of_push hopenings).trans ih

theorem net_eq (h : Opens s m ts ids m') : m'.net = m.net := by
  induction h with
  | nil m => rfl
  | @cons m mid m' t ts j ids hopen _ ih =>
    have hnet := m.openHandle_net (t.path s) t.mode
    rw [hopen] at hnet
    exact ih.trans hnet

end Opens

/-! ### Where the output goes -/

/-- What opening a file comes to, if it can be opened. -/
def reached? : Outcome FileId × Machine S → Option (Machine S)
  | (.returned _, m) => some m
  | _ => none

/-- What opening targets one after another comes to, if all of them can be opened. -/
def openedAfter? (s : Session) (m : Machine S) (ts : List Target) : Option (Machine S) :=
  ts.foldlM (fun m t => reached? (m.openHandle (t.path s) t.mode)) m

theorem Opens.openedAfter?_eq (h : Opens s m ts ids m') : openedAfter? s m ts = some m' := by
  induction h with
  | nil m => rfl
  | cons hopen _ ih =>
    unfold openedAfter? at ih ⊢
    rw [List.foldlM_cons, hopen]
    exact ih

theorem Stops.openedAfter?_eq (h : Stops s m ts before t f ids m') : openedAfter? s m ts = none := by
  obtain ⟨⟨later, rfl⟩, hopens, hfails⟩ := h
  unfold openedAfter?
  induction hopens with
  | nil m =>
    rw [List.nil_append, List.foldlM_cons, hfails]
    rfl
  | cons hopen _ ih =>
    rw [List.cons_append, List.foldlM_cons, hopen]
    exact ih hfails

/-- The targets that a line opens before its output. -/
def inputsOf (line : CommandLine) : List Target := targetsOf (CommandLine.target? line.input) .read

/-- The target of a line's output. -/
def outputsOf (line : CommandLine) : List Target :=
  targetsOf (CommandLine.target? line.output) line.outputMode

/-- The file that a line's output goes to. Before it the line opens its input, so there is none if that
cannot be opened. -/
def outputNode? (s : Session) (m : Machine S) (line : CommandLine) : Option Inode := do
  let m₁ ← openedAfter? s m (inputsOf line)
  let m₂ ← openedAfter? s m₁ (outputsOf line)
  (m₂.nodeOf? m₁.handles.size).filter fun node => (m₂.files.content? node).isSome

theorem outputNode?_of_opens (h : Opens s m (inputsOf line) ids m₁)
    (h' : Opens s m₁ (outputsOf line) ids' m₂) (hout : outputNode? s m line = some node) :
    m₂.nodeOf? m₁.handles.size = some node ∧ m₂.files.content? node ≠ none := by
  unfold outputNode? at hout
  rw [h.openedAfter?_eq] at hout
  simp only [Option.bind_eq_bind, Option.bind_some, h'.openedAfter?_eq, Option.filter_eq_some_iff]
    at hout
  exact ⟨hout.1, Option.isSome_iff_ne_none.1 hout.2⟩

/-- Output goes nowhere without a target. -/
theorem target_of_outputNode? (hout : outputNode? s m line = some node) :
    ∃ operand, CommandLine.target? line.output = some operand := by
  refine Option.ne_none_iff_exists'.1 fun hnone => ?_
  have houtputs : outputsOf line = [] := by rw [outputsOf, hnone]; rfl
  unfold outputNode? at hout
  rw [houtputs] at hout
  obtain ⟨m₁, -, hout⟩ := Option.bind_eq_some_iff.1 hout
  obtain ⟨m₂, hm₂, hout⟩ := Option.bind_eq_some_iff.1 hout
  cases hm₂
  -- nothing has been opened behind the input
  have hbeyond : m₁.nodeOf? m₁.handles.size = none := by
    unfold Machine.nodeOf?
    rw [Array.getElem?_eq_none (Nat.le_refl _)]
    rfl
  rw [hbeyond] at hout
  cases hout

/-- Where the input or the output cannot be opened, the output goes nowhere. -/
theorem outputNode?_of_stops (h : Stops s m (inputsOf line ++ outputsOf line) before t f ids m₁) :
    outputNode? s m line = none := by
  unfold outputNode?
  rcases h.append_cases with hinput | ⟨ids₁, ids₂, mid, before', -, -, hopens, houtput⟩
  · rw [hinput.openedAfter?_eq]
    rfl
  · rw [hopens.openedAfter?_eq]
    simp only [Option.bind_eq_bind, Option.bind_some, houtput.openedAfter?_eq, Option.bind_none]

/-! ### While files are opened -/

/-- A file that is none of those that are opened is left alone. -/
theorem Apart.opens (h : Apart node n none id m) (hopens : Opens s m ts ids m')
    (hnew : OnlyOpens node m.openings.size (fun _ => False) m') :
    Apart node n none id m' ∧ Spared node m m' := by
  induction hopens with
  | nil m => exact ⟨h, .refl node m⟩
  | @cons m mid m' t ts j ids hopen hrest ih =>
    have hgrown : Grown m mid := by
      obtain ⟨-, x, handle, hopenings, -⟩ := opened_of_openHandle hopen
      exact .of_push hopenings
    have hopened := h.openHandle (t.path s) t.mode
    rw [hopen] at hopened
    obtain ⟨h₁, hspared⟩ := hopened (hrest.grown.onlyOpens hnew)
    obtain ⟨h', hspared'⟩ := ih h₁ fun o x ho => hnew o x (Nat.le_trans hgrown.size_le ho)
    exact ⟨h', hspared.trans hspared'⟩

/-- Other files are opened. -/
theorem Held.opens {o : Nat} {k : Option Nat} {j : FileId} {lent closed : Bool} {given : Bytes}
    (h : Held wrote node n o j lent k closed given m) (hopens : Opens s m ts ids m')
    (hnew : OnlyOpens node m.openings.size (fun _ => False) m') :
    Held wrote node n o j lent k closed given m' := by
  induction hopens with
  | nil m => exact h
  | @cons m mid m' t ts _ ids hopen hrest ih =>
    have hopened := h.apart.openHandle (t.path s) t.mode
    have hhandle := handles_openHandle m (t.path s) t.mode h.id_lt
    have hnet := m.openHandle_net (t.path s) t.mode
    rw [hopen] at hopened hhandle hnet
    obtain ⟨h₁, hspared⟩ := hopened (hrest.grown.onlyOpens hnew)
    exact ih (h.of_net hspared h₁ hhandle hnet)
      fun o x ho => hnew o x (Nat.le_trans hspared.size_le ho)

/-- What comes of a line's output file when it is opened, between the input and perhaps others. -/
theorem Opens.output (hopens : Opens s m (inputsOf line ++ outputsOf line ++ ts) ids m₁)
    (hout : outputNode? s m line = some node) : ∃ path ids₁ ids₂ m₂ m₃,
      Opens s m (inputsOf line) ids₁ m₂ ∧
        m₂.openHandle path line.outputMode = (.returned m₂.handles.size, m₃) ∧
          Opens s m₃ ts ids₂ m₁ ∧ m₃.nodeOf? m₂.handles.size = some node ∧
            m₃.files.content? node ≠ none ∧ m₃.timesOpened node = m₂.timesOpened node + 1 := by
  obtain ⟨ids₁, ids₂, m₃, rfl, hopens', hrest⟩ := opens_append hopens
  obtain ⟨ids₃, ids₄, m₂, rfl, hinput, houtput⟩ := opens_append hopens'
  obtain ⟨hnode, hfile⟩ := outputNode?_of_opens hinput houtput hout
  obtain ⟨operand, htarget⟩ := target_of_outputNode? hout
  unfold outputsOf at houtput
  rw [htarget] at houtput
  rcases houtput with _ | ⟨hopen, hnil⟩
  cases hnil
  obtain ⟨rfl, x, handle, hopenings, hhandles, hnode'⟩ := opened_of_openHandle hopen
  cases hnode.symm.trans hnode'
  refine ⟨_, ids₃, ids₂, m₂, m₃, hinput, hopen, hrest, hnode, hfile, ?_⟩
  unfold Machine.timesOpened
  rw [hopenings, Array.toList_push, List.map_append, List.count_append]
  simp

/-- The output file of a line is opened. -/
theorem Opens.timesOpened_lt (hopens : Opens s m (inputsOf line ++ outputsOf line ++ ts) ids m₁)
    (hout : outputNode? s m line = some node) : m.timesOpened node < m₁.timesOpened node := by
  obtain ⟨_, _, _, m₂, m₃, hinput, -, hrest, -, -, honce⟩ := hopens.output hout
  have hle := hinput.grown.timesOpened_le node
  have hle' := hrest.grown.timesOpened_le node
  omega

variable (wrote) in
/-- **The output file has been opened**, between the input and perhaps others. If all else leaves it
alone, it is held from then on. -/
theorem Held.of_output (h : Apart node m.handles.size none none m)
    (hopens : Opens s m (inputsOf line ++ outputsOf line ++ ts) ids m₁) (hgrown : Grown m₁ m')
    (hout : outputNode? s m line = some node)
    (hcount : m'.timesOpened node ≤ m.timesOpened node + 1) (lent : Bool) :
    ∃ o, Held wrote node m.handles.size o (m.handles.size + (inputsOf line).length) lent none false
        (line.outputMode.kept (m.files.content? node)) m₁ ∧
      OnlyOpens node m₁.openings.size (fun _ => False) m' := by
  obtain ⟨path, ids₁, ids₂, m₂, m₃, hinput, hopen, hrest, hnode, hfile, honce⟩ := hopens.output hout
  -- the output accounts for the only time that the file is opened
  have hle₁ := hrest.grown.timesOpened_le node
  have hle₂ := hgrown.timesOpened_le node
  have hle₃ := hinput.grown.timesOpened_le node
  obtain ⟨h₂, hspared⟩ := h.opens hinput (hinput.grown.onlyOpens_of_le (by omega))
  have hnew : OnlyOpens node m₃.openings.size (fun _ => False) m' :=
    (hrest.grown.trans hgrown).onlyOpens_of_le (by omega)
  have hmode : line.outputMode ≠ .read := by
    unfold CommandLine.outputMode
    split <;> nofun
  have hsize := hinput.ids_eq.2
  have hcontent : m₂.files.content? node = m.files.content? node := by
    unfold FileSystem.content?
    rw [hspared.file]
  obtain ⟨o, hheld⟩ := Held.opened wrote h₂ hopen hmode hnode hfile lent
  rw [hcontent, hsize] at hheld
  refine ⟨o, hheld.opens hrest (hgrown.onlyOpens hnew), fun o x ho => hnew o x ?_⟩
  exact Nat.le_trans hrest.grown.size_le ho

/-! ### When files have been closed -/

/-- Files that have been opened have been closed again: nobody has come to have a file open. -/
theorem Apart.shut (h : Apart node m.handles.size none none m) (hopens : Opens s m ts ids m₁)
    (hshut : Shut m₁ ids m') (hgrown : Grown m m') (hinherited : m'.inherited = m.inherited)
    (hplain : m'.files.Plain node) : Apart node m'.handles.size none none m' := by
  obtain ⟨rfl, hsize⟩ := hopens.ids_eq
  refine ⟨hplain, ?_, fun {i p} hp d hd => ?_, fun {j handle} hj hcounts => ?_⟩
  · rw [hinherited]
    exact ⟨hgrown.past h.inherited.1, hgrown.past h.inherited.2.1, hgrown.past h.inherited.2.2⟩
  · rw [hshut.processes, hopens.processes] at hp
    exact (h.process hp d hd).imp_left hgrown.past
  · have hlt : j < m'.handles.size := (Array.getElem?_eq_some_iff.1 hj).1
    have hopen := hcounts.resolve_left (Nat.not_le.2 hlt)
    rw [hshut.handles] at hj
    obtain ⟨handle₁, hj₁, rfl⟩ := Option.map_eq_some_iff.1 hj
    obtain ⟨hopen₁, hnot⟩ : handle₁.closed = false ∧
        (List.range' m.handles.size ts.length).contains j = false := Bool.or_eq_false_iff.1 hopen
    -- a file that is still open was there before
    have hlt₁ : j < m₁.handles.size := (Array.getElem?_eq_some_iff.1 hj₁).1
    have hold : j < m.handles.size := by
      have hout : j ∉ List.range' m.handles.size ts.length := by simpa using hnot
      rw [List.mem_range'_1] at hout
      omega
    rw [hopens.handles_eq hold] at hj₁
    exact (h.handle hj₁ (.inr hopen₁)).imp_left hgrown.past

end LineShell.Host
