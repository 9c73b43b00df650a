import LineShell.Proofs.Descent

namespace LineShell.FileSystem

open Text (Bytes)

/-!
# Files that are saved

A file that is saved is replaced by a new one, which is written beside it first. So what is under its
path afterwards depends on where the path leads, on what stands beside that, and on what becomes of
both on the way.

* `passes_add`, `passes_modifyEntries` — what changes of a file system leave where it stood;
* `Home` — where the bytes of a path are: under the path, or under the text of the link that it is;
* `Stored` — a path with its bytes, which can be saved to over and over, and `Stored.replaceFile`,
  `Stored.saveFile` — what comes of it;
* `Savable.stored` — that this needs no more than a file, or none, with nothing beside it.
-/

variable {fs fs' : FileSystem} {cwd : Path} {path place name name' : String} {d i j : Inode}
  {content : Option Bytes}

/-! ### What changes come to -/

theorem lookup_filter (entries : List (String × Inode)) (name name' : String) :
    (entries.filter (·.1 != name)).lookup name' =
      if name' = name then none else entries.lookup name' := by
  induction entries with
  | nil => simp
  | cons entry entries ih =>
    obtain ⟨key, value⟩ := entry
    rw [List.filter_cons]
    by_cases hkey : key = name
    · subst hkey
      rw [if_neg (by simp), ih]
      split
      · rfl
      · rw [List.lookup_cons, beq_eq_false_iff_ne.2 ‹_›]
    · rw [if_pos (by simpa using hkey), List.lookup_cons, List.lookup_cons, ih]
      by_cases hname : name' = key
      · rw [hname, beq_self_eq_true]
        exact (if_neg hkey).symm
      · rw [beq_eq_false_iff_ne.2 hname]

theorem named?_of_node? {parent : Inode} {entries : List (String × Inode)}
    (h : fs.node? d = some (.directory parent entries)) :
    fs.named? d name = entries.lookup name := by rw [named?, h]

theorem exists_node?_of_isDirectoryNode (h : fs.isDirectoryNode d = true) :
    ∃ parent entries, fs.node? d = some (.directory parent entries) := by
  rw [isDirectoryNode] at h
  split at h
  · exact ⟨_, _, ‹_›⟩
  · cases h

theorem not_isDirectoryNode_of_content? {bytes : Bytes} (h : fs.content? j = some bytes) :
    fs.isDirectoryNode j = false ∧ ∀ target, fs.node? j ≠ some (.link target) := by
  rw [content?] at h
  split at h
  · next hnode => simp [isDirectoryNode, hnode]
  · cases h

/-! #### A new node -/

theorem node?_push (node : Node) {old : Node} (h : fs.node? j = some old) :
    (FileSystem.mk (fs.nodes.push node)).node? j = some old := by
  rw [node?] at h ⊢
  obtain ⟨hlt, -⟩ := Array.getElem?_eq_some_iff.1 h
  rw [Array.getElem?_push, if_neg (Nat.ne_of_lt hlt), h]

theorem passes_push (node : Node) : fs.Passes ⟨fs.nodes.push node⟩ where
  directory hnode := ⟨_, node?_push node hnode, fun hentry _ => hentry⟩
  link hlink := node?_push node hlink

/-! #### The names of a directory -/

theorem node?_modifyEntries {parent : Inode} {entries : List (String × Inode)}
    (f : List (String × Inode) → List (String × Inode))
    (h : fs.node? d = some (.directory parent entries)) :
    (fs.modifyEntries d f).node? d = some (.directory parent (f entries)) := by
  rw [node?] at h ⊢
  simp [modifyEntries, Array.getElem?_modify, h]

theorem node?_modifyEntries_of_ne (f : List (String × Inode) → List (String × Inode)) (h : j ≠ d) :
    (fs.modifyEntries d f).node? j = fs.node? j := by
  rw [node?, node?, modifyEntries, Array.getElem?_modify, if_neg h.symm]

@[simp] theorem content?_modifyEntries (f : List (String × Inode) → List (String × Inode)) :
    (fs.modifyEntries d f).content? j = fs.content? j := by
  by_cases hj : j = d
  · subst hj
    simp only [content?, node?, modifyEntries, Array.getElem?_modify, if_true]
    rcases fs.nodes[j]? with _ | (_ | _ | _ | _) <;> rfl
  · rw [content?, content?, node?_modifyEntries_of_ne f hj]

/-- Names that stand for directories or links have to stay. -/
theorem passes_modifyEntries {f : List (String × Inode) → List (String × Inode)}
    (hf : ∀ entries name j, (∀ name', fs.named? d name' = entries.lookup name') →
      fs.named? d name = some j →
      fs.isDirectoryNode j = true ∨ (∃ target, fs.node? j = some (.link target)) →
      (f entries).lookup name = some j) : fs.Passes (fs.modifyEntries d f) where
  directory := by
    intro i parent entries hnode
    by_cases hi : i = d
    · subst hi
      refine ⟨f entries, node?_modifyEntries f hnode, fun hentry hpassed => ?_⟩
      exact hf entries _ _ (fun _ => named?_of_node? hnode)
        ((named?_of_node? hnode).trans hentry) hpassed
    · exact ⟨entries, (node?_modifyEntries_of_ne f hi).trans hnode, fun hentry _ => hentry⟩
  link := by
    intro i target hlink
    by_cases hi : i = d
    · subst hi
      rw [node?] at hlink ⊢
      simp [modifyEntries, Array.getElem?_modify, hlink]
    · exact (node?_modifyEntries_of_ne f hi).trans hlink

/-! #### The bytes of a file -/

theorem node?_setContent {node : Node} (content : Bytes) (h : fs.node? j = some node)
    (hnode : ∀ bytes x, node ≠ .file bytes x) : (fs.setContent i content).node? j = some node := by
  rw [node?] at h ⊢
  simp only [setContent, Array.getElem?_modify]
  split
  · rw [h]
    cases node with
    | file bytes x => exact absurd rfl (hnode bytes x)
    | _ => rfl
  · exact h

theorem passes_setContent (content : Bytes) : fs.Passes (fs.setContent i content) where
  directory hnode := ⟨_, node?_setContent content hnode (fun _ _ h => by cases h), fun h _ => h⟩
  link hlink := node?_setContent content hlink fun _ _ h => by cases h

theorem named?_setContent (content : Bytes) (h : fs.isDirectoryNode d = true) :
    (fs.setContent i content).named? d name = fs.named? d name := by
  obtain ⟨parent, entries, hnode⟩ := exists_node?_of_isDirectoryNode h
  rw [named?_of_node? hnode,
    named?_of_node? (node?_setContent content hnode fun _ _ h => by cases h)]

/-! #### Names that come and go -/

/-- What a walk does not go through. -/
def IsEnd (fs : FileSystem) (d : Inode) (name : String) : Prop :=
  ∀ j, fs.named? d name = some j → ∃ bytes, fs.content? j = some bytes

theorem IsEnd.isPlain (h : fs.IsEnd d name) : fs.IsPlain d name := by
  intro j target hentry hlink
  obtain ⟨bytes, hbytes⟩ := h j hentry
  exact (not_isDirectoryNode_of_content? hbytes).2 target hlink

theorem IsEnd.setContent (h : fs.IsEnd d name) (hd : fs.isDirectoryNode d = true) (content : Bytes) :
    (fs.setContent i content).IsEnd d name := by
  intro j hj
  rw [named?_setContent content hd] at hj
  obtain ⟨bytes, hbytes⟩ := h j hj
  by_cases hne : i = j
  · exact ⟨content, hne ▸ content?_setContent (hne ▸ hbytes) content⟩
  · exact ⟨bytes, by rw [content?_setContent_of_ne fs hne, hbytes]⟩

/-- A file gets a name, and whatever had it before loses it. -/
theorem passes_named (h : fs.IsEnd d name) (new : List (String × Inode)) :
    fs.Passes (fs.modifyEntries d fun entries => entries.filter (·.1 != name) ++ new) := by
  refine passes_modifyEntries fun entries name' j hentries hentry hpassed => ?_
  have hne : name' ≠ name := by
    rintro rfl
    obtain ⟨bytes, hbytes⟩ := h j hentry
    obtain ⟨hdirectory, hlink⟩ := not_isDirectoryNode_of_content? hbytes
    rcases hpassed with hpassed | ⟨target, hpassed⟩
    · rw [hdirectory] at hpassed
      cases hpassed
    · exact hlink target hpassed
  rw [List.lookup_append, lookup_filter, if_neg hne, ← hentries, hentry]
  rfl

theorem named?_named (h : fs.isDirectoryNode d = true) (new : List (String × Inode)) :
    (fs.modifyEntries d fun entries => entries.filter (·.1 != name) ++ new).named? d name' =
      (if name' = name then none else fs.named? d name').or (new.lookup name') := by
  obtain ⟨parent, entries, hnode⟩ := exists_node?_of_isDirectoryNode h
  rw [named?_of_node? (node?_modifyEntries _ hnode), List.lookup_append, lookup_filter,
    named?_of_node? hnode]

/-- **A new file** under a name. What there was already stays. -/
theorem exists_add_file (hd : fs.isDirectoryNode d = true) (name : String) (bytes : Bytes) :
    ∃ i fs₁, fs.add d name (.file bytes false) = (i, fs₁) ∧ fs.Passes fs₁ ∧
      fs₁.content? i = some bytes ∧
      (∀ name', fs₁.named? d name' =
        (fs.named? d name').or (if name' = name then some i else none)) ∧
      ∀ j old, fs.content? j = some old → i ≠ j ∧ fs₁.content? j = some old := by
  obtain ⟨parent, entries, hnode⟩ := exists_node?_of_isDirectoryNode hd
  have hpushed := node?_push (.file bytes false) hnode
  refine ⟨_, _, rfl, (passes_push _).trans (passes_modifyEntries ?_), ?_, fun name' => ?_, ?_⟩
  · intro entries' name' j hentries hentry _
    rw [List.lookup_append, ← hentries, hentry]
    rfl
  · rw [content?_modifyEntries, content?, node?]
    simp
  · rw [named?_of_node? (node?_modifyEntries _ hpushed), named?_of_node? hnode, List.lookup_append,
      List.lookup_cons]
    congr 1
    split <;> simp_all
  · intro j old hold
    have hthere : ∃ x, fs.node? j = some (.file old x) := by
      rw [content?] at hold
      split at hold
      · next hnode =>
        cases hold
        exact ⟨_, hnode⟩
      · cases hold
    obtain ⟨x, hthere⟩ := hthere
    refine ⟨?_, ?_⟩
    · rintro rfl
      rw [node?, Array.getElem?_size] at hthere
      cases hthere
    · rw [content?_modifyEntries, content?, node?_push _ hthere]

/-- **A file that is renamed** within its directory, in the place of another file or of nothing. -/
theorem exists_rename {source target : String} {left left' : Nat} {bytes : Bytes}
    (htarget : fs.Ends cwd target left d name) (hsource : fs.Ends cwd source left' d name')
    (hne : name' ≠ name) (hentry : fs.named? d name' = some i) (hcontent : fs.content? i = some bytes)
    (hend : fs.IsEnd d name) : ∃ fs', fs.rename cwd source target = .ok fs' ∧ fs.Passes fs' ∧
      fs'.named? d name = some i ∧ fs'.content? i = some bytes ∧ fs'.named? d name' = none := by
  have hend' : fs.IsEnd d name' := by
    intro j hj
    obtain rfl : i = j := Option.some.inj (hentry.symm.trans hj)
    exact ⟨bytes, hcontent⟩
  have hlookup : fs.lookup cwd false source = .ok i := by
    rw [lookup, if_neg Bool.false_ne_true, hsource.find_plain hend'.isPlain, hentry]
    rfl
  -- the file first loses the name it has
  have hpasses₁ := passes_named hend' []
  have hnamed₁ : ∀ name'', (fs.modifyEntries d fun entries =>
      entries.filter (·.1 != name') ++ []).named? d name'' =
      if name'' = name' then none else fs.named? d name'' := by
    intro name''
    rw [named?_named htarget.directory, List.lookup_nil, Option.or_none]
  have hremove : fs.remove cwd source =
      .ok (fs.modifyEntries d fun entries => entries.filter (·.1 != name') ++ []) := by
    rw [remove, hlookup, hsource.holder]
    simp only [List.append_nil]
    rfl
  have hcontent₁ : ∀ j, (fs.modifyEntries d fun entries =>
      entries.filter (·.1 != name') ++ []).content? j = fs.content? j := fun _ =>
    content?_modifyEntries _
  generalize (fs.modifyEntries d fun entries => entries.filter (·.1 != name') ++ []) = fs₁ at *
  have hend₁ : fs₁.IsEnd d name := by
    intro j hj
    rw [hnamed₁, if_neg hne.symm] at hj
    rw [hcontent₁]
    exact hend j hj
  -- and then gets the one that it is to have
  have hd₁ := hpasses₁.isDirectoryNode htarget.directory
  refine ⟨fs₁.modifyEntries d fun entries => entries.filter (·.1 != name) ++ [(name, i)], ?_,
    hpasses₁.trans (passes_named hend₁ _), ?_, ?_, ?_⟩
  · have hfile : ∀ j, fs.named? d name = some j → fs.isDirectoryNode j = false := by
      intro j hj
      obtain ⟨old, hold⟩ := hend j hj
      exact (not_isDirectoryNode_of_content? hold).1
    rw [rename, hlookup, htarget.find_plain hend.isPlain, htarget.holder, hremove]
    cases hthere : fs.named? d name with
    | none => rfl
    | some j =>
      exact if_neg (Bool.eq_false_iff.1 (hfile j hthere))
  · rw [named?_named hd₁, if_pos rfl]
    simp
  · rw [content?_modifyEntries, hcontent₁, hcontent]
  · rw [named?_named hd₁, if_neg hne, hnamed₁, if_pos rfl]
    simp [hne]

/-! ### Where a path's bytes are -/

/-- A path's bytes are under a name of a directory: the path ends there itself, or it ends in a link
with an absolute text, and this ends there. -/
inductive Home (fs : FileSystem) (cwd : Path) : String → String → Inode → String → Prop
  | itself {path : String} {left : Nat} {d : Inode} {name : String} :
    fs.Ends cwd path left d name → Home fs cwd path path d name
  | linked {path place : String} {links left left' : Nat} {d₀ d j : Inode} {name₀ name : String}
      {front : List String} : fs.Ends cwd path (links + 1) d₀ name₀ → fs.named? d₀ name₀ = some j →
    fs.node? j = some (.link place) → Path.startsAtRoot place = true →
    steps place.toList = front ++ [name] → fs.Descends links root front left d →
    fs.Ends cwd place left' d name → Home fs cwd path place d name

namespace Home

variable (h : fs.Home cwd path place d name)

include h

/-- The place of a path ends in its name. -/
theorem ends : ∃ left, fs.Ends cwd place left d name := by
  cases h with
  | itself hends => exact ⟨_, hends⟩
  | linked _ _ _ _ _ _ hends => exact ⟨_, hends⟩

theorem passes (hpasses : fs.Passes fs') : fs'.Home cwd path place d name := by
  cases h with
  | itself hends => exact .itself (hends.passes hpasses)
  | linked hends hentry hlink hroot hsteps hdescends hends' =>
    obtain ⟨parent, entries, hnode⟩ := exists_node?_of_isDirectoryNode hends.directory
    obtain ⟨entries', hnode', hkept⟩ := hpasses.directory hnode
    rw [named?_of_node? hnode] at hentry
    refine .linked (hends.passes hpasses) ?_ (hpasses.link hlink) hroot hsteps
      (hdescends.passes hends'.directory hpasses) (hends'.passes hpasses)
    rw [named?_of_node? hnode']
    exact hkept hentry (.inr ⟨_, hlink⟩)

/-- What is found under a path is up to the name of its home. -/
theorem find (hplain : fs.IsPlain d name) {ending : Ending} (hending : ending ≠ .kept) :
    fs.find cwd ending path = .ok ((fs.named? d name).elim (.absent d name) .found) := by
  cases h with
  | itself hends => exact hends.find_plain hplain ending
  | linked hends hentry hlink hroot hsteps hdescends hends' =>
    have hname := hends'.ordinary
    rw [hends.find,
      (walk_link hends.directory hends.ordinary hends.fits hentry hlink).2.2 _ _ hending, hroot,
      if_pos rfl, hsteps, hdescends.walk_concat hname.1,
      walk_name hends'.directory hname hends'.fits hplain]

/-- A path is replaced in its home. -/
theorem linkText? (hplain : fs.IsPlain d name) : (fs.linkText? cwd path).getD path = place := by
  rw [FileSystem.linkText?, lookup]
  cases h with
  | itself hends =>
    rw [if_neg Bool.false_ne_true, hends.find_plain hplain]
    cases hentry : fs.named? d name with
    | none => rfl
    | some j =>
      dsimp only [Option.elim]
      split
      · next target hlink => exact absurd hlink (hplain j target hentry)
      · rfl
  | linked hends hentry hlink =>
    rw [if_neg Bool.false_ne_true, hends.find,
      (walk_link hends.directory hends.ordinary hends.fits hentry hlink).1]
    dsimp only
    rw [hlink]
    rfl

end Home

/-! ### Saving over and over -/

/-- A path's bytes are kept in its home, if there are any, and nothing stands beside that. -/
structure Stored (fs : FileSystem) (cwd : Path) (path place : String) (d : Inode) (name : String)
    (content : Option Bytes) : Prop where
  home : fs.Home cwd path place d name
  beside : ∃ left, fs.Ends cwd (place ++ besideEnding) left d (name ++ besideEnding)
  free : fs.named? d (name ++ besideEnding) = none
  isEnd : fs.IsEnd d name
  content : (fs.named? d name).bind fs.content? = content

theorem beside_ne (name : String) : name ++ besideEnding ≠ name := by
  intro h
  have hlength := congrArg (fun s : String => s.toList.length) h
  simp [besideEnding] at hlength

namespace Stored

variable (h : fs.Stored cwd path place d name content)

include h

/-- A change after which the name stands for a file, and nothing has come beside it. -/
theorem changed {bytes : Bytes} (hpasses : fs.Passes fs') (hentry : fs'.named? d name = some i)
    (hcontent : fs'.content? i = some bytes) (hfree : fs'.named? d (name ++ besideEnding) = none) :
    fs'.Stored cwd path place d name (some bytes) where
  home := h.home.passes hpasses
  beside := by
    obtain ⟨left, hbeside⟩ := h.beside
    exact ⟨left, hbeside.passes hpasses⟩
  free := hfree
  isEnd := by
    intro j hj
    obtain rfl : i = j := Option.some.inj (hentry.symm.trans hj)
    exact ⟨bytes, hcontent⟩
  content := by rw [hentry, Option.bind_some, hcontent]

/-- **The bytes** that a path leads to. -/
theorem fileBytes? : fs.fileBytes? cwd path = content := by
  rw [FileSystem.fileBytes?, lookup, if_pos rfl, h.home.find h.isEnd.isPlain (by decide),
    ← h.content]
  cases fs.named? d name <;> rfl

/-- What is not there yet has no name. -/
theorem named?_eq_none (hnone : content = none) : fs.named? d name = none := by
  cases hentry : fs.named? d name with
  | none => rfl
  | some j =>
    obtain ⟨bytes, hbytes⟩ := h.isEnd j hentry
    have hcontent := h.content
    rw [hentry, Option.bind_some, hbytes, hnone] at hcontent
    cases hcontent

/-- Whether there is anything at all where a path leads. -/
theorem lookup_eq : (∃ i bytes, content = some bytes ∧ fs.lookup cwd true path = .ok i ∧
      fs.content? i = some bytes) ∨ content = none ∧ fs.contains cwd path = false := by
  have hfind : fs.find cwd .followed path = _ := h.home.find h.isEnd.isPlain (by decide)
  cases hnone : content with
  | none =>
    refine .inr ⟨rfl, ?_⟩
    rw [h.named?_eq_none hnone] at hfind
    rw [contains, lookup, if_pos rfl, hfind]
    rfl
  | some bytes =>
    have hbytes := h.fileBytes?
    rw [FileSystem.fileBytes?] at hbytes
    split at hbytes
    · cases hbytes.trans hnone
    · next i hlookup => exact .inl ⟨i, bytes, rfl, hlookup, hbytes.trans hnone⟩

/-- What a new file is written to, beside the place of the path. -/
theorem openWriting_beside : ∃ i fs₁,
    fs.openWriting cwd (place ++ besideEnding) false = .ok (i, fs₁) ∧ fs.Passes fs₁ ∧
      fs₁.content? i = some [] ∧ fs₁.named? d (name ++ besideEnding) = some i ∧
      fs₁.IsEnd d name := by
  obtain ⟨left, hbeside⟩ := h.beside
  have hfree := h.free
  have hplain : fs.IsPlain d (name ++ besideEnding) := by
    intro j target hentry
    rw [hfree] at hentry
    cases hentry
  obtain ⟨i, fs₁, hadd, hpasses, hcontent, hnamed, hold⟩ :=
    exists_add_file hbeside.directory (name ++ besideEnding) []
  refine ⟨i, fs₁, ?_, hpasses, hcontent, ?_, ?_⟩
  · rw [openWriting, hbeside.find_plain hplain, hfree]
    exact congrArg Except.ok hadd
  · rw [hnamed, hfree, if_pos rfl]
    rfl
  · intro j hj
    rw [hnamed, if_neg (beside_ne name).symm, Option.or_none] at hj
    obtain ⟨bytes, hbytes⟩ := h.isEnd j hj
    exact ⟨bytes, (hold j bytes hbytes).2⟩

/-- **Replacing** the file that a path leads to. -/
theorem replaceFile (bytes : Bytes) : ∃ fs', fs.replaceFile cwd path bytes = .ok fs' ∧
    fs'.Stored cwd path place d name (some bytes) := by
  obtain ⟨i, fs₁, hopen, hpasses₁, hcontent₁, hbeside₁, hend₁⟩ := h.openWriting_beside
  obtain ⟨_, hends⟩ := h.home.ends
  obtain ⟨_, hends'⟩ := h.beside
  have hd₁ := hpasses₁.isDirectoryNode hends.directory
  -- the new file gets its bytes before it takes its place
  have hpasses₂ : fs.Passes (fs₁.setContent i bytes) := hpasses₁.trans (passes_setContent bytes)
  have hbeside₂ : (fs₁.setContent i bytes).named? d (name ++ besideEnding) = some i := by
    rw [named?_setContent bytes hd₁, hbeside₁]
  obtain ⟨fs', hrename, hpasses', hname, hcontent', hfree⟩ := exists_rename (hends.passes hpasses₂)
    (hends'.passes hpasses₂) (beside_ne name) hbeside₂ (content?_setContent hcontent₁ bytes)
    (hend₁.setContent hd₁ bytes)
  refine ⟨fs', ?_, h.changed (hpasses₂.trans hpasses') hname hcontent' hfree⟩
  rw [FileSystem.replaceFile, h.home.linkText? h.isEnd.isPlain]
  simp only [hopen]
  exact hrename

/-- **Saving** what a path leads to. -/
theorem saveFile (bytes : Bytes) : ∃ fs', fs.saveFile cwd path bytes = .ok fs' ∧
    fs'.Stored cwd path place d name (some bytes) := by
  rw [FileSystem.saveFile, h.fileBytes?]
  cases hcontent : content with
  | some old => exact h.replaceFile bytes
  | none =>
    -- the name is free, and a new file is made there
    obtain ⟨_, hends⟩ := h.home.ends
    have hfree := h.named?_eq_none hcontent
    obtain ⟨i, fs₁, hadd, hpasses, hempty, hnamed, -⟩ := exists_add_file hends.directory name []
    have hopen : fs.openWriting cwd path false = .ok (i, fs₁) := by
      rw [openWriting, h.home.find h.isEnd.isPlain (by decide), hfree]
      exact congrArg Except.ok hadd
    have hdevice : fs₁.node? i ≠ some (.device .full) := by
      intro hnode
      rw [content?, hnode] at hempty
      cases hempty
    have hd₁ := hpasses.isDirectoryNode hends.directory
    refine ⟨fs₁.setContent i bytes, ?_, h.changed (hpasses.trans (passes_setContent bytes)) ?_
      (content?_setContent hempty bytes) ?_⟩
    · simp only [Option.isSome_none, Bool.false_eq_true, if_false, hopen]
      exact if_neg hdevice
    · rw [named?_setContent bytes hd₁, hnamed, hfree, if_pos rfl]
      rfl
    · rw [named?_setContent bytes hd₁, hnamed, h.free, if_neg (beside_ne name)]
      rfl

end Stored

/-! ### What it takes -/

/-- A path can be saved to over and over: all but its last name is there, and it leads to a file, or
to nothing yet. If it is a link, then its text is absolute and no further link. Nothing stands beside
the place that is saved to, and what is above a directory is a directory. -/
structure Savable (fs : FileSystem) (cwd : Path) (path : String) (content : Option Bytes) : Prop where
  leads : ∃ spot, fs.find cwd .followed path = .ok spot
  bytes : fs.fileBytes? cwd path = content
  file : content = none → fs.contains cwd path = false
  link : ∀ target, fs.linkText? cwd path = some target →
    Path.startsAtRoot target = true ∧ fs.linkText? cwd target = none
  free : ∃ d name, fs.find cwd .kept ((fs.linkText? cwd path).getD path ++ besideEnding) =
    .ok (.absent d name)
  upwards : ∀ i parent entries, fs.node? i = some (.directory parent entries) →
    fs.isDirectoryNode parent = true

namespace Savable

variable (h : fs.Savable cwd path content)

include h

/-- What such a path leads to is a file. -/
theorem exists_content {j : Inode} (hfind : fs.find cwd .followed path = .ok (.found j)) :
    ∃ bytes, fs.content? j = some bytes := by
  have hlookup : fs.lookup cwd true path = .ok j := by rw [lookup, if_pos rfl, hfind]
  have hcontent := h.bytes
  rw [fileBytes?, hlookup] at hcontent
  cases hnone : content with
  | some bytes => exact ⟨bytes, hcontent.trans hnone⟩
  | none =>
    have habsent := h.file hnone
    rw [contains, hlookup] at habsent
    cases habsent

/-- A walk to a file, or to nothing, is one down to a directory and on to a proper name. -/
theorem ends_of_walk {base : List String} {cs : List Char} {links : Nat} {spot : Spot} (hcs : cs ≠ [])
    (hwalk : fs.walk .followed links i (base ++ steps cs) = .ok spot)
    (hspot : ∀ j, spot = .found j → fs.isDirectoryNode j = false) :
    ∃ front left d name, steps cs = front ++ [name] ∧ fs.Descends links i (base ++ front) left d ∧
      fs.isDirectoryNode d = true ∧ Ordinary name ∧ name.utf8ByteSize ≤ maxName ∧
      fs.walk .followed left d [name] = .ok spot := by
  have hsteps := (List.dropLast_concat_getLast (steps_ne_nil hcs)).symm
  generalize (steps cs).dropLast = front, (steps cs).getLast _ = name at hsteps
  rw [hsteps, ← List.append_assoc] at hwalk
  obtain ⟨left, d, hdescends, hd⟩ := descends_of_walk hwalk
  rw [hdescends.walk_append (.inl rfl)] at hwalk
  -- dots and slashes lead to directories
  have hordinary : Ordinary name := by
    obtain ⟨parent, entries, hnode⟩ := exists_node?_of_isDirectoryNode hd
    have hproper : ∀ j, fs.isDirectoryNode j = true → fs.walk .followed left d [name] ≠
        .ok (.found j) := by
      intro j hj hfound
      rw [hfound] at hwalk
      rw [hspot j (Except.ok.inj hwalk).symm] at hj
      cases hj
    refine ⟨?_, ?_, ?_⟩
    · rintro rfl
      exact hproper d hd (by simp [walk, hnode])
    · rintro rfl
      exact hproper d hd (by simp [walk, hnode])
    · rintro rfl
      exact hproper parent (h.upwards d parent entries hnode) (by simp [walk, hnode])
  exact ⟨front, left, d, name, hsteps, hdescends, hd, hordinary, fits_of_walk hordinary hwalk, hwalk⟩

/-- Where such a path is saved to, if what it names there is no link. -/
theorem stored_of_home (hhome : fs.Home cwd path place d name) (hplain : fs.IsPlain d name) :
    fs.Stored cwd path place d name content := by
  obtain ⟨left, hends⟩ := hhome.ends
  obtain ⟨d', name', hbeside⟩ := h.free
  rw [hhome.linkText? hplain] at hbeside
  obtain ⟨hends', hfree⟩ := hends.beside hbeside
  have hfind : fs.find cwd .followed path = _ := hhome.find hplain (by decide)
  refine ⟨hhome, ⟨left, hends'⟩, hfree, fun j hj => h.exists_content ?_, ?_⟩
  · rw [hfind, hj]
    rfl
  · rw [← h.bytes, fileBytes?, lookup, if_pos rfl, hfind]
    cases fs.named? d name <;> rfl

/-- **A path that can be saved to** has a home, and its bytes are kept there. -/
theorem stored : ∃ place d name, fs.Stored cwd path place d name content := by
  obtain ⟨spot, hfind⟩ := h.leads
  have hspot : ∀ j, spot = .found j → fs.isDirectoryNode j = false := by
    rintro j rfl
    obtain ⟨bytes, hbytes⟩ := h.exists_content hfind
    exact (not_isDirectoryNode_of_content? hbytes).1
  -- the path ends in a name of a directory
  obtain ⟨hne, hshort, hwalk⟩ := walk_of_find hfind
  obtain ⟨front, left, d, name, hsteps, hdescends, hd, hname, hfits, hlast⟩ :=
    h.ends_of_walk hne hwalk hspot
  have hends : fs.Ends cwd path left d name := ⟨hshort, ⟨front, hsteps, hdescends⟩, hd, hname, hfits⟩
  by_cases hlink : ∃ j target, fs.named? d name = some j ∧ fs.node? j = some (.link target)
  · -- it is a link, and its text is where its bytes are
    obtain ⟨j, target, hentry, hlink⟩ := hlink
    obtain ⟨hkept, hnever, hfollowed⟩ := walk_link hd hname hfits hentry hlink
    have htext : fs.linkText? cwd path = some target := by
      rw [linkText?, lookup, if_neg Bool.false_ne_true, hends.find, hkept]
      dsimp only
      rw [hlink]
    obtain ⟨hroot, hlast'⟩ := h.link target htext
    obtain ⟨d', name', hfree⟩ := h.free
    rw [htext] at hfree
    have hshort' : target.utf8ByteSize < maxPath := by
      have hlong := (walk_of_find hfree).2.1
      rw [Option.getD_some, String.utf8ByteSize_append] at hlong
      omega
    obtain _ | links := left
    · rw [hnever] at hlast
      cases hlast
    rw [hfollowed _ _ (by decide), hroot, if_pos rfl, ← List.nil_append (steps _)] at hlast
    have hne' : target.toList ≠ [] := by
      intro hnil
      rw [Path.startsAtRoot, hnil] at hroot
      cases hroot
    obtain ⟨front', left', d', name', hsteps', hdescends', hd', hname', hfits', hlast⟩ :=
      h.ends_of_walk hne' hlast hspot
    -- from the root on, even more links could be followed
    have hends' : fs.Ends cwd target (left' + (maxLinks - links)) d' name' := by
      refine ⟨hshort', ⟨front', hsteps', ?_⟩, hd', hname', hfits'⟩
      have hmore := hdescends'.more (maxLinks - links)
      rwa [Nat.add_sub_cancel' (Nat.le_of_succ_le hdescends.left_le),
        ← show baseOf cwd target = [] from if_pos hroot] at hmore
    have hplain : fs.IsPlain d' name' := by
      intro j' target' hentry' hlink'
      rw [linkText?, lookup, if_neg Bool.false_ne_true, hends'.find,
        (walk_link hd' hname' hfits' hentry' hlink').1] at hlast'
      dsimp only at hlast'
      rw [hlink'] at hlast'
      cases hlast'
    exact ⟨target, d', name', h.stored_of_home
      (.linked hends hentry hlink hroot hsteps' hdescends' hends') hplain⟩
  · exact ⟨path, d, name, h.stored_of_home (.itself hends)
      fun j target hentry hnode => hlink ⟨j, target, hentry, hnode⟩⟩

end Savable

end LineShell.FileSystem
