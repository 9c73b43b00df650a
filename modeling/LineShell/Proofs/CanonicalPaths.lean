import LineShell.FileSystem.Canonical

namespace LineShell

/-!
# The shape of canonical paths

* `Path.Named` — names as a path that was read has them: none is empty, a single dot, or has a slash;
* `Path.IsPlain` — an absolute path with such names that has no `..` either;
* `Path.lexical_isPlain` — taking `..` literally makes a path plain;
* `FileSystem.resolveLinks_settles` — following links keeps a path absolute, with such names;
* `FileSystem.canonical_isPlain` — canonical paths are plain.
-/

namespace Path

/-- Names as a path that was read has them: none is empty or a single dot, and none has a slash. -/
def Named (names : List String) : Prop :=
  ∀ name ∈ names, isName name.toList = true ∧ '/' ∉ name.toList

/-- An absolute path without `.` and `..`. -/
structure IsPlain (p : Path) : Prop where
  absolute : p.isAbsolute = true
  named : Named p.names
  upwards : ".." ∉ p.names

variable {names names' : List String} {base p : Path}

theorem named_nil : Named [] := by simp [Named]

theorem Named.append (h : Named names) (h' : Named names') : Named (names ++ names') :=
  fun name hname => (List.mem_append.1 hname).elim (h name) (h' name)

theorem Named.dropLast (h : Named names) : Named names.dropLast :=
  fun name hname => h name (List.dropLast_subset _ hname)

/-- A part of a path that is a name and has no slash. -/
theorem Named.concat (h : Named names) {part : List Char} (hname : isName part = true)
    (hslash : '/' ∉ part) : Named (names ++ [String.ofList part]) := by
  refine h.append fun name hmem => ?_
  rw [List.mem_singleton.1 hmem, String.toList_ofList]
  exact ⟨hname, hslash⟩

/-! ### Reading and joining -/

theorem segments_eq_splitOn (cs : List Char) : segments cs = cs.splitOn '/' := by
  induction cs with
  | nil => rfl
  | cons c cs ih =>
    obtain ⟨first, rest, hsplit⟩ := List.exists_cons_of_ne_nil (List.splitOn_ne_nil '/' cs)
    rw [segments, List.splitOn_cons_eq_if_modifyHead, ih, hsplit]
    rfl

theorem slash_not_mem_of_segments {cs part : List Char} (h : part ∈ segments cs) :
    '/' ∉ part := by
  induction cs generalizing part with
  | nil =>
    rw [segments, List.mem_singleton] at h
    simp [h]
  | cons c cs ih =>
    rw [segments] at h
    split at h
    · rcases List.mem_cons.1 h with rfl | h
      · simp
      · exact ih h
    · rename_i hc
      have hslash : '/' ≠ c := by
        rintro rfl
        exact hc (by decide)
      -- the character goes to the first part, and the others stay as they are
      split at h
      · rw [List.mem_singleton.1 h]
        simpa using hslash
      · rename_i first rest hsegments
        rcases List.mem_cons.1 h with rfl | h
        · have hfirst : '/' ∉ first := ih (by rw [hsegments]; exact .head _)
          simp [hslash, hfirst]
        · exact ih (by rw [hsegments]; exact .tail _ h)

theorem named_namesOf (cs : List Char) : Named (namesOf cs) := by
  intro name hname
  obtain ⟨part, hpart, rfl⟩ := List.mem_map.1 hname
  obtain ⟨hsegment, hisName⟩ := List.mem_filter.1 hpart
  rw [String.toList_ofList]
  exact ⟨hisName, slash_not_mem_of_segments hsegment⟩

theorem named_join (hbase : Named base.names) (hp : Named p.names) :
    Named (base.join p).names := by
  unfold join
  split
  · exact hp
  · exact hbase.append hp

/-! ### Taking `..` literally -/

/-- An absolute path whose `..` are taken literally is plain. -/
theorem lexical_isPlain (habsolute : p.isAbsolute = true) (h : Named p.names) :
    p.lexical.IsPlain := by
  have hplain : Named p.lexical.names ∧ ".." ∉ p.lexical.names := by
    refine List.foldlRecOn (motive := fun names => Named names ∧ ".." ∉ names) p.names _
      ⟨named_nil, by simp⟩ ?_
    rintro done ⟨hdone, hup⟩ name hname
    -- a name is added at the end, or for a `..` one is taken away there
    by_cases hdots : name = ".."
    · subst hdots
      simp only [bne_self_eq_false, Bool.false_eq_true, if_false, habsolute, if_true]
      split
      · exact ⟨hdone, hup⟩
      · exact ⟨hdone.dropLast, fun hmem => hup (List.dropLast_subset _ hmem)⟩
    · rw [if_pos (by simpa using hdots)]
      refine ⟨hdone.append fun n hn => ?_, by simpa [hup] using Ne.symm hdots⟩
      rw [List.mem_singleton.1 hn]
      exact h name hname
  exact ⟨habsolute, hplain.1, hplain.2⟩

end Path

namespace FileSystem

open LineShell.Path (Named)

variable {fs : FileSystem} {path : Path}

/-- Whatever is appended to a path, its names stay such as a path has them. -/
theorem named_append (h : Named path.names) (parts : List (List Char)) :
    Named (append path parts).names :=
  Path.named_join h (Path.named_namesOf _)

/-- The links that were resolved have led to names such as a path has them. -/
def Seen.Named (seen : Seen) : Prop :=
  ∀ names known, seen.lookup names = some (some known) → Path.Named known

theorem Seen.Named.cons {seen : Seen} (h : seen.Named) (names : List String)
    {known : Option (List String)} (hknown : ∀ ns ∈ known, Path.Named ns) :
    Seen.Named ((names, known) :: seen) := by
  intro other ns hlookup
  rw [List.lookup_cons] at hlookup
  split at hlookup
  · cases hlookup
    exact hknown ns rfl
  · exact h other ns hlookup

/-- A path that was resolved is absolute, and its names are such as a path has them. -/
structure Settles (r : Resolved × Seen) : Prop where
  absolute : r.1.path.isAbsolute = true
  named : Named r.1.path.names
  seen : r.2.Named

/-- What is not resolved any more is appended as it stands. -/
theorem settles_append {complete : Bool} {seen : Seen}
    (habsolute : path.isAbsolute = true) (hnames : Named path.names)
    (parts : List (List Char)) (hseen : seen.Named) :
    Settles (⟨append path parts, complete⟩, seen) :=
  ⟨Path.isAbsolute_join habsolute, named_append hnames parts, hseen⟩

/-- **Following links** keeps a path absolute and its names such as a path has them. -/
theorem resolveLinks_settles (fs : FileSystem) (fuel : Nat) (names : List String)
    (parts : List (List Char)) (seen : Seen) (hnames : Named names)
    (hparts : ∀ part ∈ parts, '/' ∉ part) (hseen : seen.Named) :
    Settles (fs.resolveLinks fuel names parts seen) := by
  -- the names before a part, with that part as a name behind them
  have hnext : ∀ {names : List String} {part : List Char} {parts : List (List Char)},
      Named names → (∀ p ∈ part :: parts, '/' ∉ p) → ¬ (!Path.isName part) = true →
        Named (names ++ [String.ofList part]) :=
    fun hnames hparts hname => hnames.concat (by simpa using hname) (hparts _ (.head _))
  have hrest : ∀ {part : List Char} {parts : List (List Char)},
      (∀ p ∈ part :: parts, '/' ∉ p) → ∀ p ∈ parts, '/' ∉ p :=
    fun hparts p hp => hparts p (.tail _ hp)
  have hstart : ∀ {names : List String} (b : Bool), Named names → Named (if b then [] else names) := by
    intro names b hnames
    cases b with
    | true => exact Path.named_nil
    | false => exact hnames
  fun_induction resolveLinks fs fuel names parts seen with
  | case1 => exact ⟨rfl, hnames, hseen⟩
  | case2 _ _ _ _ _ _ ih => exact ih hnames (hrest hparts) hseen
  | case3 _ _ _ _ _ ih => exact ih hnames.dropLast (hrest hparts) hseen
  | case4 _ _ _ _ _ hname _ _ _ ih => exact ih (hnext hnames hparts hname) (hrest hparts) hseen
  | case5 _ _ _ _ _ _ _ _ _ known _ hlookup ih =>
    exact ih (hseen _ known hlookup) (hrest hparts) hseen
  | case6 _ _ _ _ _ hname =>
    exact settles_append rfl (hnext hnames hparts hname) _ hseen
  | case7 _ _ _ _ hname =>
    exact settles_append rfl (hnext hnames hparts hname) _ hseen
  | case8 _ _ _ _ _ _ _ target _ _ _ start inner seen' hinner _ ih ih' =>
    have hsettles := ih (hstart _ hnames) (fun _ => Path.slash_not_mem_of_segments)
      (hseen.cons _ nofun)
    rw [hinner] at hsettles
    refine ih' hsettles.named (hrest hparts) (hsettles.seen.cons _ ?_)
    rintro _ ⟨⟩
    exact hsettles.named
  | case9 _ _ _ _ _ _ _ target _ _ _ start inner seen' hinner _ ih =>
    have hsettles := ih (hstart _ hnames) (fun _ => Path.slash_not_mem_of_segments)
      (hseen.cons _ nofun)
    rw [hinner] at hsettles
    exact settles_append hsettles.absolute hsettles.named _ hsettles.seen

/-- Where the resolved path leads to something, it is the canonical path. -/
theorem canonical_of_lookup {q r : Path} {i : Inode}
    (hresolved : (fs.resolveLinks fs.nodes.size [] (path.names.map String.toList) []).1.path = r)
    (hq : r.lexical = q) (hlookup : fs.lookup ⟨.root, []⟩ true q.toString = .ok i) :
    fs.canonical path = .ok q := by
  simp only [canonical, hresolved, hq, hlookup]

/-- **Canonical paths** are plain. -/
theorem canonical_isPlain {q : Path} (hnames : Named path.names)
    (h : fs.canonical path = .ok q) : q.IsPlain := by
  have hparts : ∀ part ∈ path.names.map String.toList, '/' ∉ part := by
    intro part hpart
    obtain ⟨name, hname, rfl⟩ := List.mem_map.1 hpart
    exact (hnames name hname).2
  have hsettles := resolveLinks_settles fs fs.nodes.size [] (path.names.map String.toList) []
    Path.named_nil hparts (fun _ _ => nofun)
  have hplain := Path.lexical_isPlain hsettles.absolute hsettles.named
  -- whatever looking there comes to, the answer is the resolved path if there is one
  simp only [canonical] at h
  split at h
  · split at h
    · cases h
    · cases h
      exact hplain
  · cases h
    exact hplain

end FileSystem

end LineShell
