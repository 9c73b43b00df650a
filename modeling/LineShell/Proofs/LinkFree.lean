import LineShell.Proofs.CanonicalPaths

namespace LineShell

/-!
# Paths without links

What following all links of a path comes to.

* `FileSystem.steps_named`, `FileSystem.find_named` — the system walks the names of a path one by one;
* `FileSystem.Leads` — names lead through directories, with no link on the way;
* `FileSystem.Walked`, `FileSystem.walk_clear` — so they do if no first part of them is a link;
* `FileSystem.resolveLinks_clear` — and that is so of what links were followed to;
* `FileSystem.canonical_direct` — a canonical path that leads to a directory does so directly, unless
  a link leads back to itself;
* `FileSystem.canonical_tooLong`, `FileSystem.isDirectory_tooLong` — a name that is too long has a
  canonical path, and is refused when a directory is looked for there;
* `FileSystem.lookup_of_isDirectory_error` — all that can go wrong on the way.
-/

namespace Path

variable {part cs : List Char} {names pre : List String}

/-! ### The text of some names -/

theorem segments_of_slash_not_mem (h : '/' ∉ part) : segments part = [part] := by
  rw [segments_eq_splitOn, List.splitOn_eq_singleton h]

/-- The text of some names, with slashes between them. -/
theorem intercalate_cons (name next : String) (rest : List String) :
    ("/".intercalate (name :: next :: rest)).toList =
      name.toList ++ '/' :: ("/".intercalate (next :: rest)).toList := by
  rw [String.intercalate_cons_cons, String.toList_append, String.toList_append, List.append_assoc]
  rfl

theorem segments_intercalate (h : Named names) (hne : names ≠ []) :
    segments ("/".intercalate names).toList = names.map String.toList := by
  have hslash : ∀ part ∈ names.map String.toList, '/' ∉ part := by
    intro part hpart
    obtain ⟨name, hname, rfl⟩ := List.mem_map.1 hpart
    exact (h name hname).2
  rw [segments_eq_splitOn, String.toList_intercalate]
  exact List.splitOn_intercalate '/' hslash (by simpa using hne)

/-- The text of some names does not end with a slash. -/
theorem getLast?_intercalate (h : Named names) (hne : names ≠ []) :
    ∃ c, ("/".intercalate names).toList.getLast? = some c ∧ c ≠ '/' := by
  induction names with
  | nil => exact absurd rfl hne
  | cons name rest ih =>
    cases rest with
    | nil =>
      obtain ⟨hname, hslash⟩ := h name (.head _)
      have hletters : name.toList ≠ [] := by
        rintro hnil
        rw [hnil] at hname
        cases hname
      rw [String.intercalate_singleton, List.getLast?_eq_some_getLast hletters]
      exact ⟨_, rfl, fun hlast => hslash (hlast ▸ List.getLast_mem hletters)⟩
    | cons next rest =>
      obtain ⟨c, hc, hne⟩ := ih (fun n hn => h n (.tail _ hn)) (List.cons_ne_nil _ _)
      refine ⟨c, ?_, hne⟩
      rw [intercalate_cons, List.getLast?_append, List.getLast?_cons, hc]
      rfl

/-- First parts of some names have no longer text. -/
theorem utf8ByteSize_intercalate_le (h : pre <+: names) :
    ("/".intercalate pre).utf8ByteSize ≤ ("/".intercalate names).utf8ByteSize := by
  induction pre generalizing names with
  | nil => simp
  | cons name pre ih =>
    obtain ⟨rest, rfl⟩ := h
    cases pre with
    | nil =>
      cases rest with
      | nil => exact Nat.le_refl _
      | cons next rest =>
        simp only [List.cons_append, List.nil_append, String.intercalate_singleton,
          String.intercalate_cons_cons, String.utf8ByteSize_append]
        omega
    | cons next pre =>
      have hle := ih ⟨rest, rfl⟩
      simp only [List.cons_append, String.intercalate_cons_cons, String.utf8ByteSize_append] at hle ⊢
      omega

end Path

namespace FileSystem

open LineShell.Path (Named)

variable {fs : FileSystem} {names pre : List String} {links : Nat} {ending : Ending} {i j k : Inode}

/-! ### What the system walks -/

/-- The text of an absolute path from its names. -/
def rooted (names : List String) : String := "/" ++ "/".intercalate names

theorem steps_named (h : Named names) (hne : names ≠ []) : steps (rooted names).toList = names := by
  obtain ⟨c, hlast, hc⟩ := Path.getLast?_intercalate h hne
  have htext : (rooted names).toList = '/' :: ("/".intercalate names).toList := by
    rw [rooted, String.toList_append]
    rfl
  have hsegments : (Path.segments (rooted names).toList).filter (· != []) =
      names.map String.toList := by
    rw [htext, show Path.segments ('/' :: _) = [] :: Path.segments _ from rfl,
      Path.segments_intercalate h hne, List.filter_cons_of_neg (by simp)]
    refine List.filter_eq_self.2 fun part hpart => ?_
    obtain ⟨name, hname, rfl⟩ := List.mem_map.1 hpart
    have hisName := (h name hname).1
    rw [Path.isName, Bool.and_eq_true] at hisName
    exact hisName.1
  have hend : ¬ (rooted names).toList.getLast? = some '/' := by
    rw [htext, List.getLast?_cons, hlast]
    simpa using hc
  rw [steps, hsegments, if_neg hend, List.append_nil, List.map_map]
  simp

/-- The system walks the names of an absolute path from the root on, if it is not too long. -/
theorem find_named (h : Named names) (hne : names ≠ []) (cwd : Path) :
    fs.find cwd ending (rooted names) =
      if maxPath ≤ (rooted names).utf8ByteSize then .error Fault.nameTooLong
      else fs.walk ending maxLinks root names := by
  have hempty : (rooted names).isEmpty = false := by
    simp [rooted]
  have hroot : Path.startsAtRoot (rooted names) = true := by
    simp [rooted, Path.startsAtRoot]
  simp only [find, hempty, hroot, steps_named h hne, Bool.false_eq_true, if_false, if_true]

/-- The path of the root leads there, if it is a directory. -/
theorem find_slash (cwd : Path) : fs.find cwd ending "/" =
    if fs.isDirectoryNode root then .ok (.found root) else .error Fault.notDirectory := by
  have hsteps : steps "/".toList = [""] := by decide
  rw [find, if_neg (by decide), if_neg (by decide), hsteps, isDirectoryNode]
  simp only [show Path.startsAtRoot "/" = true by decide, if_true]
  rw [walk]
  split <;> simp_all

/-- Names lead from a node to another one through directories, and none of them is a link. -/
inductive Leads (fs : FileSystem) : Inode → List String → Inode → Prop
  | nil (i : Inode) : Leads fs i [] i
  | cons {i j k parent : Inode} {entries : List (String × Inode)} {name : String}
      {names : List String} : fs.node? i = some (.directory parent entries) →
    entries.lookup name = some j → (∀ target, fs.node? j ≠ some (.link target)) →
    Leads fs j names k → Leads fs i (name :: names) k

/-- A name that means itself. -/
def Ordinary (name : String) : Prop := name ≠ "" ∧ name ≠ "." ∧ name ≠ ".."

/-- A walk goes on behind a name that is no link. -/
theorem walk_cons {parent : Inode} {entries : List (String × Inode)} {name : String}
    (hname : Ordinary name) (hnode : fs.node? i = some (.directory parent entries))
    (hentry : entries.lookup name = some j) (hlink : ∀ target, fs.node? j ≠ some (.link target))
    (hshort : ¬ maxName < name.utf8ByteSize) (hending : ending ≠ .written) :
    fs.walk ending links i (name :: names) = fs.walk ending links j names := by
  obtain ⟨h₁, h₂, h₃⟩ := hname
  rw [walk]
  simp only [hnode, h₁, h₂, h₃, hshort, hending, hentry, decide_false, Bool.or_false, Bool.false_and,
    Bool.false_eq_true, if_false]

/-- What a walk comes to that has met no link: what it has found is where the names lead, and if
something was too long then a name was. -/
structure Walked (fs : FileSystem) (i : Inode) (names : List String) (r : Except Nat Spot) : Prop where
  leads : ∀ k, r = .ok (.found k) → fs.Leads i names k
  tooLong : r = .error Fault.nameTooLong → ∃ name ∈ names, maxName < name.utf8ByteSize

theorem walked_absent {directory : Inode} {name : String} :
    fs.Walked i names (.ok (.absent directory name)) := ⟨nofun, nofun⟩

theorem walked_error {e : Nat} (he : e ≠ Fault.nameTooLong) : fs.Walked i names (.error e) :=
  ⟨nofun, fun h => absurd (Except.error.inj h) he⟩

theorem walked_tooLong {name : String} (hname : name ∈ names) (hlong : maxName < name.utf8ByteSize) :
    fs.Walked i names (.error Fault.nameTooLong) :=
  ⟨nofun, fun _ => ⟨name, hname, hlong⟩⟩

/-- **A walk without links** is one along names of which no first part is a link. -/
theorem walk_clear (hnames : ∀ name ∈ names, Ordinary name)
    (hclear : ∀ pre, pre ≠ [] → pre <+: names → ∀ j target,
      fs.walk .kept links i pre = .ok (.found j) → fs.node? j ≠ some (.link target)) :
    fs.Walked i names (fs.walk .followed links i names) := by
  induction names generalizing i with
  | nil =>
    rw [walk_nil]
    refine ⟨fun k hk => ?_, fun h => by cases h⟩
    cases hk
    exact .nil i
  | cons name names ih =>
    obtain ⟨hname, hrest⟩ := List.forall_mem_cons.1 hnames
    obtain ⟨h₁, h₂, h₃⟩ := hname
    rcases hnode : fs.node? i with _ | (_ | ⟨parent, entries⟩ | _ | _)
    case some.directory =>
      by_cases hlong : maxName < name.utf8ByteSize
      · have herror : fs.walk .followed links i (name :: names) = .error Fault.nameTooLong := by
          rw [walk]
          simp [hnode, h₁, h₂, h₃, hlong]
        rw [herror]
        exact walked_tooLong (.head _) hlong
      · rcases hentry : entries.lookup name with _ | j
        · -- the name is not there
          have hwalk : fs.walk .followed links i (name :: names) =
              if names.isEmpty then .ok (.absent i name) else .error Fault.noEntry := by
            rw [walk]
            simp [hnode, h₁, h₂, h₃, hlong, hentry]
          rw [hwalk]
          split
          · exact walked_absent
          · exact walked_error (by decide)
        · -- the name alone is a first part of the names, so it is no link
          have hlink : ∀ target, fs.node? j ≠ some (.link target) := by
            intro target htarget
            have hkept : fs.walk .kept links i [name] = .ok (.found j) := by
              rw [walk]
              simp [hnode, h₁, h₂, h₃, hlong, hentry, htarget]
            exact hclear [name] (List.cons_ne_nil _ _) ⟨names, rfl⟩ j target hkept htarget
          have hkept : ∀ pre, fs.walk .kept links i (name :: pre) = fs.walk .kept links j pre :=
            fun pre => walk_cons ⟨h₁, h₂, h₃⟩ hnode hentry hlink hlong (by decide)
          have hfollowed : fs.walk .followed links i (name :: names) =
              fs.walk .followed links j names :=
            walk_cons ⟨h₁, h₂, h₃⟩ hnode hentry hlink hlong (by decide)
          have hwalked := ih hrest fun pre hne hpre j' target hfound =>
            hclear (name :: pre) (List.cons_ne_nil _ _) (List.cons_prefix_cons.2 ⟨rfl, hpre⟩) j' target
              ((hkept pre).trans hfound)
          rw [hfollowed]
          refine ⟨fun k hk => .cons hnode hentry hlink (hwalked.leads k hk), fun herror => ?_⟩
          obtain ⟨n, hn, hsize⟩ := hwalked.tooLong herror
          exact ⟨n, .tail _ hn, hsize⟩
    all_goals
      have herror : fs.walk .followed links i (name :: names) = .error Fault.notDirectory := by
        rw [walk]
        simp [hnode]
      rw [herror]
      exact walked_error (by decide)

/-! ### What following links comes to -/

/-- No first part of some names is a link, and none of them leads upwards. -/
structure Clear (fs : FileSystem) (names : List String) : Prop where
  links : ∀ pre, pre <+: names → fs.linkAt? pre = none
  upwards : ".." ∉ names

/-- The root is no link. -/
theorem linkAt?_nil : fs.linkAt? [] = none := by
  rw [linkAt?, show "/" ++ "/".intercalate [] = "/" by decide, lookup, find_slash]
  by_cases hroot : fs.isDirectoryNode root = true
  · rw [if_pos hroot]
    rw [isDirectoryNode] at hroot
    rcases hnode : fs.node? root with _ | (_ | _ | _ | _) <;> simp_all
  · rw [if_neg hroot]

theorem clear_nil : fs.Clear [] := by
  refine ⟨fun pre hpre => ?_, by simp⟩
  rw [List.prefix_nil.1 hpre]
  exact linkAt?_nil

theorem Clear.dropLast (h : fs.Clear names) : fs.Clear names.dropLast :=
  ⟨fun pre hpre => h.links pre (hpre.trans (List.dropLast_prefix names)),
    fun hmem => h.upwards (List.dropLast_subset _ hmem)⟩

theorem Clear.concat (h : fs.Clear names) {part : List Char} (hdots : part ≠ ['.', '.'])
    (hlink : fs.linkAt? (names ++ [String.ofList part]) = none) :
    fs.Clear (names ++ [String.ofList part]) := by
  refine ⟨fun pre hpre => ?_, fun hmem => ?_⟩
  · rcases List.prefix_concat_iff.1 hpre with rfl | hpre
    · exact hlink
    · exact h.links pre hpre
  · rcases List.mem_append.1 hmem with hmem | hmem
    · exact h.upwards hmem
    · have htext := congrArg String.toList (List.mem_singleton.1 hmem)
      exact hdots (by simpa using htext.symm)

/-- The links that were resolved have led to clear names. -/
def Seen.Clear (fs : FileSystem) (seen : Seen) : Prop :=
  ∀ names known, seen.lookup names = some (some known) → fs.Clear known

theorem Seen.Clear.cons {seen : Seen} (h : seen.Clear fs) (names : List String)
    {known : Option (List String)} (hknown : ∀ ns ∈ known, fs.Clear ns) :
    Seen.Clear fs ((names, known) :: seen) := by
  intro other ns hlookup
  rw [List.lookup_cons] at hlookup
  split at hlookup
  · cases hlookup
    exact hknown ns rfl
  · exact h other ns hlookup

/-- If all of a path was resolved, it has clear names below the root. -/
structure Clears (fs : FileSystem) (r : Resolved × Seen) : Prop where
  path : r.1.complete = true → r.1.path = ⟨.root, r.1.path.names⟩ ∧ fs.Clear r.1.path.names
  seen : r.2.Clear fs

/-- **Following links** leads to clear names, unless one leads back to itself. -/
theorem resolveLinks_clear (fs : FileSystem) (fuel : Nat) (names : List String)
    (parts : List (List Char)) (seen : Seen) (hnames : fs.Clear names) (hseen : seen.Clear fs) :
    fs.Clears (fs.resolveLinks fuel names parts seen) := by
  have hstart : ∀ {names : List String} (b : Bool), fs.Clear names →
      fs.Clear (if b then [] else names) := by
    intro names b hnames
    cases b with
    | true => exact clear_nil
    | false => exact hnames
  -- while a link is being resolved, nothing is known of it
  have hnone : ∀ ns ∈ (none : Option (List String)), fs.Clear ns := fun ns h => by cases h
  fun_induction resolveLinks fs fuel names parts seen with
  | case1 => exact ⟨fun _ => ⟨rfl, hnames⟩, hseen⟩
  | case2 _ _ _ _ _ _ ih => exact ih hnames hseen
  | case3 _ _ _ _ _ ih => exact ih hnames.dropLast hseen
  | case4 _ _ _ _ _ _ hdots next hlink ih => exact ih (hnames.concat hdots hlink) hseen
  | case5 _ _ _ _ _ _ _ _ _ known _ hlookup ih => exact ih (hseen _ known hlookup) hseen
  | case6 | case7 => exact ⟨fun h => absurd h Bool.false_ne_true, hseen⟩
  | case8 _ _ _ _ _ _ _ target _ _ _ start inner seen' hinner hcomplete ih ih' =>
    have hclears := ih (hstart _ hnames) (hseen.cons _ hnone)
    rw [hinner] at hclears
    have hknown := (hclears.path hcomplete).2
    refine ih' hknown (hclears.seen.cons _ ?_)
    rintro _ ⟨⟩
    exact hknown
  | case9 _ _ _ _ _ _ _ target _ _ _ start inner seen' hinner _ ih =>
    have hclears := ih (hstart _ hnames) (hseen.cons _ hnone)
    rw [hinner] at hclears
    exact ⟨fun h => absurd h Bool.false_ne_true, hclears.seen⟩

/-- The names of a plain path mean themselves. -/
theorem ordinary_of_named (hnames : Named names) (hup : ".." ∉ names) :
    ∀ name ∈ names, Ordinary name := by
  intro name hname
  have hisName := (hnames name hname).1
  refine ⟨?_, ?_, ?_⟩
  · rintro rfl
    exact absurd hisName (by decide)
  · rintro rfl
    exact absurd hisName (by decide)
  · rintro rfl
    exact hup hname

/-- What a walk finds at a first part of clear names is no link. -/
theorem Clear.walk_kept (h : fs.Clear names) (hnames : Named names)
    (hshort : ¬ maxPath ≤ (rooted names).utf8ByteSize) (hne : pre ≠ []) (hpre : pre <+: names)
    {target : String} (hfound : fs.walk .kept maxLinks root pre = .ok (.found j)) :
    fs.node? j ≠ some (.link target) := by
  intro hnode
  have hpreNames : Named pre := fun name hname => hnames name (hpre.subset hname)
  have hpreShort : ¬ maxPath ≤ (rooted pre).utf8ByteSize := by
    have hle := Path.utf8ByteSize_intercalate_le hpre
    simp only [rooted, String.utf8ByteSize_append] at hshort ⊢
    omega
  have hlookup : fs.lookup ⟨.root, []⟩ false (rooted pre) = .ok j := by
    rw [lookup, find_named hpreNames hne, if_neg hpreShort, if_neg (by decide), hfound]
  have hlink := h.links pre hpre
  rw [linkAt?, show "/" ++ "/".intercalate pre = rooted pre from rfl, hlookup] at hlink
  simp only [hnode] at hlink
  cases hlink

/-- Clear names lead to what the system finds, and something is too long only if a name is. -/
theorem find_clear (hnames : Named names) (h : fs.Clear names) (cwd : Path)
    (hshort : (rooted names).utf8ByteSize < maxPath) :
    fs.Walked root names (fs.find cwd .followed (rooted names)) := by
  by_cases hne : names = []
  · subst hne
    rw [show rooted [] = "/" by decide, find_slash]
    split
    · refine ⟨fun k hk => ?_, fun h => by cases h⟩
      cases hk
      exact .nil root
    · exact walked_error (by decide)
  · have hshort := Nat.not_le.2 hshort
    rw [find_named hnames hne, if_neg hshort]
    exact walk_clear (ordinary_of_named hnames h.upwards) fun pre hpreNe hpre j target hfound =>
      h.walk_kept hnames hshort hpreNe hpre hfound

/-- The system finds nothing by a path that is too long. -/
theorem size_of_find {cwd : Path} {path : String} {spot : Spot}
    (h : fs.find cwd ending path = .ok spot) : path.utf8ByteSize < maxPath := by
  rw [find] at h
  split at h
  · cases h
  · split at h
    · cases h
    · exact Nat.not_le.1 ‹_›

theorem find_of_lookup {cwd : Path} {path : String} (h : fs.lookup cwd true path = .ok i) :
    fs.find cwd .followed path = .ok (.found i) := by
  rw [lookup, if_pos rfl] at h
  split at h <;> cases h
  assumption

theorem find_of_lookup_error {cwd : Path} {path : String} {e : Nat}
    (h : fs.lookup cwd true path = .error e) :
    fs.find cwd .followed path = .error e ∨ e = Fault.noEntry := by
  rw [lookup, if_pos rfl] at h
  split at h <;> cases h
  · exact .inl ‹_›
  · exact .inr rfl

/-! ### Canonical paths that lead to directories -/

/-- An absolute path that leads to a directory, through directories and without any link. -/
structure Direct (fs : FileSystem) (q : Path) : Prop where
  plain : q.IsPlain
  leads : ∃ i, fs.Leads root q.names i ∧ fs.isDirectoryNode i = true

/-- Where nothing leads upwards, taking `..` literally changes nothing. -/
theorem lexical_of_upwards (h : ".." ∉ names) : Path.lexical ⟨.root, names⟩ = ⟨.root, names⟩ := by
  have hfold : ∀ (step : List String → String → List String) (done : List String),
      (∀ done name, name ≠ ".." → step done name = done ++ [name]) →
        names.foldl step done = done ++ names := by
    intro step done hstep
    induction names generalizing done with
    | nil => simp
    | cons name names ih =>
      have hname : name ≠ ".." := fun heq => h (heq ▸ .head _)
      rw [List.foldl_cons, ih (fun hmem => h (.tail _ hmem)), hstep _ _ hname, List.append_assoc]
      rfl
  rw [Path.lexical, hfold _ _ fun done name hname => if_pos (by simpa using hname)]
  rfl

/-- What is not to be found has a canonical path, if it is not links that keep it from being found. -/
theorem canonical_of_lookup_error {path q r : Path} {e : Nat}
    (hresolved : (fs.resolveLinks fs.nodes.size [] (path.names.map String.toList) []).1.path = r)
    (hq : r.lexical = q) (hlookup : fs.lookup ⟨.root, []⟩ true q.toString = .error e)
    (he : e ≠ Fault.tooManyLinks) : fs.canonical path = .ok q := by
  simp only [canonical, hresolved, hq, hlookup, if_neg he]

/-- Whether following the links of a path comes to an end, rather than back to one of them. -/
def resolves (fs : FileSystem) (path : Path) : Bool :=
  (fs.resolveLinks fs.nodes.size [] (path.names.map String.toList) []).1.complete

theorem canonical_clear {path q : Path} (hresolves : fs.resolves path = true)
    (h : fs.canonical path = .ok q) : q = ⟨.root, q.names⟩ ∧ fs.Clear q.names := by
  obtain ⟨hpath, hclear⟩ := (resolveLinks_clear fs fs.nodes.size []
    (path.names.map String.toList) [] clear_nil fun _ _ => nofun).path hresolves
  have hq : q = (fs.resolveLinks fs.nodes.size [] (path.names.map String.toList) []).1.path := by
    rw [hpath, ← lexical_of_upwards hclear.upwards, ← hpath]
    simp only [canonical] at h
    split at h
    · split at h <;> cases h
      rfl
    · cases h
      rfl
  rw [hq]
  exact ⟨hpath, hclear⟩

theorem toString_of_root {q : Path} (h : q = ⟨.root, q.names⟩) : q.toString = rooted q.names := by
  rw [h]
  simp [Path.toString, rooted, Path.anchorText]

/-- **Canonical paths of directories** are direct, unless a link leads back to itself. -/
theorem canonical_direct {path q cwd : Path} (hnames : Named path.names)
    (hresolves : fs.resolves path = true) (h : fs.canonical path = .ok q)
    (hthere : fs.isDirectory cwd q.toString = .ok true) : fs.Direct q := by
  obtain ⟨hq, hclear⟩ := canonical_clear hresolves h
  have hplain := canonical_isPlain hnames h
  refine ⟨hplain, ?_⟩
  rw [isDirectory, toString_of_root hq] at hthere
  split at hthere
  · rename_i i hlookup
    have hfind := find_of_lookup hlookup
    exact ⟨i, (find_clear hplain.named hclear cwd (size_of_find hfind)).leads i hfind,
      Except.ok.inj hthere⟩
  · split at hthere <;> cases hthere

/-- The system takes a path of this length, and names of theirs. -/
structure Short (q : Path) : Prop where
  path : q.toString.utf8ByteSize < maxPath
  names : ∀ name ∈ q.names, name.utf8ByteSize ≤ maxName

/-- Nothing is too long about a canonical path that is short, unless a link leads back to itself. -/
theorem lookup_of_short {path q cwd : Path} (hnames : Named path.names)
    (hresolves : fs.resolves path = true) (h : fs.canonical path = .ok q) (hshort : Short q) :
    fs.lookup cwd true q.toString ≠ .error Fault.nameTooLong := by
  intro hlong
  obtain ⟨hq, hclear⟩ := canonical_clear hresolves h
  have htext := toString_of_root hq
  rw [htext] at hlong
  rcases find_of_lookup_error hlong with herror | herror
  · have hpath : (rooted q.names).utf8ByteSize < maxPath := htext ▸ hshort.path
    obtain ⟨name, hmem, hsize⟩ :=
      (find_clear (canonical_isPlain hnames h).named hclear cwd hpath).tooLong herror
    exact Nat.not_lt.2 (hshort.names name hmem) hsize
  · cases herror

/-! ### Names that are too long -/

section

variable {name : String} {parent : Inode} {entries : List (String × Inode)}

theorem ordinary_of_tooLong (hlong : maxName < name.utf8ByteSize) : Ordinary name := by
  refine ⟨?_, ?_, ?_⟩ <;>
  · rintro rfl
    exact absurd hlong (by decide)

/-- At the root, a name that is too long is refused. -/
theorem find_tooLong (hname : Named [name]) (hlong : maxName < name.utf8ByteSize)
    (hroot : fs.node? root = some (.directory parent entries)) (cwd : Path) :
    fs.find cwd ending (rooted [name]) = .error Fault.nameTooLong := by
  obtain ⟨h₁, h₂, h₃⟩ := ordinary_of_tooLong hlong
  rw [find_named hname (List.cons_ne_nil _ _)]
  split
  · rfl
  · rw [walk]
    simp [hroot, h₁, h₂, h₃, hlong]

theorem lookup_tooLong (hname : Named [name]) (hlong : maxName < name.utf8ByteSize)
    (hroot : fs.node? root = some (.directory parent entries)) (cwd : Path) (follow : Bool) :
    fs.lookup cwd follow (rooted [name]) = .error Fault.nameTooLong := by
  cases follow <;> rw [lookup, find_tooLong hname hlong hroot]

/-- So it is when a directory is looked for. -/
theorem isDirectory_tooLong (hname : Named [name]) (hlong : maxName < name.utf8ByteSize)
    (hroot : fs.node? root = some (.directory parent entries)) (cwd : Path) :
    fs.isDirectory cwd (rooted [name]) = .error Fault.nameTooLong := by
  rw [isDirectory, lookup_tooLong hname hlong hroot]
  rfl

/-- It has a canonical path nevertheless. -/
theorem canonical_tooLong (hname : Named [name]) (hlong : maxName < name.utf8ByteSize)
    (hroot : fs.node? root = some (.directory parent entries)) :
    fs.canonical ⟨.root, [name]⟩ = .ok ⟨.root, [name]⟩ := by
  obtain ⟨hisName, -⟩ := hname name (.head _)
  have hdots : name ≠ ".." := (ordinary_of_tooLong hlong).2.2
  have hletters : name.toList ≠ ['.', '.'] := fun h => hdots (String.toList_inj.1 h)
  have hlink : fs.linkAt? [name] = none := by
    rw [linkAt?, show "/" ++ "/".intercalate [name] = rooted [name] from rfl,
      lookup_tooLong hname hlong hroot]
  have hresolved : (fs.resolveLinks fs.nodes.size [] [name.toList] []).1.path = ⟨.root, [name]⟩ := by
    simp [resolveLinks, hisName, hletters, hlink]
  have hlookup : fs.lookup ⟨.root, []⟩ true (Path.toString ⟨.root, [name]⟩) =
      .error Fault.nameTooLong := by
    rw [toString_of_root rfl, lookup_tooLong hname hlong hroot]
  exact canonical_of_lookup_error hresolved (lexical_of_upwards (by simpa using hdots.symm)) hlookup
    (by decide)

end

/-! ### What can go wrong on the way -/

/-- The errors of a walk that follows all links. -/
theorem walk_error {e : Nat} (h : fs.walk .followed links i names = .error e) :
    e = Fault.nameTooLong ∨ meansAbsent e = true := by
  generalize hending : Ending.followed = ending at h
  fun_induction walk fs ending links i names with
  | case1 | case6 | case8 => cases h
  | case2 | case3 | case10 | case11 =>
    -- the walk goes on
    rename_i ih
    exact ih h
  | case4 =>
    rename_i hwritten
    simp [← hending] at hwritten
  | case5 =>
    cases h
    exact .inl rfl
  | case7 | case9 | case12 =>
    cases h
    exact .inr rfl

theorem find_error {cwd : Path} {path : String} {e : Nat}
    (h : fs.find cwd .followed path = .error e) : e = Fault.nameTooLong ∨ meansAbsent e = true := by
  rw [find] at h
  split at h
  · cases h
    exact .inr rfl
  · split at h
    · cases h
      exact .inl rfl
    · exact walk_error h

/-- A look for a directory fails only where something is too long. -/
theorem lookup_of_isDirectory_error {cwd : Path} {path : String} {e : Nat}
    (h : fs.isDirectory cwd path = .error e) :
    e = Fault.nameTooLong ∧ fs.lookup cwd true path = .error Fault.nameTooLong := by
  rw [isDirectory] at h
  split at h
  · cases h
  · rename_i e' hlookup
    split at h
    · cases h
    · rename_i habsent
      cases h
      have herror : e = Fault.nameTooLong := by
        rcases find_of_lookup_error hlookup with hfind | rfl
        · refine (find_error hfind).resolve_right habsent
        · exact absurd rfl habsent
      exact ⟨herror, herror ▸ hlookup⟩

end FileSystem

end LineShell
