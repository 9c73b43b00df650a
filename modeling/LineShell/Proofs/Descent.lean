import LineShell.FileSystem.Replace
import LineShell.Proofs.LinkFree

namespace LineShell

open FileSystem

/-!
# Walks down to a directory

A walk comes to a directory through directories and links alone, so it comes there still once files
have come, gone or changed.

* `Descends` — names that lead from a node down to another one, and how many links that takes;
* `Passes` — a change of a file system after which all that a walk goes through stands where it stood,
  and `Descends.passes` — that what leads down to a directory still does so;
* `Ends` — a path that ends in a name of a directory, and `Ends.find`, `Ends.holder` — what that comes
  to;
* `Ends.beside` — a path with a longer last name.
-/

/-! ### The last part of a path -/

namespace Path

variable {cs part : List Char}

/-- A text has a last part, which is empty only behind a slash, and what is put behind the text is put
behind this part. -/
theorem segments_last (cs : List Char) : ∃ front last, segments cs = front ++ [last] ∧
    (last = [] → cs = [] ∨ cs.getLast? = some '/') ∧
    ∀ part, '/' ∉ part → segments (cs ++ part) = front ++ [last ++ part] := by
  induction cs with
  | nil => exact ⟨[], [], rfl, fun _ => .inl rfl, fun part h => segments_of_slash_not_mem h⟩
  | cons c cs ih =>
    obtain ⟨front, last, hsegments, hempty, happend⟩ := ih
    by_cases hc : (c == '/') = true
    · refine ⟨[] :: front, last, ?_, fun hlast => .inr ?_, fun part h => ?_⟩
      · rw [segments, if_pos hc, hsegments, List.cons_append]
      · rcases hempty hlast with rfl | hslash
        · rw [beq_iff_eq.1 hc]
          rfl
        · rw [List.getLast?_cons, hslash]
          rfl
      · rw [List.cons_append, segments, if_pos hc, happend part h, List.cons_append]
    · cases front with
      | nil =>
        refine ⟨[], c :: last, ?_, fun hlast => absurd hlast (List.cons_ne_nil _ _), fun part h => ?_⟩
        · rw [segments, if_neg hc, hsegments]
          rfl
        · rw [List.cons_append, segments, if_neg hc, happend part h]
          rfl
      | cons first front =>
        refine ⟨(c :: first) :: front, last, ?_, fun hlast => .inr ?_, fun part h => ?_⟩
        · rw [segments, if_neg hc, hsegments]
          rfl
        · rcases hempty hlast with rfl | hslash
          · -- the parts of nothing are no two
            rw [segments] at hsegments
            simp at hsegments
          · rw [List.getLast?_cons, hslash]
            rfl
        · rw [List.cons_append, segments, if_neg hc, happend part h]
          rfl

end Path

namespace FileSystem

variable {fs fs' : FileSystem} {cwd : Path} {path name : String} {names : List String}
  {links left : Nat} {ending : Ending} {i d : Inode}

theorem steps_ne_nil {cs : List Char} (h : cs ≠ []) : steps cs ≠ [] := by
  obtain ⟨front, last, hsegments, hempty, -⟩ := Path.segments_last cs
  unfold steps
  rw [hsegments, List.filter_append]
  by_cases hlast : last = []
  · rw [if_pos ((hempty hlast).resolve_left h)]
    simp
  · simp [hlast]

/-- What is put behind a path that ends in a name is put behind this name. -/
theorem steps_append {cs part : List Char} {front : List String} (h : steps cs = front ++ [name])
    (hname : name ≠ "") (hslash : '/' ∉ part) (hpart : part ≠ []) :
    steps (cs ++ part) = front ++ [name ++ String.ofList part] := by
  have hend : ¬ cs.getLast? = some '/' := by
    intro hend
    rw [steps, if_pos hend, List.map_append] at h
    exact hname (by simpa using (congrArg List.getLast? h).symm)
  have hend' : ¬ (cs ++ part).getLast? = some '/' := by
    rw [List.getLast?_append, List.getLast?_eq_some_getLast hpart]
    rintro hlast
    exact hslash (Option.some.inj hlast ▸ List.getLast_mem hpart)
  have hne : cs ≠ [] := by
    rintro rfl
    exact absurd h.symm (List.append_ne_nil_of_right_ne_nil _ (List.cons_ne_nil _ _))
  obtain ⟨init, last, hsegments, hempty, happend⟩ := Path.segments_last cs
  have hlast : last ≠ [] := fun hlast => (hempty hlast).elim hne hend
  rw [steps, if_neg hend, hsegments, List.append_nil, List.filter_append, List.map_append] at h
  rw [steps, if_neg hend', happend part hslash, List.append_nil, List.filter_append, List.map_append]
  have hsplit := List.append_inj' h (by simp [hlast])
  rw [hsplit.1]
  congr 1
  have hnamed : String.ofList last = name := by simpa [hlast] using hsplit.2
  rw [← hnamed]
  simp [hlast, String.ofList_append]

/-! ### Down to a directory -/

/-- A walk along names leads from a node down to another one, and leaves so many of the links that it
may follow. -/
inductive Descends (fs : FileSystem) : Nat → Inode → List String → Nat → Inode → Prop
  | done {links : Nat} {i : Inode} : Descends fs links i [] links i
  | stay {links left : Nat} {i d parent : Inode} {entries : List (String × Inode)} {name : String}
      {names : List String} : fs.node? i = some (.directory parent entries) →
    name = "" ∨ name = "." → Descends fs links i names left d →
    Descends fs links i (name :: names) left d
  | up {links left : Nat} {i d parent : Inode} {entries : List (String × Inode)}
      {names : List String} : fs.node? i = some (.directory parent entries) →
    Descends fs links parent names left d → Descends fs links i (".." :: names) left d
  | down {links left : Nat} {i j d parent : Inode} {entries : List (String × Inode)} {name : String}
      {names : List String} : fs.node? i = some (.directory parent entries) → Ordinary name →
    name.utf8ByteSize ≤ maxName → entries.lookup name = some j →
    (∀ target, fs.node? j ≠ some (.link target)) → Descends fs links j names left d →
    Descends fs links i (name :: names) left d
  | follow {links left : Nat} {i j d parent : Inode} {entries : List (String × Inode)} {name : String}
      {names : List String} {target : String} : fs.node? i = some (.directory parent entries) →
    Ordinary name → name.utf8ByteSize ≤ maxName → entries.lookup name = some j →
    fs.node? j = some (.link target) →
    Descends fs links (if Path.startsAtRoot target then root else i) (steps target.toList ++ names)
      left d →
    Descends fs (links + 1) i (name :: names) left d

namespace Descends

/-- Where there is no way but through directories, it starts at one. -/
theorem isDirectoryNode (h : fs.Descends links i names left d) (hd : fs.isDirectoryNode d = true) :
    fs.isDirectoryNode i = true := by
  cases h with
  | done => exact hd
  | stay hnode | up hnode | down hnode | follow hnode =>
    rw [FileSystem.isDirectoryNode, hnode]

theorem left_le (h : fs.Descends links i names left d) : left ≤ links := by
  induction h with
  | done => exact Nat.le_refl _
  | stay _ _ _ ih | up _ _ ih | down _ _ _ _ _ _ ih => exact ih
  | follow _ _ _ _ _ _ ih => exact Nat.le_succ_of_le ih

/-- With more links to follow, a walk goes the same way. -/
theorem more (h : fs.Descends links i names left d) (n : Nat) :
    fs.Descends (links + n) i names (left + n) d := by
  induction h with
  | done => exact .done
  | stay hnode hname _ ih => exact .stay hnode hname ih
  | up hnode _ ih => exact .up hnode ih
  | down hnode hname hfits hentry hlink _ ih => exact .down hnode hname hfits hentry hlink ih
  | follow hnode hname hfits hentry hlink _ ih =>
    rw [Nat.add_right_comm]
    exact .follow hnode hname hfits hentry hlink ih

/-- Behind the names that lead down, a walk goes on from where they lead to. -/
theorem walk_append {tail : List String} (h : fs.Descends links i names left d)
    (htail : ending = .followed ∨ tail ≠ [] ∧ tail ≠ [""]) :
    fs.walk ending links i (names ++ tail) = fs.walk ending left d tail := by
  -- a name before the last one is not looked at as a last one
  have hwritten : ∀ names : List String, ¬(ending = .written ∧ names ++ tail = [""]) := by
    rintro names ⟨hending, hsingle⟩
    rcases htail with rfl | ⟨hne, hblank⟩
    · cases hending
    · rcases List.append_eq_singleton_iff.1 hsingle with ⟨-, hsingle⟩ | ⟨-, hnil⟩
      · exact hblank hsingle
      · exact hne hnil
  have hkept : ∀ names : List String, ¬((names = [] ∧ tail = []) ∧ ending = .kept) := by
    rintro names ⟨⟨-, hempty⟩, hending⟩
    rcases htail with rfl | ⟨hne, -⟩
    · cases hending
    · exact hne hempty
  induction h with
  | done => rfl
  | stay hnode hname _ ih =>
    rw [List.cons_append, walk]
    simpa only [hnode, Bool.or_eq_true, decide_eq_true_eq, hname, if_true] using ih
  | up hnode _ ih =>
    rw [List.cons_append, walk]
    simpa [hnode] using ih
  | down hnode hname hfits hentry hlink _ ih =>
    obtain ⟨h₁, h₂, h₃⟩ := hname
    rw [List.cons_append, walk]
    simpa [hnode, h₁, h₂, h₃, hwritten, Nat.not_lt.2 hfits, hentry] using ih
  | follow hnode hname hfits hentry hlink _ ih =>
    obtain ⟨h₁, h₂, h₃⟩ := hname
    rw [List.cons_append, walk]
    simpa [hnode, h₁, h₂, h₃, hwritten, hkept, Nat.not_lt.2 hfits, hentry, hlink] using ih

theorem walk_concat (h : fs.Descends links i names left d) (hname : name ≠ "") :
    fs.walk ending links i (names ++ [name]) = fs.walk ending left d [name] :=
  h.walk_append (.inr ⟨List.cons_ne_nil _ _, fun hblank => hname (List.singleton_inj.1 hblank)⟩)

theorem walk_followed (h : fs.Descends links i names left d) :
    fs.walk .followed links i names = .ok (.found d) := by
  have hwalk : fs.walk .followed links i (names ++ []) = _ := h.walk_append (.inl rfl)
  rwa [List.append_nil, walk_nil] at hwalk

end Descends

/-- **A walk that succeeds** has come down to a directory by all names but the last one. -/
theorem descends_of_walk {spot : Spot} (h : fs.walk ending links i (names ++ [name]) = .ok spot) :
    ∃ left d, fs.Descends links i names left d ∧ fs.isDirectoryNode d = true := by
  generalize hall : names ++ [name] = all at h
  fun_induction walk fs ending links i all generalizing names with
  | case1 => simp at hall
  | case2 links i first rest parent entries hnode hname ih =>
    rcases names with _ | ⟨_, names⟩ <;> obtain ⟨rfl, rfl⟩ := List.cons.inj hall
    · exact ⟨links, i, .done, by rw [isDirectoryNode, hnode]⟩
    · obtain ⟨left, d, hdescends, hd⟩ := ih rfl h
      exact ⟨left, d, .stay hnode (by simpa using hname) hdescends, hd⟩
  | case3 links i rest parent entries hnode hname ih =>
    rcases names with _ | ⟨_, names⟩ <;> obtain ⟨rfl, rfl⟩ := List.cons.inj hall
    · exact ⟨links, i, .done, by rw [isDirectoryNode, hnode]⟩
    · obtain ⟨left, d, hdescends, hd⟩ := ih rfl h
      exact ⟨left, d, .up hnode hdescends, hd⟩
  | case6 links i first rest parent entries hnode _ _ _ _ _ hrest
  | case8 links i first rest parent entries hnode _ _ _ _ j _ target _ hrest =>
    -- this was the last name
    rcases names with _ | ⟨_, names⟩ <;> obtain ⟨rfl, rfl⟩ := List.cons.inj hall
    · exact ⟨links, i, .done, by rw [isDirectoryNode, hnode]⟩
    · simp at hrest
  | case10 i first rest parent entries hnode hblank hup _ hfits j hentry target hlink =>
    rename_i ih
    rcases names with _ | ⟨_, names⟩ <;> obtain ⟨rfl, rfl⟩ := List.cons.inj hall
    · exact ⟨_, i, .done, by rw [isDirectoryNode, hnode]⟩
    · obtain ⟨left, d, hdescends, hd⟩ := ih (List.append_assoc ..) h
      obtain ⟨h₁, h₂⟩ : _ ≠ "" ∧ _ ≠ "." := by simpa using hblank
      exact ⟨left, d, .follow hnode ⟨h₁, h₂, hup⟩ (Nat.not_lt.1 hfits) hentry hlink hdescends, hd⟩
  | case11 links i first rest parent entries hnode hblank hup _ hfits j hentry hlink ih =>
    rcases names with _ | ⟨_, names⟩ <;> obtain ⟨rfl, rfl⟩ := List.cons.inj hall
    · exact ⟨links, i, .done, by rw [isDirectoryNode, hnode]⟩
    · obtain ⟨left, d, hdescends, hd⟩ := ih rfl h
      obtain ⟨h₁, h₂⟩ : _ ≠ "" ∧ _ ≠ "." := by simpa using hblank
      exact ⟨left, d, .down hnode ⟨h₁, h₂, hup⟩ (Nat.not_lt.1 hfits) hentry hlink hdescends, hd⟩
  | case4 | case5 | case7 | case9 | case12 => cases h

/-! ### What stays where it stood -/

/-- What a walk goes through stands where it stood: the links, and the directories with all names that
stand for a directory or a link. -/
structure Passes (fs fs' : FileSystem) : Prop where
  directory : ∀ {i parent entries}, fs.node? i = some (.directory parent entries) →
    ∃ entries', fs'.node? i = some (.directory parent entries') ∧ ∀ {name j},
      entries.lookup name = some j → fs.isDirectoryNode j = true ∨
        (∃ target, fs.node? j = some (.link target)) → entries'.lookup name = some j
  link : ∀ {i target}, fs.node? i = some (.link target) → fs'.node? i = some (.link target)

theorem Passes.isDirectoryNode (h : fs.Passes fs') (hi : fs.isDirectoryNode i = true) :
    fs'.isDirectoryNode i = true := by
  rw [FileSystem.isDirectoryNode] at hi
  split at hi
  · obtain ⟨entries', hnode, -⟩ := h.directory ‹_›
    rw [FileSystem.isDirectoryNode, hnode]
  · cases hi

theorem Passes.trans {fs'' : FileSystem} (h : fs.Passes fs') (h' : fs'.Passes fs'') :
    fs.Passes fs'' where
  directory hnode := by
    obtain ⟨entries', hnode', hkept⟩ := h.directory hnode
    obtain ⟨entries'', hnode'', hkept'⟩ := h'.directory hnode'
    refine ⟨entries'', hnode'', fun hentry hpassed => hkept' (hkept hentry hpassed) ?_⟩
    exact hpassed.imp h.isDirectoryNode fun ⟨target, hlink⟩ => ⟨target, h.link hlink⟩
  link hlink := h'.link (h.link hlink)

/-- **What leads down** to a directory still does so. -/
theorem Descends.passes (h : fs.Descends links i names left d) (hd : fs.isDirectoryNode d = true)
    (hpasses : fs.Passes fs') : fs'.Descends links i names left d := by
  induction h with
  | done => exact .done
  | stay hnode hname _ ih =>
    obtain ⟨_, hnode', -⟩ := hpasses.directory hnode
    exact .stay hnode' hname (ih hd)
  | up hnode _ ih =>
    obtain ⟨_, hnode', -⟩ := hpasses.directory hnode
    exact .up hnode' (ih hd)
  | down hnode hname hfits hentry _ hdescends ih =>
    have hdirectory := hdescends.isDirectoryNode hd
    obtain ⟨_, hnode', hkept⟩ := hpasses.directory hnode
    refine .down hnode' hname hfits (hkept hentry (.inl hdirectory)) (fun target hlink => ?_) (ih hd)
    have hstill := hpasses.isDirectoryNode hdirectory
    rw [FileSystem.isDirectoryNode, hlink] at hstill
    cases hstill
  | follow hnode hname hfits hentry hlink _ ih =>
    obtain ⟨_, hnode', hkept⟩ := hpasses.directory hnode
    exact .follow hnode' hname hfits (hkept hentry (.inr ⟨_, hlink⟩)) (hpasses.link hlink) (ih hd)

/-! ### Single dots and slashes -/

/-- Whether a name is one that a path keeps. -/
def isKept (name : String) : Bool := name ≠ "" && name ≠ "."

theorem Descends.skip {dots : List String} (h : fs.Descends links i names left d)
    (hi : fs.isDirectoryNode i = true) (hdots : ∀ name ∈ dots, ¬isKept name = true) :
    fs.Descends links i (dots ++ names) left d := by
  induction dots with
  | nil => exact h
  | cons dot dots ih =>
    have hdot : dot = "" ∨ dot = "." := by
      have hdot := hdots dot (.head _)
      simp only [isKept, Bool.and_eq_true, decide_eq_true_eq] at hdot
      exact Decidable.or_iff_not_imp_left.2 fun hne =>
        Decidable.not_not.1 fun hne' => hdot ⟨hne, hne'⟩
    have hrest := ih fun name hname => hdots name (.tail _ hname)
    rw [FileSystem.isDirectoryNode] at hi
    split at hi
    · exact .stay ‹_› hdot hrest
    · cases hi

/-- Names that differ only in those that a path does not keep lead down to the same directory. -/
theorem Descends.of_filter (h : fs.Descends links i names left d) (hd : fs.isDirectoryNode d = true)
    {names' : List String} (hfilter : names'.filter isKept = names.filter isKept) :
    fs.Descends links i names' left d := by
  induction h generalizing names' with
  | done =>
    rw [← List.append_nil names']
    exact Descends.done.skip hd (List.filter_eq_nil_iff.1 hfilter)
  | stay hnode hname _ ih =>
    rw [List.filter_cons_of_neg (by rcases hname with rfl | rfl <;> simp [isKept])] at hfilter
    exact ih hd hfilter
  | up hnode _ ih =>
    rw [List.filter_cons_of_pos (by decide)] at hfilter
    obtain ⟨dots, rest, rfl, hdots, -, hrest⟩ := List.filter_eq_cons_iff.1 hfilter
    exact (Descends.up hnode (ih hd hrest)).skip (by rw [FileSystem.isDirectoryNode, hnode]) hdots
  | down hnode hname hfits hentry hlink _ ih =>
    rw [List.filter_cons_of_pos (by simp [isKept, hname.1, hname.2.1])] at hfilter
    obtain ⟨dots, rest, rfl, hdots, -, hrest⟩ := List.filter_eq_cons_iff.1 hfilter
    exact (Descends.down hnode hname hfits hentry hlink (ih hd hrest)).skip
      (by rw [FileSystem.isDirectoryNode, hnode]) hdots
  | follow hnode hname hfits hentry hlink _ ih =>
    rw [List.filter_cons_of_pos (by simp [isKept, hname.1, hname.2.1])] at hfilter
    obtain ⟨dots, rest, rfl, hdots, -, hrest⟩ := List.filter_eq_cons_iff.1 hfilter
    refine (Descends.follow hnode hname hfits hentry hlink (ih hd ?_)).skip
      (by rw [FileSystem.isDirectoryNode, hnode]) hdots
    rw [List.filter_append, List.filter_append, hrest]

/-- The names of a path are those of its steps that it keeps. -/
theorem namesOf_eq_filter (cs : List Char) : Path.namesOf cs = (steps cs).filter isKept := by
  have hkept : ∀ part : List Char, isKept (String.ofList part) = Path.isName part := by
    intro part
    rw [Bool.eq_iff_iff]
    simp [isKept, Path.isName, ← String.toList_inj]
  have hslash : (if cs.getLast? = some '/' then [[]] else []).filter Path.isName = [] := by
    split <;> rfl
  have hpart : ∀ part : List Char, Path.isName part = (Path.isName part && part != []) := by
    intro part
    cases part <;> simp [Path.isName]
  rw [Path.namesOf, steps, List.filter_map, List.filter_append]
  congr 1
  rw [show isKept ∘ String.ofList = Path.isName from funext hkept, hslash, List.append_nil,
    List.filter_filter]
  exact List.filter_congr fun part _ => hpart part

/-! ### Paths that end in a name of a directory -/

/-- The names before those of a path, for one that does not start at the root. -/
def baseOf (cwd : Path) (path : String) : List String :=
  if Path.startsAtRoot path then [] else cwd.names

/-- What a name of a directory stands for. -/
def named? (fs : FileSystem) (d : Inode) (name : String) : Option Inode :=
  match fs.node? d with
  | some (.directory _ entries) => entries.lookup name
  | _ => none

/-- What a name of a directory stands for is no link. -/
def IsPlain (fs : FileSystem) (d : Inode) (name : String) : Prop :=
  ∀ j target, fs.named? d name = some j → fs.node? j ≠ some (.link target)

/-- All names of a path but the last one lead down to a directory, and the last one is a proper
name. -/
structure Ends (fs : FileSystem) (cwd : Path) (path : String) (left : Nat) (d : Inode)
    (name : String) : Prop where
  short : path.utf8ByteSize < maxPath
  front : ∃ front, steps path.toList = front ++ [name] ∧
    fs.Descends maxLinks root (baseOf cwd path ++ front) left d
  directory : fs.isDirectoryNode d = true
  ordinary : Ordinary name
  fits : name.utf8ByteSize ≤ maxName

/-- What a path leads to is what its names lead to, and it is not too long. -/
theorem walk_of_find {spot : Spot} (h : fs.find cwd ending path = .ok spot) :
    path.toList ≠ [] ∧ path.utf8ByteSize < maxPath ∧
      fs.walk ending maxLinks root (baseOf cwd path ++ steps path.toList) = .ok spot := by
  rw [find] at h
  split at h
  · cases h
  · next hne =>
    split at h
    · cases h
    · next hshort =>
      refine ⟨fun hnil => hne ?_, Nat.not_le.1 hshort, ?_⟩
      · rw [String.isEmpty_iff, ← String.toList_inj, hnil]
        rfl
      · rw [baseOf]
        split <;> simp_all

theorem find_of_steps {front : List String} (hshort : path.utf8ByteSize < maxPath)
    (hsteps : steps path.toList = front ++ [name]) :
    fs.find cwd ending path = fs.walk ending maxLinks root (baseOf cwd path ++ front ++ [name]) := by
  have hempty : path.isEmpty = false := by
    rw [← Bool.not_eq_true, String.isEmpty_iff]
    rintro rfl
    exact absurd hsteps.symm (List.append_ne_nil_of_right_ne_nil _ (List.cons_ne_nil _ _))
  rw [find, hempty, if_neg Bool.false_ne_true, if_neg (Nat.not_le.2 hshort), hsteps, baseOf]
  split
  · rfl
  · rw [List.append_assoc]

theorem walk_name (hd : fs.isDirectoryNode d = true) (hname : Ordinary name)
    (hfits : name.utf8ByteSize ≤ maxName) (hplain : fs.IsPlain d name) :
    fs.walk ending links d [name] = .ok ((fs.named? d name).elim (.absent d name) .found) := by
  obtain ⟨h₁, h₂, h₃⟩ := hname
  rw [isDirectoryNode] at hd
  split at hd
  · next parent entries hnode =>
    have hentry : fs.named? d name = entries.lookup name := by rw [named?, hnode]
    rw [walk]
    simp only [hnode, h₁, h₂, h₃, Nat.not_lt.2 hfits, decide_false, Bool.or_false,
      Bool.false_eq_true, if_false, show ([] : List String) ≠ [""] from (List.cons_ne_nil _ _).symm,
      Bool.and_false, List.isEmpty_nil, if_true, hentry]
    cases hlookup : entries.lookup name with
    | none => rfl
    | some j =>
      dsimp only
      split
      · next target hlink => exact absurd hlink (hplain j target (hentry.trans hlookup))
      · rw [walk_nil]
        rfl
  · cases hd

/-- A name that stands for a link is followed, unless it is kept as it is. -/
theorem walk_link {j : Inode} {target : String} (hd : fs.isDirectoryNode d = true)
    (hname : Ordinary name) (hfits : name.utf8ByteSize ≤ maxName) (hentry : fs.named? d name = some j)
    (hlink : fs.node? j = some (.link target)) :
    (∀ links, fs.walk .kept links d [name] = .ok (.found j)) ∧
    fs.walk .followed 0 d [name] = .error Fault.tooManyLinks ∧
    ∀ links ending, ending ≠ .kept → fs.walk ending (links + 1) d [name] =
      fs.walk ending links (if Path.startsAtRoot target then root else d) (steps target.toList) := by
  obtain ⟨h₁, h₂, h₃⟩ := hname
  rw [isDirectoryNode] at hd
  split at hd
  · next parent entries hnode =>
    rw [named?, hnode] at hentry
    refine ⟨fun links => ?_, ?_, fun links ending hending => ?_⟩
    all_goals
      rw [walk]
      simp [*, Nat.not_lt.2 hfits]
  · cases hd

/-- A proper name that a walk does not fail at is not too long. -/
theorem fits_of_walk {spot : Spot} (hname : Ordinary name)
    (h : fs.walk ending links d [name] = .ok spot) : name.utf8ByteSize ≤ maxName := by
  obtain ⟨h₁, h₂, h₃⟩ := hname
  rw [walk] at h
  split at h
  · by_cases hlong : maxName < name.utf8ByteSize
    · simp [h₁, h₂, h₃, hlong] at h
    · exact Nat.not_lt.1 hlong
  · cases h

/-- A name that a walk does not find stands for nothing. -/
theorem named?_of_absent {d' : Inode} {name' : String} (hd : fs.isDirectoryNode d = true)
    (hname : Ordinary name) (h : fs.walk .kept links d [name] = .ok (.absent d' name')) :
    fs.named? d name = none := by
  have hfits := fits_of_walk hname h
  cases hentry : fs.named? d name with
  | none => rfl
  | some j =>
    -- a link would be found, and anything else too
    have hfound : fs.walk .kept links d [name] = .ok (.found j) := by
      by_cases hlink : ∃ target, fs.node? j = some (.link target)
      · obtain ⟨target, hlink⟩ := hlink
        exact (walk_link hd hname hfits hentry hlink).1 links
      · rw [walk_name hd hname hfits, hentry]
        · rfl
        · intro j' target hj' hlink'
          obtain rfl : j = j' := Option.some.inj (hentry.symm.trans hj')
          exact hlink ⟨target, hlink'⟩
    rw [hfound] at h
    cases h

theorem ordinary_beside (name : String) : Ordinary (name ++ besideEnding) := by
  have hletters : ∀ short : String, short.toList.length < 10 → name ++ besideEnding ≠ short := by
    rintro _ hlength rfl
    rw [String.toList_append, List.length_append] at hlength
    have hending : 10 ≤ besideEnding.toList.length := by decide
    omega
  exact ⟨hletters _ (by decide), hletters _ (by decide), hletters _ (by decide)⟩

namespace Ends

variable (h : fs.Ends cwd path left d name)

include h

/-- What is found under such a path is up to its last name. -/
theorem find (ending : Ending) : fs.find cwd ending path = fs.walk ending left d [name] := by
  obtain ⟨front, hsteps, hdescends⟩ := h.front
  rw [find_of_steps h.short hsteps]
  exact hdescends.walk_concat h.ordinary.1

theorem find_plain (hplain : fs.IsPlain d name) (ending : Ending) :
    fs.find cwd ending path = .ok ((fs.named? d name).elim (.absent d name) .found) := by
  rw [h.find, walk_name h.directory h.ordinary h.fits hplain]

theorem passes (hpasses : fs.Passes fs') : fs'.Ends cwd path left d name where
  short := h.short
  front := by
    obtain ⟨front, hsteps, hdescends⟩ := h.front
    exact ⟨front, hsteps, hdescends.passes h.directory hpasses⟩
  directory := hpasses.isDirectoryNode h.directory
  ordinary := h.ordinary
  fits := h.fits

/-- The directory that has the last name of such a path. -/
theorem holder : fs.holder cwd path = .ok (d, name) := by
  obtain ⟨front, hsteps, hdescends⟩ := h.front
  have hkept : isKept name = true := by simp [isKept, h.ordinary.1, h.ordinary.2.1]
  have hnames : (if Path.startsAtRoot path then (Path.parse path).names
      else cwd.names ++ (Path.parse path).names) =
        baseOf cwd path ++ front.filter isKept ++ [name] := by
    have hparse : (Path.parse path).names = front.filter isKept ++ [name] := by
      rw [Path.parse, namesOf_eq_filter, hsteps, List.filter_append, List.filter_cons_of_pos hkept]
      rfl
    rw [hparse, baseOf]
    split
    · rfl
    · rw [List.append_assoc]
  have hfront : fs.Descends maxLinks root (baseOf cwd path ++ front.filter isKept) left d :=
    hdescends.of_filter h.directory (by simp [List.filter_append, List.filter_filter])
  rw [FileSystem.holder]
  simp only [hnames, List.getLast?_concat, List.dropLast_concat, hfront.walk_followed]
  rfl

/-- **A longer last name.** What stands beside such a path is in the same directory. -/
theorem beside {d' : Inode} {name' : String}
    (hfind : fs.find cwd .kept (path ++ besideEnding) = .ok (.absent d' name')) :
    fs.Ends cwd (path ++ besideEnding) left d (name ++ besideEnding) ∧
      fs.named? d (name ++ besideEnding) = none := by
  obtain ⟨front, hsteps, hdescends⟩ := h.front
  have hshort := (walk_of_find hfind).2.1
  have hsteps' : steps (path ++ besideEnding).toList = front ++ [name ++ besideEnding] := by
    have happend : steps (path.toList ++ besideEnding.toList) = _ :=
      steps_append hsteps h.ordinary.1 (by decide) (by decide)
    rwa [← String.toList_append, String.ofList_toList] at happend
  have hbase : baseOf cwd (path ++ besideEnding) = baseOf cwd path := by
    have hne : path.toList ≠ [] := by
      intro hnil
      rw [hnil] at hsteps
      exact absurd hsteps.symm (List.append_ne_nil_of_right_ne_nil _ (List.cons_ne_nil _ _))
    obtain ⟨c, cs, hcons⟩ := List.exists_cons_of_ne_nil hne
    rw [baseOf, Path.startsAtRoot, String.toList_append, baseOf, Path.startsAtRoot, hcons]
    rfl
  have hname := ordinary_beside name
  rw [find_of_steps hshort hsteps', hbase, hdescends.walk_concat hname.1] at hfind
  exact ⟨⟨hshort, ⟨front, hsteps', hbase ▸ hdescends⟩, h.directory, hname, fits_of_walk hname hfind⟩,
    named?_of_absent h.directory hname hfind⟩

end Ends

end FileSystem

end LineShell
