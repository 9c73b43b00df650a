import LineShell.Proofs.PathComposition

namespace LineShell

/-!
# What operands name

Every operand names an absolute path in normal form, and its text names that path in any session.

* `Path.IsNormal`, `Path.IsWritten` — the absolute paths in normal form, and their texts, which are
  told from where their slashes and dots stand;
* `Path.namesIn`, `Path.rootOf` — what is between the slashes of a text, and where it starts;
* `Path.parse_toString` — a path is read back from its text;
* `Path.isWritten_iff` — the texts told so are those of the paths in normal form, no more and no less;
* `Session.Expands` — what an operand expands to, and `Session.expands_iff` — that it is just one text;
* `Session.resolve_toString` — the text of a normal path names it whatever session it is resolved in;
* `Session.resolve_normalises` — what an operand names, by the text that it expands to;
* `Host.Machine.openPath_resolve` — a host opens what an operand names wherever it stands itself.
-/

namespace Path

variable {p : Path} {names : List String} {text : String} {part cs : List Char} {a : Anchor}

/-- An absolute path in normal form. There may be `..` among its names. -/
structure IsNormal (p : Path) : Prop where
  absolute : p.isAbsolute = true
  named : Named p.names

/-- A text as absolute paths in normal form have it, told from its slashes and dots alone. -/
structure IsWritten (text : String) : Prop where
  rooted : text.toList.head? = some '/'
  /-- Two slashes stand together at the start at most, and no three. -/
  single : ¬['/', '/'] <:+: text.toList.tail
  undotted : ['.'] ∉ text.toList.splitOn '/'
  /-- Only what is all slashes ends with one. -/
  closed : text.toList.getLast? = some '/' → ∀ c ∈ text.toList, c = '/'

/-- What stands between the slashes of a text and is neither empty nor a single dot. -/
def namesIn (text : String) : List String :=
  ((text.toList.splitOn '/').filter fun part => part ≠ [] ∧ part ≠ ['.']).map String.ofList

/-- Where a text with a slash in front starts: just two slashes are a root of their own. -/
def rootOf (text : String) : Anchor :=
  if (text.toList.takeWhile (· == '/')).length = 2 then .doubleRoot else .root

/-- A plain path is normal. -/
theorem IsPlain.isNormal (h : p.IsPlain) : p.IsNormal := ⟨h.absolute, h.named⟩

theorem startsAtRoot_iff : startsAtRoot text = true ↔ text.toList.head? = some '/' := beq_iff_eq

theorem Named.isName_of_mem (h : Named names) (hpart : part ∈ names.map String.toList) :
    isName part = true := by
  obtain ⟨name, hname, rfl⟩ := List.mem_map.1 hpart
  exact (h name hname).1

/-! ### What is between slashes -/

theorem names_parse (text : String) : (parse text).names = namesIn text := by
  have hfilter : (text.toList.splitOn '/').filter isName =
      (text.toList.splitOn '/').filter fun part => part ≠ [] ∧ part ≠ ['.'] :=
    List.filter_congr fun part _ => by rw [Bool.eq_iff_iff]; simp [isName]
  rw [namesIn, ← hfilter, ← segments_eq_splitOn]
  rfl

theorem anchor_parse (h : text.toList.head? = some '/') : (parse text).anchor = rootOf text := by
  obtain ⟨cs, hcs⟩ := List.head?_eq_some_iff.1 h
  unfold parse rootOf
  rw [hcs]
  -- the two characters behind the first slash decide
  rcases cs with _ | ⟨c, cs⟩
  · rfl
  · by_cases hc : c = '/'
    · subst hc
      rcases cs with _ | ⟨d, cs⟩
      · rfl
      · by_cases hd : d = '/'
        · subst hd
          simp [anchorOf]
        · simp [anchorOf, hd]
    · simp [anchorOf, hc]

/-- But for what is empty or a single dot, nothing between the slashes of a text is lost. -/
theorem count_namesIn (text : String) (part : List Char) (hname : part ≠ [] ∧ part ≠ ['.']) :
    (namesIn text).count (String.ofList part) = (text.toList.splitOn '/').count part := by
  have hinjective : Function.Injective String.ofList := fun _ _ => String.ofList_injective
  rw [namesIn, List.count_map_of_injective _ _ hinjective, List.count_filter (by simpa using hname)]

/-- The first part of a text is empty just if the text is, or starts with a slash. -/
theorem nil_mem_segments_iff_tail (cs : List Char) :
    [] ∈ segments cs ↔ cs = [] ∨ cs.head? = some '/' ∨ [] ∈ (segments cs).tail := by
  rcases cs with _ | ⟨c, cs⟩
  · simp [segments]
  · by_cases hc : c = '/'
    · simp [segments, hc]
    · obtain ⟨first, rest, hsegments⟩ := List.exists_cons_of_ne_nil (segments_ne_nil cs)
      simp [segments, hc, hsegments]

/-- Another part is empty just if the text ends with a slash, or two slashes stand together. -/
theorem nil_mem_tail_segments_iff (cs : List Char) :
    [] ∈ (segments cs).tail ↔ cs.getLast? = some '/' ∨ ['/', '/'] <:+: cs := by
  -- a character in front changes the first part, so nothing about that one goes through an induction
  induction cs with
  | nil => simp [segments]
  | cons c cs ih =>
    have hlast : (c :: cs).getLast? = some '/' ↔ (c = '/' ∧ cs = []) ∨ cs.getLast? = some '/' := by
      cases cs <;> simp [List.getLast?_cons]
    have hinfix : ['/', '/'] <:+: c :: cs ↔
        (c = '/' ∧ cs.head? = some '/') ∨ ['/', '/'] <:+: cs := by
      rw [List.infix_cons_iff]
      cases cs <;> simp [@eq_comm _ '/']
    rw [hlast, hinfix]
    by_cases hc : c = '/'
    · -- what is behind the slash has its first part in the tail
      have htail : (segments (c :: cs)).tail = segments cs := by simp [segments, hc]
      rw [htail, nil_mem_segments_iff_tail, ih]
      tauto
    · have htail : (segments (c :: cs)).tail = (segments cs).tail := by
        obtain ⟨first, rest, hsegments⟩ := List.exists_cons_of_ne_nil (segments_ne_nil cs)
        simp [segments, hc, hsegments]
      rw [htail, ih]
      tauto

/-! ### Paths are read back -/

theorem namesOf_anchorText (a : Anchor) (cs : List Char) :
    namesOf ((anchorText a).toList ++ cs) = namesOf cs := by
  cases a with
  | here => rfl
  | root => exact namesOf_append_slash [] cs
  | doubleRoot => exact namesOf_append_slash ['/'] cs

theorem anchorOf_anchorText (a : Anchor) (h : cs.head? ≠ some '/') :
    anchorOf ((anchorText a).toList ++ cs) = a := by
  rcases cs with _ | ⟨c, cs⟩
  · cases a <;> rfl
  · have hc : c ≠ '/' := by simpa using h
    cases a <;> simp [anchorText, anchorOf, hc]

/-- The text of some names has no empty part. -/
theorem nil_not_mem_segments_intercalate (h : Named names) (hne : names ≠ []) :
    [] ∉ segments ("/".intercalate names).toList := by
  rw [segments_intercalate h hne]
  exact fun hmem => absurd (h.isName_of_mem hmem) (by decide)

theorem head?_intercalate (h : Named names) : ("/".intercalate names).toList.head? ≠ some '/' := by
  rcases eq_or_ne names [] with rfl | hne
  · simp
  · exact fun hhead => nil_not_mem_segments_intercalate h hne
      ((nil_mem_segments_iff_tail _).2 (.inr (.inl hhead)))

theorem namesOf_intercalate (h : Named names) : namesOf ("/".intercalate names).toList = names := by
  rcases eq_or_ne names [] with rfl | hne
  · rfl
  · rw [namesOf, segments_intercalate h hne, List.filter_eq_self.2 fun _ => h.isName_of_mem,
      List.map_map]
    simp

/-- **A path is read back from its text.** -/
theorem parse_toString (h : Named p.names) : parse p.toString = p := by
  obtain ⟨anchor, names⟩ := p
  unfold Path.toString
  split
  · rename_i hnothing
    obtain ⟨rfl, rfl⟩ := hnothing
    rfl
  · unfold parse
    rw [String.toList_append, namesOf_anchorText, namesOf_intercalate h,
      anchorOf_anchorText _ (head?_intercalate h)]

/-! ### The texts of normal paths -/

/-- The slashes that a path starts with add no part but empty ones. -/
theorem mem_segments_anchorText (a : Anchor) (hpart : part ≠ []) :
    part ∈ segments ((anchorText a).toList ++ cs) ↔ part ∈ segments cs := by
  cases a <;> simp [anchorText, segments, hpart]

/-- Nor do they stand together with what is behind them. -/
theorem infix_tail_anchorText (ha : a ≠ .here) (hcs : cs.head? ≠ some '/') :
    ['/', '/'] <:+: ((anchorText a).toList ++ cs).tail ↔ ['/', '/'] <:+: cs := by
  cases a with
  | here => exact absurd rfl ha
  | root => rfl
  | doubleRoot =>
    refine List.infix_cons_iff.trans (or_iff_right fun hfirst => hcs ?_)
    obtain ⟨rest, hrest⟩ := hfirst
    cases hrest
    rfl

/-- And the text ends with one of them only if there is nothing behind them. -/
theorem closed_anchorText (a : Anchor) (hcs : cs.head? ≠ some '/') :
    (((anchorText a).toList ++ cs).getLast? = some '/' →
      ∀ c ∈ (anchorText a).toList ++ cs, c = '/') ↔ cs.getLast? ≠ some '/' := by
  rw [List.getLast?_append]
  rcases cs with _ | ⟨c, cs⟩
  · cases a <;> simp [anchorText]
  · constructor
    · intro hslashes hlast
      have hc : c = '/' := hslashes (by rw [hlast]; rfl) c (List.mem_append_right _ (.head _))
      exact hcs (congrArg some hc)
    · intro hlast hslash
      rw [List.getLast?_cons] at hlast hslash
      exact absurd hslash hlast

/-- What the parts behind the slashes at the start are like, for the text of a normal path. -/
theorem isWritten_iff_segments (ha : a ≠ .here) (hcs : cs.head? ≠ some '/')
    (htext : text.toList = (anchorText a).toList ++ cs) :
    IsWritten text ↔ (cs = [] ∨ [] ∉ segments cs) ∧ ['.'] ∉ segments cs := by
  -- each condition on the text is one on what is behind the slashes that it starts with
  have hrooted : text.toList.head? = some '/' := by
    rw [htext]
    cases a with
    | here => exact absurd rfl ha
    | root | doubleRoot => rfl
  have hsingle : ['/', '/'] <:+: text.toList.tail ↔ ['/', '/'] <:+: cs := by
    rw [htext, infix_tail_anchorText ha hcs]
  have hundotted : ['.'] ∈ text.toList.splitOn '/' ↔ ['.'] ∈ segments cs := by
    rw [← segments_eq_splitOn, htext, mem_segments_anchorText a (List.cons_ne_nil _ _)]
  have hclosed : (text.toList.getLast? = some '/' → ∀ c ∈ text.toList, c = '/') ↔
      cs.getLast? ≠ some '/' := by
    rw [htext, closed_anchorText a hcs]
  have hparts : (cs = [] ∨ [] ∉ segments cs) ↔
      cs.getLast? ≠ some '/' ∧ ¬['/', '/'] <:+: cs := by
    rw [nil_mem_segments_iff_tail, nil_mem_tail_segments_iff]
    rcases eq_or_ne cs [] with rfl | hne
    · simp
    · tauto
  rw [hparts, ← hclosed, ← hsingle, ← hundotted]
  exact ⟨fun h => ⟨⟨h.closed, h.single⟩, h.undotted⟩, fun h => ⟨hrooted, h.1.2, h.2, h.1.1⟩⟩

/-- A text that starts with a slash and never has three in a row starts at a root, and goes on without
a slash. -/
theorem IsWritten.exists_anchor (h : IsWritten text) : ∃ a cs, a ≠ Anchor.here ∧
    cs.head? ≠ some '/' ∧ text.toList = (anchorText a).toList ++ cs := by
  obtain ⟨cs, hcs⟩ := List.head?_eq_some_iff.1 h.rooted
  have hsingle := h.single
  rw [hcs, List.tail_cons] at hsingle
  by_cases hhead : cs.head? = some '/'
  · obtain ⟨ds, rfl⟩ := List.head?_eq_some_iff.1 hhead
    refine ⟨.doubleRoot, ds, nofun, fun hthird => hsingle ?_, hcs⟩
    obtain ⟨es, rfl⟩ := List.head?_eq_some_iff.1 hthird
    exact ⟨[], es, rfl⟩
  · exact ⟨.root, cs, nofun, hhead, hcs⟩

theorem toString_of_isAbsolute (h : p.isAbsolute = true) :
    p.toString = anchorText p.anchor ++ "/".intercalate p.names := by
  have hne : ¬(p.anchor = .here ∧ p.names = []) := by
    rintro ⟨hhere, -⟩
    rw [isAbsolute, hhere] at h
    cases h
  rw [Path.toString, if_neg hne]

/-- The texts of normal paths are written so. -/
theorem IsNormal.isWritten (h : p.IsNormal) : IsWritten p.toString := by
  have ha : p.anchor ≠ .here := by simpa [isAbsolute] using h.absolute
  have htext : p.toString.toList = (anchorText p.anchor).toList ++
      ("/".intercalate p.names).toList := by
    rw [toString_of_isAbsolute h.absolute, String.toList_append]
  refine (isWritten_iff_segments ha (head?_intercalate h.named) htext).2 ?_
  rcases eq_or_ne p.names [] with hnil | hne
  · rw [hnil]
    exact ⟨.inl rfl, by decide⟩
  · refine ⟨.inr (nil_not_mem_segments_intercalate h.named hne), fun hmem => ?_⟩
    rw [segments_intercalate h.named hne] at hmem
    exact absurd (h.named.isName_of_mem hmem) (by decide)

/-- The names of a text are the text, if all its parts are names. -/
theorem intercalate_namesOf (h : ∀ part ∈ segments cs, isName part = true) :
    "/".intercalate (namesOf cs) = String.ofList cs := by
  rw [namesOf, List.filter_eq_self.2 h, ← String.toList_inj, String.toList_intercalate,
    List.map_map, segments_eq_splitOn]
  simp

/-- A text that is written so is the text of what it is read as. -/
theorem IsWritten.toString_parse (h : IsWritten text) : (parse text).toString = text := by
  obtain ⟨a, cs, ha, hcs, htext⟩ := h.exists_anchor
  obtain ⟨hnil, hdot⟩ := (isWritten_iff_segments ha hcs htext).1 h
  have hparse : parse text = ⟨a, namesOf cs⟩ := by
    rw [parse, htext, anchorOf_anchorText a hcs, namesOf_anchorText]
  have hnames : "/".intercalate (namesOf cs) = String.ofList cs := by
    rcases hnil with rfl | hnil
    · rfl
    · refine intercalate_namesOf fun part hpart => ?_
      have hne : part ≠ [] ∧ part ≠ ['.'] := ⟨ne_of_mem_of_not_mem hpart hnil,
        ne_of_mem_of_not_mem hpart hdot⟩
      simpa [isName] using hne
  have habsolute : (parse text).isAbsolute = true := by simpa [isAbsolute, hparse] using ha
  rw [toString_of_isAbsolute habsolute, hparse]
  simp only
  rw [hnames, ← String.toList_inj, String.toList_append, String.toList_ofList, htext]

/-- **The texts of normal paths** are those that start with a slash and do not end with another one,
have no single dot between slashes, and no slashes together but just two at the start. -/
theorem isWritten_iff : IsWritten text ↔ ∃ p : Path, p.IsNormal ∧ p.toString = text := by
  constructor
  · intro h
    have habsolute : (parse text).isAbsolute = true := by
      rw [isAbsolute_parse, startsAtRoot_iff.2 h.rooted]
    exact ⟨parse text, ⟨habsolute, named_namesOf _⟩, h.toString_parse⟩
  · rintro ⟨p, hp, rfl⟩
    exact hp.isWritten

end Path

/-- Wherever lines have led a session, its working directory is normal. -/
theorem Reached.isNormal {σ : Type} {k : Kernel σ} {s : Session} (hk : Resolves k)
    (h : Reached k s) : s.cwd.IsNormal :=
  (h.isPlain hk).isNormal

namespace Session

variable {s : Session} {operand text : String} {p : Path}

/-- What an operand expands to: the home directory stands for a `~` in front, with all else behind it
as it is. -/
inductive Expands (home : String) : String → String → Prop
  | home (rest : String) : Expands home ("~" ++ rest) (home ++ rest)
  | plain {operand : String} : operand.toList.head? ≠ some '~' → Expands home operand operand

theorem expandHome_tilde (s : Session) (rest : String) :
    s.expandHome ("~" ++ rest) = s.home ++ rest := by
  have hhome : s.expandHome "~" = s.home := String.append_empty
  rw [s.expandHome_append (by decide), hhome]

theorem expands_iff : Expands s.home operand text ↔ s.expandHome operand = text := by
  constructor
  · rintro (⟨rest⟩ | htilde)
    · exact s.expandHome_tilde rest
    · exact s.expandHome_of_head? htilde
  · rintro rfl
    by_cases htilde : operand.toList.head? = some '~'
    · obtain ⟨rest, hrest⟩ := List.head?_eq_some_iff.1 htilde
      obtain rfl : operand = "~" ++ String.ofList rest := by
        rw [← String.toList_inj, hrest, String.toList_append]
        exact congrArg ('~' :: ·) String.toList_ofList.symm
      rw [s.expandHome_tilde]
      exact .home _
    · rw [s.expandHome_of_head? htilde]
      exact .plain htilde

theorem isNormal_resolve (h : s.cwd.IsNormal) (operand : String) : (s.resolve operand).IsNormal :=
  ⟨isAbsolute_resolve h.absolute operand, named_resolve h.named operand⟩

/-- What starts with a slash says alone which path it is. -/
theorem resolve_of_rooted (h : (s.expandHome operand).toList.head? = some '/') :
    s.resolve operand =
      ⟨Path.rootOf (s.expandHome operand), Path.namesIn (s.expandHome operand)⟩ := by
  have habsolute : (Path.parse (s.expandHome operand)).isAbsolute = true := by
    rw [Path.isAbsolute_parse, Path.startsAtRoot_iff.2 h]
  rw [resolve, Path.join_of_isAbsolute habsolute, ← Path.anchor_parse h, ← Path.names_parse]

/-- All else is a path below the working directory. -/
theorem resolve_of_not_rooted (h : (s.expandHome operand).toList.head? ≠ some '/') :
    s.resolve operand = ⟨s.cwd.anchor, s.cwd.names ++ Path.namesIn (s.expandHome operand)⟩ := by
  have habsolute : (Path.parse (s.expandHome operand)).isAbsolute = false := by
    rw [Path.isAbsolute_parse, Bool.eq_false_iff]
    exact mt Path.startsAtRoot_iff.1 h
  rw [resolve, Path.join, habsolute, Path.names_parse]
  rfl

/-- An operand that expands to a text with a slash in front names the same path for all who have the
same home. -/
theorem resolve_of_same_home {s' : Session} (hhome : s'.home = s.home)
    (h : (s.expandHome operand).toList.head? = some '/') : s'.resolve operand = s.resolve operand := by
  have hexpand : s'.expandHome operand = s.expandHome operand := by rw [expandHome, hhome, expandHome]
  have h' : (s'.expandHome operand).toList.head? = some '/' := by rw [hexpand, h]
  rw [resolve_of_rooted h, resolve_of_rooted h', hexpand]

/-- The text of a normal path names it, whatever session it is resolved in. -/
theorem resolve_toString (s : Session) (hp : p.IsNormal) : s.resolve p.toString = p := by
  have htilde : p.toString.toList.head? ≠ some '~' := by
    rw [hp.isWritten.rooted]
    decide
  rw [resolve, s.expandHome_of_head? htilde, Path.parse_toString hp.named,
    Path.join_of_isAbsolute hp.absolute]

/-- Each `..` stays, those of the working directory and those of the operand. -/
theorem count_resolve (s : Session) (operand : String) :
    (s.resolve operand).names.count ".." =
      (if (s.expandHome operand).toList.head? = some '/' then 0 else s.cwd.names.count "..") +
        ((s.expandHome operand).toList.splitOn '/').count ['.', '.'] := by
  rw [← Path.count_namesIn _ ['.', '.'] (by decide)]
  split
  · rename_i hrooted
    rw [resolve_of_rooted hrooted, Nat.zero_add]
  · rename_i hrooted
    rw [resolve_of_not_rooted hrooted, List.count_append]

/-- **What an operand names.** From a normal working directory it is a normal path: its text has
slashes and dots only where the text of such a path has them, and that text names it again in any
session. If what the operand expands to starts with a slash, then that alone says which path it is; else
it is the working directory with the operand's names behind it. Each `..` stays. -/
theorem resolve_normalises {s : Session} (hcwd : s.cwd.IsNormal) (operand : String) :
    (s.resolve operand).IsNormal ∧ Path.IsWritten (s.resolve operand).toString ∧
      (∀ s' : Session, s'.resolve (s.resolve operand).toString = s.resolve operand) ∧
      ∃ text, Expands s.home operand text ∧
        (text.toList.head? = some '/' →
          s.resolve operand = ⟨Path.rootOf text, Path.namesIn text⟩ ∧
            ∀ s' : Session, s'.home = s.home → s'.resolve operand = s.resolve operand) ∧
        (text.toList.head? ≠ some '/' →
          s.resolve operand = ⟨s.cwd.anchor, s.cwd.names ++ Path.namesIn text⟩) ∧
        (s.resolve operand).names.count ".." =
          (if text.toList.head? = some '/' then 0 else s.cwd.names.count "..") +
            (text.toList.splitOn '/').count ['.', '.'] := by
  have hnormal := isNormal_resolve hcwd operand
  refine ⟨hnormal, hnormal.isWritten, fun s' => s'.resolve_toString hnormal, s.expandHome operand,
    expands_iff.2 rfl, fun hrooted => ?_, resolve_of_not_rooted, s.count_resolve operand⟩
  exact ⟨resolve_of_rooted hrooted, fun s' hhome => resolve_of_same_home hhome hrooted⟩

/-- A session that stands below a root of two slashes, which is its home too. -/
def slashSession : Session :=
  { cwd := ⟨.doubleRoot, ["srv", ".."]⟩, home := "//", settings := { historyFile := "" } }

theorem slashSession_isNormal : slashSession.cwd.IsNormal :=
  ⟨rfl, by simp [slashSession, Path.Named, Path.isName]⟩

/-- Two slashes at the start of a path stay, and the three that come of a home and an operand are
one. -/
theorem resolve_normalises_of_slashes :
    slashSession.cwd.IsNormal ∧
      (slashSession.resolve "a//./../b/").toString = "//srv/../a/../b" ∧
      Path.IsWritten "//srv/../a/../b" ∧
      (∀ s' : Session, s'.resolve "//srv/../a/../b" = slashSession.resolve "a//./../b/") ∧
      slashSession.resolve "a//./../b/" = ⟨.doubleRoot, ["srv", ".."] ++ ["a", "..", "b"]⟩ ∧
      (slashSession.resolve "a//./../b/").names.count ".." = 1 + 1 ∧
      ∀ s' : Session, s'.home = "//" → s'.resolve "~/.//etc/.." = ⟨.root, ["etc", ".."]⟩ := by
  have htext : (slashSession.resolve "a//./../b/").toString = "//srv/../a/../b" := by decide
  obtain ⟨-, hwritten, hagain, text, hexpands, -, hbelow, hcount⟩ :=
    resolve_normalises slashSession_isNormal "a//./../b/"
  obtain rfl : "a//./../b/" = text := expands_iff.1 hexpands
  obtain ⟨-, -, -, rooted, hexpands', hrooted, -⟩ :=
    resolve_normalises slashSession_isNormal "~/.//etc/.."
  obtain rfl : "///.//etc/.." = rooted := expands_iff.1 hexpands'
  rw [htext] at hwritten hagain
  obtain ⟨hpath, hsame⟩ := hrooted (by rfl)
  refine ⟨slashSession_isNormal, htext, hwritten, hagain, (hbelow (by decide)).trans (by rfl),
    hcount.trans (by rfl), fun s' hhome => (hsame s' hhome).trans (hpath.trans (by rfl))⟩

end Session

namespace FileSystem

/-- What a path with a slash in front leads to is not up to the one who looks. -/
theorem find_of_rooted {fs : FileSystem} {path : String} (h : path.toList.head? = some '/')
    (cwd cwd' : Path) (ending : Ending) : fs.find cwd ending path = fs.find cwd' ending path := by
  unfold find
  rw [Path.startsAtRoot_iff.2 h]
  rfl

end FileSystem

/-- **A host opens what an operand names**, wherever it stands itself. -/
theorem Host.Machine.openPath_resolve {S : Type} {m : Machine S} {s : Session} {cwd cwd' : Path}
    (hcwd : s.cwd.IsNormal) (operand : String) (mode : OpenMode) :
    m.openPath cwd (s.resolve operand).toString mode =
      m.openPath cwd' (s.resolve operand).toString mode := by
  have hrooted := (Session.isNormal_resolve hcwd operand).isWritten.rooted
  unfold openPath FileSystem.openReading FileSystem.openWriting FileSystem.lookup
  simp only [FileSystem.find_of_rooted hrooted cwd cwd']

end LineShell
