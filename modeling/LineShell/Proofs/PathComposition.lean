import Mathlib
import LineShell.Proofs.LinkCache
import LineShell.Proofs.DirectoryChange
import LineShell.Startup

namespace LineShell

open Shell Host

/-!
# Changes of the working directory one after another

* `Path.namesOf_append_slash`, `Session.names_resolve_append` — the names of an operand in two parts;
* `FileSystem.canonical_append` — a path behind a canonical path, and both in one;
* `changeDirectory_moved` — what a change of the working directory that was made says about the files;
* `changeDirectory_composes` — two changes that are made one after the other can be made in one.
-/

/-! ### Operands in two parts -/

namespace Path

variable {cs ds : List Char}

theorem segments_ne_nil (cs : List Char) : segments cs ≠ [] := by
  rw [segments_eq_splitOn]
  exact List.splitOn_ne_nil '/' cs

/-- A slash always ends a part. -/
theorem segments_append_slash (cs ds : List Char) :
    segments (cs ++ '/' :: ds) = segments cs ++ segments ds := by
  simp only [segments_eq_splitOn]
  exact List.splitOn_append_cons_self cs ds

theorem namesOf_append_slash (cs ds : List Char) :
    namesOf (cs ++ '/' :: ds) = namesOf cs ++ namesOf ds := by
  rw [namesOf, segments_append_slash, List.filter_append, List.map_append]
  rfl

/-- Where a text starts is up to its first character. -/
theorem isAbsolute_parse (s : String) : (parse s).isAbsolute = startsAtRoot s := by
  unfold isAbsolute parse startsAtRoot
  rcases hletters : s.toList with _ | ⟨c, cs⟩
  · rfl
  · by_cases hslash : c = '/'
    · subst hslash
      unfold anchorOf
      split <;> simp_all
    · unfold anchorOf
      split <;> simp_all

end Path

namespace Session

variable {s : Session} {operand : String}

/-- What stands behind an operand is not expanded. -/
theorem expandHome_append (s : Session) (h : operand ≠ "") (rest : String) :
    s.expandHome (operand ++ rest) = s.expandHome operand ++ rest := by
  rcases hletters : operand.toList with _ | ⟨c, cs⟩
  · exact absurd (String.toList_eq_nil_iff.1 hletters) h
  · have htext : (operand ++ rest).toList = c :: (cs ++ rest.toList) := by
      rw [String.toList_append, hletters, List.cons_append]
    unfold expandHome
    rw [hletters, htext]
    by_cases htilde : c = '~'
    · subst htilde
      simp [String.append_assoc]
    · split
      · simp_all
      · split
        · simp_all
        · rfl

theorem expandHome_ne_empty (hhome : s.home ≠ "") (h : operand ≠ "") : s.expandHome operand ≠ "" := by
  unfold expandHome
  split
  · intro hempty
    exact hhome (String.append_eq_empty_iff.1 hempty).1
  · exact h

/-- What does not start with a tilde stands for itself. -/
theorem expandHome_of_head? (s : Session) (h : operand.toList.head? ≠ some '~') :
    s.expandHome operand = operand := by
  unfold expandHome
  split
  · simp_all
  · rfl

/-- The names behind a slash come behind those of what stands before it. -/
theorem names_resolve_append (hhome : s.home ≠ "") (h : operand ≠ "") (rest : String) :
    (s.resolve (operand ++ "/" ++ rest)).names =
      (s.resolve operand).names ++ Path.namesOf rest.toList := by
  have hexpanded := s.expandHome_append h ("/" ++ rest)
  rw [← String.append_assoc] at hexpanded
  have hne := expandHome_ne_empty hhome h
  unfold resolve
  rw [hexpanded]
  generalize s.expandHome operand = text at hne
  have hletters : (text ++ ("/" ++ rest)).toList = text.toList ++ '/' :: rest.toList := by
    rw [String.toList_append, String.toList_append]
    rfl
  have hnames : (Path.parse (text ++ ("/" ++ rest))).names =
      (Path.parse text).names ++ Path.namesOf rest.toList := by
    unfold Path.parse
    rw [hletters]
    exact Path.namesOf_append_slash text.toList rest.toList
  have habsolute : (Path.parse (text ++ ("/" ++ rest))).isAbsolute = (Path.parse text).isAbsolute := by
    rw [Path.isAbsolute_parse, Path.isAbsolute_parse, Path.startsAtRoot, Path.startsAtRoot, hletters]
    rcases hcs : text.toList with _ | ⟨c, cs⟩
    · exact absurd (String.toList_eq_nil_iff.1 hcs) hne
    · rfl
  unfold Path.join
  rw [habsolute]
  split
  · exact hnames
  · rw [hnames, List.append_assoc]

/-- So do the names of a relative operand behind those of the working directory. -/
theorem names_resolve_of_relative (hroot : operand.toList.head? ≠ some '/')
    (htilde : operand.toList.head? ≠ some '~') :
    (s.resolve operand).names = s.cwd.names ++ Path.namesOf operand.toList := by
  have habsolute : (Path.parse operand).isAbsolute = false := by
    rw [Path.isAbsolute_parse, Path.startsAtRoot]
    simpa using hroot
  rw [resolve, s.expandHome_of_head? htilde, Path.join, habsolute]
  rfl

end Session

theorem Path.mem_intercalate {names : List String} {name : String} {c : Char} (hname : name ∈ names)
    (hc : c ∈ name.toList) : c ∈ ("/".intercalate names).toList := by
  induction names with
  | nil => cases hname
  | cons first rest ih =>
    rcases rest with _ | ⟨next, rest⟩
    · rw [List.mem_singleton.1 hname] at hc
      rwa [String.intercalate_singleton]
    · rw [Path.intercalate_cons]
      rcases List.mem_cons.1 hname with rfl | hname
      · exact List.mem_append_left _ hc
      · exact List.mem_append_right _ (.tail _ (ih hname))

/-- The names of a path whose text has no NUL have none. -/
theorem Path.nulFree_of_toString {p : Path} (h : Machine.hasNul p.toString = false) :
    Path.NulFree p.names := by
  intro name hname hnul
  have hmem : nul ∈ p.toString.toList := by
    unfold Path.toString
    split
    · rename_i hnothing
      rw [hnothing.2] at hname
      cases hname
    · rw [String.toList_append]
      exact List.mem_append_right _ (Path.mem_intercalate hname hnul)
  rw [Machine.hasNul, List.contains_iff_mem.2 hmem] at h
  cases h

theorem Environment.expandHome_ne_empty (env : Environment) {path : String} (h : path ≠ "") :
    env.expandHome path ≠ "" := by
  unfold Environment.expandHome
  split
  · split
    · exact h
    · split
      · decide
      · rename_i hne
        intro hempty
        exact hne (by simpa using congrArg String.toList hempty)
  · exact h

/-- The home directory of a session that the interpreter starts with has a name. -/
theorem Startup.home_session_ne_empty (s : Startup) (settings : Settings) :
    (s.session settings).home ≠ "" :=
  s.environment.expandHome_ne_empty (show "~" ≠ "" by decide)

/-! ### Canonical paths in two parts -/

namespace FileSystem

variable {fs : FileSystem} {path path' both q r : Path} {names : List String}

/-- Without a link that leads back to itself, a canonical path is what following the links comes to. -/
theorem canonical_resolved (hresolves : fs.resolves path = true) (hq : fs.canonical path = .ok q) :
    (fs.resolveLinks fs.nodes.size [] (path.names.map String.toList) []).1 = ⟨q, true⟩ := by
  obtain ⟨hpath, hclear⟩ := (resolveLinks_clear fs fs.nodes.size []
    (path.names.map String.toList) [] clear_nil fun _ _ => nofun).path hresolves
  have hlexical := lexical_of_upwards hclear.upwards
  rw [← hpath] at hlexical
  unfold canonical at hq
  simp only [hlexical] at hq
  have hcome : (fs.resolveLinks fs.nodes.size [] (path.names.map String.toList) []).1.path = q := by
    split at hq
    · split at hq <;> cases hq
      rfl
    · cases hq
      rfl
  rw [← hcome, ← hresolves]
  rfl

/-- A path's canonical path is up to what following its links comes to. -/
theorem canonical_congr
    (h : (fs.resolveLinks fs.nodes.size [] (path.names.map String.toList) []).1 =
      (fs.resolveLinks fs.nodes.size [] (path'.names.map String.toList) []).1) :
    fs.canonical path = fs.canonical path' := by
  simp only [canonical, h]

/-- **Canonical paths** of what stands behind a path and behind its canonical path are the same. -/
theorem canonical_append (hnames : Path.Named path.names) (hresolves : fs.resolves path = true)
    (hq : fs.canonical path = .ok q) (hpath' : path'.names = q.names ++ names)
    (hresolves' : fs.resolves path' = true) (hboth : both.names = path.names ++ names) :
    fs.canonical both = fs.canonical path' := by
  obtain ⟨hroot, hclear⟩ := canonical_clear hresolves hq
  have hresolved := canonical_resolved hresolves hq
  -- the path has left something known, which none of its links is being found out of any more
  have hcloses := resolveLinks_closes fs fs.nodes.size [] (path.names.map String.toList) []
    (fun _ _ _ _ _ => nofun) hresolves
  have hcovers : Covers fs [] (fs.resolveLinks fs.nodes.size [] (path.names.map String.toList) []).2 :=
    ⟨fun _ _ => nofun, hcloses.pending, hcloses.closed⟩
  -- the canonical path leads to itself, and nothing is found out on the way
  have hthrough : Through fs [] [] (q.names.map String.toList) q.names :=
    Clear.through hclear (canonical_isPlain hnames hq).named
  have hself : fs.resolveLinks fs.nodes.size [] (q.names.map String.toList) [] =
      (⟨⟨.root, q.names⟩, true⟩, []) :=
    resolveLinks_of_through hthrough _
  have hbehind : fs.resolveLinks fs.nodes.size [] (path'.names.map String.toList) [] =
      fs.resolveLinks fs.nodes.size q.names (names.map String.toList) [] := by
    rw [hpath', List.map_append, resolveLinks_append fs _ _ _ _ _ (by rw [hself]), hself]
  refine canonical_congr ?_
  rw [hboth, List.map_append, resolveLinks_append fs _ _ _ _ _ hresolves, hresolved, hbehind]
  unfold resolves at hresolves'
  rw [hbehind] at hresolves'
  exact (resolveLinks_covered fs _ _ _ _ _ hcovers hresolves').1

end FileSystem

/-! ### Changes of the working directory -/

variable {S : Type} {m m' : Machine S} {s s' : Session} {command : Command} {es : Trace}

/-- Where a directory is, the session is moved, and no more than a word is logged about it. -/
theorem moveTo_logs (h : Host S) {q : Path} {target : String} {o : Outcome Result} {t : Trace}
    (hthere : m.files.isDirectory m.cwd q.toString = .ok true)
    (hrun : moveTo target q h.kernel.traced ⟨s, (m, t)⟩ = (o, ⟨s', (m', es)⟩)) :
    ∃ record, m' = m.log record := by
  have hask : RunsTo h.kernel (isDirectory q) s m (.returned true) m
      [⟨.isDirectory q, .returned true⟩] := .ask (answer_isDirectory h hthere)
  let record : Record := ⟨.debug, .directories, "cd " ++ s.cwd.toString ++ " -> " ++ q.toString⟩
  have hmoves : moveTo target q h.kernel.traced ⟨s, (m, t)⟩ =
      (.returned moved, ⟨{ s with cwd := q }, (m.log record,
        (t ++ [⟨.isDirectory q, .returned true⟩]) ++ [⟨.log record, .returned ()⟩])⟩) := by
    rw [moveTo, bind_run, hask t]
    rfl
  rw [hmoves] at hrun
  have hworld : m.log record = m' := congrArg (fun r => r.2.outside.1) hrun
  exact ⟨record, hworld.symm⟩

/-- Whoever logs something leaves the files and their names as they were. -/
theorem Host.Machine.log_files (m : Machine S) (r : Record) :
    (m.log r).files = m.files ∧ (m.log r).cwd = m.cwd := by
  unfold Machine.log
  split <;> exact ⟨rfl, rfl⟩

/-- The system does not even look for a path with a NUL. -/
theorem answer_canonical_of_nul (h : Host S) {p : Path} (hnul : Machine.hasNul p.toString = true) :
    h.kernel.answer (.canonical p) m = (.raised .embeddedNul, m) := by
  change h.answer (.canonical p) m = _
  simp only [answer, hnul, if_true]

/-- **A change of the working directory that was made** says that its path has a canonical one, that a
directory is there, and that the session stands there now. No more than a word is logged about it. -/
theorem changeDirectory_moved (h : Host S)
    (hrun : changeDirectory command h.kernel.traced ⟨s, (m, [])⟩ =
      (.returned moved, ⟨s', (m', es)⟩)) :
    ∃ q, Machine.hasNul (named s command).toString = false ∧
      m.files.canonical (named s command) = .ok q ∧
      m.files.isDirectory m.cwd q.toString = .ok true ∧
      s' = { s with cwd := q } ∧ ∃ record, m' = m.log record := by
  by_cases hnul : Machine.hasNul (named s command).toString = true
  · have hask : RunsTo h.kernel (canonical (named s command)) s m (.raised .embeddedNul) m
        [⟨.canonical (named s command), .raised .embeddedNul⟩] :=
      .ask (answer_canonical_of_nul h hnul)
    have hunreachable : ¬ isUnreachable .embeddedNul = true := by decide
    rw [changeDirectory_start h hask.attempt_raised, arrive, if_neg hunreachable] at hrun
    have houtcome := congrArg Prod.fst hrun
    cases houtcome
  · have hnul : Machine.hasNul (named s command).toString = false := by simpa using hnul
    obtain ⟨o, s₁, m₁, es₁, hrun₁, -, hcame⟩ := changeDirectory_runs (s := s) (m := m) h hnul
    rw [hrun] at hrun₁
    obtain ⟨rfl, hworld⟩ := Prod.mk.inj hrun₁
    obtain rfl : s' = s₁ := congrArg (·.session) hworld
    cases hcame with
    | @moved q _ hcanonical hthere _ =>
      have hask : RunsTo h.kernel (canonical (named s command)) s m (.returned q) m
          [⟨.canonical (named s command), .returned q⟩] := .ask (answer_canonical h hnul hcanonical)
      rw [changeDirectory_start h hask.attempt] at hrun
      exact ⟨q, hnul, hcanonical, hthere, rfl, moveTo_logs h hthere hrun⟩

/-- One whose path has a canonical one, with a directory there, is made. -/
theorem changeDirectory_leads (h : Host S) {q : Path}
    (hnul : Machine.hasNul (named s command).toString = false)
    (hq : m.files.canonical (named s command) = .ok q)
    (hthere : m.files.isDirectory m.cwd q.toString = .ok true) :
    ∃ m' es, changeDirectory command h.kernel.traced ⟨s, (m, [])⟩ =
      (.returned moved, ⟨{ s with cwd := q }, (m', es)⟩) := by
  obtain ⟨o, s', m', es, hrun, -, hcame⟩ := changeDirectory_runs (s := s) (m := m) h hnul
  obtain ⟨rfl, rfl, -⟩ := hcame.of_directory hq hthere
  exact ⟨m', es, hrun⟩

/-- **Changes of the working directory compose.** If one leads somewhere and then one by a relative
operand leads on from there, without a link that leads back to itself on either way, then one by the
two operands with a slash between them leads from where the first one began to where the second one
ended, and leaves the session as the two of them do. -/
theorem changeDirectory_composes {S : Type} (h : Host S) {m m₁ m₂ : Machine S}
    {s s₁ s₂ : Session} {es₁ es₂ : Trace} {a b : String} (hcwd : Path.Named s.cwd.names)
    (hhome : s.home ≠ "") (ha : a ≠ "") (hroot : b.toList.head? ≠ some '/')
    (htilde : b.toList.head? ≠ some '~')
    (hloops : m.files.resolves (named s ⟨"cd", [a]⟩) = true)
    (hloops₁ : m.files.resolves (named s₁ ⟨"cd", [b]⟩) = true)
    (hrun : changeDirectory ⟨"cd", [a]⟩ h.kernel.traced ⟨s, (m, [])⟩ =
      (.returned moved, ⟨s₁, (m₁, es₁)⟩))
    (hrun₁ : changeDirectory ⟨"cd", [b]⟩ h.kernel.traced ⟨s₁, (m₁, [])⟩ =
      (.returned moved, ⟨s₂, (m₂, es₂)⟩)) :
    ∃ m' es, changeDirectory ⟨"cd", [a ++ "/" ++ b]⟩ h.kernel.traced ⟨s, (m, [])⟩ =
      (.returned moved, ⟨s₂, (m', es)⟩) := by
  obtain ⟨q, hnul, hq, -, rfl, record, rfl⟩ := changeDirectory_moved h hrun
  obtain ⟨r, hnul₁, hr, hthere, rfl, -⟩ := changeDirectory_moved h hrun₁
  rw [(m.log_files record).1] at hr hthere
  rw [(m.log_files record).2] at hthere
  -- both operands' names, and those of the two in one
  have hnames₁ : (named { s with cwd := q } ⟨"cd", [b]⟩).names = q.names ++ Path.namesOf b.toList := by
    unfold named destination
    rw [List.headD_cons, Session.expandHome_of_head? _ htilde]
    exact Session.names_resolve_of_relative hroot htilde
  have hnames : (named s ⟨"cd", [a ++ "/" ++ b]⟩).names =
      (named s ⟨"cd", [a]⟩).names ++ Path.namesOf b.toList := by
    have hexpanded := s.expandHome_append ha ("/" ++ b)
    rw [← String.append_assoc, ← String.append_assoc] at hexpanded
    unfold named destination
    rw [List.headD_cons, List.headD_cons, hexpanded]
    exact Session.names_resolve_append hhome (Session.expandHome_ne_empty hhome ha) b
  have hcanonical : m.files.canonical (named s ⟨"cd", [a ++ "/" ++ b]⟩) = .ok r :=
    (FileSystem.canonical_append (Session.named_resolve hcwd _) hloops hq hnames₁ hloops₁ hnames).trans
      hr
  have hfree : Machine.hasNul (named s ⟨"cd", [a ++ "/" ++ b]⟩).toString = false := by
    refine Path.hasNul_toString ?_
    have hfree₁ := Path.nulFree_of_toString hnul₁
    rw [hnames₁] at hfree₁
    rw [hnames]
    intro name hname
    rcases List.mem_append.1 hname with hname | hname
    · exact Path.nulFree_of_toString hnul name hname
    · exact hfree₁ name (List.mem_append_right _ hname)
  exact changeDirectory_leads h hfree hcanonical hthere

/-- A machine with a directory inside another one, and a link that leads there from the root. -/
def nestedMachine : Machine Scripted :=
  { files := ⟨#[.directory FileSystem.root [("a", 1), ("link", 3)],
      .directory FileSystem.root [("b", 2)], .directory 1 [], .link "a/b"]⟩ }

theorem nestedMachine_linkAt :
    nestedMachine.files.linkAt? ["link"] = some "a/b" ∧
      nestedMachine.files.linkAt? ["a"] = none ∧ nestedMachine.files.linkAt? ["a", "b"] = none :=
  ⟨by cbv, by cbv, by cbv⟩

/-- The change to where the link leads, and the one from there to the directory above. -/
theorem resolveLinks_nested :
    (nestedMachine.files.resolveLinks 4 [] [['l', 'i', 'n', 'k']] []).1 = ⟨⟨.root, ["a", "b"]⟩, true⟩ ∧
      (nestedMachine.files.resolveLinks 4 [] [['a'], ['b'], ['.', '.']] []).1 =
        ⟨⟨.root, ["a"]⟩, true⟩ := by
  have htarget : Path.segments "a/b".toList = [['a'], ['b']] := by decide
  obtain ⟨hlink, ha, hb⟩ := nestedMachine_linkAt
  constructor
  · simp [FileSystem.resolveLinks, hlink, ha, hb, Path.isName, -String.reduceToList, htarget,
      Path.startsAtRoot]
  · simp [FileSystem.resolveLinks, ha, hb, Path.isName]

/-- The directory above where a link leads is not the one above the link, in one change and in two. -/
theorem changeDirectory_composes_of_nested : ∃ m' es,
    changeDirectory ⟨"cd", ["link/.."]⟩ idleHost.kernel.traced ⟨rootSession, (nestedMachine, [])⟩ =
      (.returned moved, ⟨{ rootSession with cwd := ⟨.root, ["a"]⟩ }, (m', es)⟩) := by
  let standing : Session := { rootSession with cwd := ⟨.root, ["a", "b"]⟩ }
  obtain ⟨hlink, habove⟩ := resolveLinks_nested
  have hnamed : named rootSession ⟨"cd", ["link"]⟩ = ⟨.root, ["link"]⟩ := by decide
  have hnamed₁ : named standing ⟨"cd", [".."]⟩ = ⟨.root, ["a", "b", ".."]⟩ := by decide
  have hq : nestedMachine.files.canonical (named rootSession ⟨"cd", ["link"]⟩) =
      .ok ⟨.root, ["a", "b"]⟩ := by
    have hlookup : nestedMachine.files.lookup ⟨.root, []⟩ true "/a/b" = .ok 2 := by cbv
    rw [hnamed]
    exact FileSystem.canonical_of_lookup (congrArg (·.path) hlink) (by decide) hlookup
  have hr : nestedMachine.files.canonical (named standing ⟨"cd", [".."]⟩) = .ok ⟨.root, ["a"]⟩ := by
    have hlookup : nestedMachine.files.lookup ⟨.root, []⟩ true "/a" = .ok 1 := by cbv
    rw [hnamed₁]
    exact FileSystem.canonical_of_lookup (congrArg (·.path) habove) (by decide) hlookup
  obtain ⟨m₁, es₁, hrun⟩ := changeDirectory_leads idleHost (by decide) hq
    (show nestedMachine.files.isDirectory nestedMachine.cwd "/a/b" = .ok true by cbv)
  obtain ⟨-, -, -, -, -, record, hm₁⟩ := changeDirectory_moved idleHost hrun
  obtain rfl : m₁ = nestedMachine := hm₁
  obtain ⟨m₂, es₂, hrun₁⟩ := changeDirectory_leads idleHost (by decide) hr
    (show nestedMachine.files.isDirectory nestedMachine.cwd "/a" = .ok true by cbv)
  have hloops : nestedMachine.files.resolves (named rootSession ⟨"cd", ["link"]⟩) = true := by
    rw [hnamed]
    exact congrArg (·.complete) hlink
  have hloops₁ : nestedMachine.files.resolves (named standing ⟨"cd", [".."]⟩) = true := by
    rw [hnamed₁]
    exact congrArg (·.complete) habove
  exact changeDirectory_composes idleHost (a := "link") (b := "..") Path.named_nil (by decide)
    (by decide) (by decide) (by decide) hloops hloops₁ hrun hrun₁

end LineShell
