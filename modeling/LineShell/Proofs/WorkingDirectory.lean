import Mathlib
import LineShell.Host.Answer
import LineShell.Host.Scripted
import LineShell.Proofs.CanonicalPaths
import LineShell.Proofs.SessionFrame

namespace LineShell

open Shell

/-!
# The working directory

Only a change of the working directory that was made moves a session.

* `Resolves` — a kernel whose canonical paths are those of file systems, and `Host.kernel_resolves`;
* `Reached` — the sessions that lines can lead to, whatever comes of them;
* `Stays` — what one line does about the working directory;
* `Reached.isPlain` — wherever a session has been led, its working directory is plain;
* `Reached.stays` — each line of such a session does so.
-/

variable {σ : Type} {k : Kernel σ} {s s' : Session}

/-! ### Canonical paths of a kernel -/

/-- Each canonical path that a kernel answers with is the one of some file system, which may be
another one each time. -/
def Resolves (k : Kernel σ) : Prop :=
  ∀ (p q : Path) (out out' : σ), k.answer (.canonical p) out = (.returned q, out') →
    ∃ fs : FileSystem, fs.canonical p = .ok q

namespace Host

variable {S : Type} {m : Machine S}

theorem answer_canonical (h : Host S) {p q : Path} (hnul : Machine.hasNul p.toString = false)
    (hq : m.files.canonical p = .ok q) : h.kernel.answer (.canonical p) m = (.returned q, m) := by
  change h.answer (.canonical p) m = _
  simp only [answer, hnul, Bool.false_eq_true, if_false, hq]

theorem answer_isDirectory (h : Host S) {p : Path} {there : Bool}
    (hthere : m.files.isDirectory m.cwd p.toString = .ok there) :
    h.kernel.answer (.isDirectory p) m = (.returned there, m) := by
  change h.answer (.isDirectory p) m = _
  simp only [answer, hthere]

end Host

/-- A host answers with the canonical paths of its files. -/
theorem Host.kernel_resolves {S : Type} (h : Host S) : Resolves h.kernel := by
  intro p q m m' hanswer
  change h.answer (.canonical p) m = (.returned q, m') at hanswer
  simp only [Host.answer] at hanswer
  split at hanswer
  · cases hanswer
  · split at hanswer
    · rename_i path hpath
      cases hanswer
      exact ⟨m.files, hpath⟩
    · cases hanswer

theorem Resolves.isPlain (h : Resolves k) {p q : Path} {out out' : σ} (hp : Path.Named p.names)
    (hanswer : k.answer (.canonical p) out = (.returned q, out')) : q.IsPlain := by
  obtain ⟨fs, hfs⟩ := h p q out out' hanswer
  exact FileSystem.canonical_isPlain hp hfs

/-- From a working directory with names such as a path has them, so has what an operand names. -/
theorem Session.named_resolve (h : Path.Named s.cwd.names) (operand : String) :
    Path.Named (s.resolve operand).names :=
  Path.named_join h (Path.named_namesOf _)

/-! ### One line -/

/-- What a line does about the working directory of a session. -/
structure Stays (text : String) (s : Session) (o : Outcome (Option Result)) (s' : Session)
    (es : Trace) : Prop where
  /-- The session is still there, unless the text is a change of the working directory that was
  made. -/
  moved : s'.cwd ≠ s.cwd → MovedBy text s o s' es
  /-- Processes are started there. -/
  spawned : ∀ argv cwd streams pid, ⟨.spawn argv cwd streams, pid⟩ ∈ es → cwd = s.cwd
  /-- Files are opened that operands of the line name as seen from there. -/
  opened : ∀ path mode file, ⟨.openFile path mode, file⟩ ∈ es →
    ∃ operand ∈ operandsOf text, path = (s.resolve operand).toString

theorem handleLine_stays (text : String) :
    Ensures k (handleLine text) s fun o s' es => Stays text s o s' es := by
  refine (handleLine_frames text).mono ?_
  rintro o s' es ⟨hseen, hmoved⟩
  refine ⟨fun hne => ?_, fun argv cwd streams pid he => ?_, fun path mode file he => ?_⟩
  · exact hmoved.resolve_left fun hgrown => hne hgrown.cwd
  · have hcwd : (cwd == s.cwd) = true := hseen _ he
    exact beq_iff_eq.1 hcwd
  · have hany : ((operandsOf text).any fun operand => path == (s.resolve operand).toString) = true :=
      hseen _ he
    obtain ⟨operand, hmem, heq⟩ := List.any_eq_true.1 hany
    exact ⟨operand, hmem, beq_iff_eq.1 heq⟩

/-- A line leads from a plain working directory to a plain one. -/
theorem handleLine_isPlain (hk : Resolves k) (hs : s.cwd.IsPlain) {text : String} {out out' : σ}
    {o : Outcome (Option Result)} {es : Trace}
    (hrun : handleLine text k.traced ⟨s, (out, [])⟩ = (o, ⟨s', (out', es)⟩)) :
    s'.cwd.IsPlain := by
  obtain ⟨hfollows, hstays⟩ := (handleLine_stays text).run hrun
  by_cases heq : s'.cwd = s.cwd
  · rwa [heq]
  · obtain ⟨line, -, -, -, path, before, after, hs', hes⟩ := hstays.moved heq
    -- the kernel has answered with the new directory, so it is a canonical path
    rw [hes] at hfollows
    obtain ⟨mid, -, hfollows⟩ := Kernel.follows_append.1 hfollows
    obtain ⟨mid', hanswer, -⟩ := hfollows
    rw [hs']
    exact hk.isPlain (Session.named_resolve hs.named _) hanswer

/-! ### Lines one after another -/

/-- The sessions that can be reached with a kernel. A line may end in any way, and between lines the
surroundings may change as they like, and so may all of a session but its working directory. -/
inductive Reached (k : Kernel σ) : Session → Prop
  /-- A session that is created in a directory which an absolute path names. -/
  | created {s : Session} {text : String} {out out' : σ} : Path.startsAtRoot text = true →
    k.answer (.canonical (Path.parse text)) out = (.returned s.cwd, out') → Reached k s
  /-- A session that is created in the directory that the interpreter was started in, which the system
  names by a plain path. -/
  | started {s : Session} : s.cwd.IsPlain → Reached k s
  | line {s : Session} (text : String) (out : σ) : Reached k s →
    Reached k (handleLine text k.traced ⟨s, (out, [])⟩).2.session
  | meanwhile {s s' : Session} : Reached k s → s'.cwd = s.cwd → Reached k s'

/-- Wherever lines have led a session, its working directory is plain. -/
theorem Reached.isPlain (hk : Resolves k) (h : Reached k s) : s.cwd.IsPlain := by
  induction h with
  | created _ hanswer => exact hk.isPlain (Path.named_namesOf _) hanswer
  | started hplain => exact hplain
  | line text out _ ih => exact handleLine_isPlain hk ih (run_eta _)
  | meanwhile _ hcwd ih => rwa [hcwd]

/-- **The working directory.** Whatever has come of the lines before, a session stands in a plain
directory before and after a line. It stays there unless the line is a change of the working directory
that was made, to where it was told that a directory is. All that the line starts and opens is seen
from where the session stood before it. -/
theorem Reached.stays (hk : Resolves k) (hs : Reached k s) {text : String} {out out' : σ}
    {o : Outcome (Option Result)} {es : Trace}
    (hrun : handleLine text k.traced ⟨s, (out, [])⟩ = (o, ⟨s', (out', es)⟩)) :
    s.cwd.IsPlain ∧ s'.cwd.IsPlain ∧ Stays text s o s' es := by
  have hplain := hs.isPlain hk
  exact ⟨hplain, handleLine_isPlain hk hplain hrun, ((handleLine_stays text).run hrun).2⟩

/-- A host without programs. -/
def idleHost : Host Host.Scripted where
  programs := Host.Scripted.programs []
  patience := 4

/-- A machine with a directory at its root, and a link that leads there on a way of its own. -/
def linkedMachine : Host.Machine Host.Scripted :=
  { files := ⟨#[.directory FileSystem.root [("d", 1), ("up", 2)], .directory FileSystem.root [],
      .link "d/.././d"]⟩ }

theorem linkedMachine_linkAt :
    linkedMachine.files.linkAt? ["up"] = some "d/.././d" ∧
      linkedMachine.files.linkAt? ["d"] = none :=
  ⟨by cbv, by cbv⟩

/-- The link leads to the directory. -/
theorem canonical_up : idleHost.kernel.answer (.canonical ⟨.root, ["up"]⟩) linkedMachine =
    (.returned ⟨.root, ["d"]⟩, linkedMachine) := by
  have htarget : Path.segments "d/.././d".toList = [['d'], ['.', '.'], ['.'], ['d']] := by decide
  have hresolved : (linkedMachine.files.resolveLinks 3 [] [['u', 'p']] []).1.path =
      ⟨.root, ["d"]⟩ := by
    simp [FileSystem.resolveLinks, linkedMachine_linkAt, Path.isName, -String.reduceToList, htarget,
      Path.startsAtRoot]
  have hlookup : linkedMachine.files.lookup ⟨.root, []⟩ true "/d" = .ok 1 := by cbv
  exact Host.answer_canonical _ (by decide)
    (FileSystem.canonical_of_lookup hresolved (by decide) hlookup)

/-- The directory above it is the root. -/
theorem canonical_above : idleHost.kernel.answer (.canonical ⟨.root, ["d", ".."]⟩) linkedMachine =
    (.returned ⟨.root, []⟩, linkedMachine) := by
  have hresolved : (linkedMachine.files.resolveLinks 3 [] [['d'], ['.', '.']] []).1.path =
      ⟨.root, []⟩ := by
    simp [FileSystem.resolveLinks, linkedMachine_linkAt, Path.isName]
  have hlookup : linkedMachine.files.lookup ⟨.root, []⟩ true "/" = .ok 0 := by cbv
  exact Host.answer_canonical _ (by decide)
    (FileSystem.canonical_of_lookup hresolved (by decide) hlookup)

theorem isDirectory_root : idleHost.kernel.answer (.isDirectory ⟨.root, []⟩) linkedMachine =
    (.returned true, linkedMachine) := by
  have hthere : linkedMachine.files.isDirectory linkedMachine.cwd "/" = .ok true := by cbv
  exact Host.answer_isDirectory _ hthere

/-- A session that was created where the link leads. -/
def linkedSession : Session := { cwd := ⟨.root, ["d"]⟩, home := "/", settings := { historyFile := "" } }

/-- The line `cd ..`, run by it. -/
def linkedRun : Outcome (Option Result) × World (Host.Machine Host.Scripted × Trace) :=
  handleLine "cd .." idleHost.kernel.traced ⟨linkedSession, (linkedMachine, [])⟩

/-- It moves the session from the directory to the root. -/
theorem Reached.stays_of_linked :
    linkedRun.1 = .returned (some moved) ∧ linkedRun.2.session.cwd = ⟨.root, []⟩ ∧
      linkedSession.cwd.IsPlain ∧ linkedRun.2.session.cwd.IsPlain ∧
        Stays "cd .." linkedSession linkedRun.1 linkedRun.2.session linkedRun.2.outside.2 := by
  have hreached : Reached idleHost.kernel linkedSession :=
    .created (show Path.startsAtRoot "/up" = true by decide) canonical_up
  have hparse : CommandLine.parse "cd .." = .ok (some { first := ⟨"cd", [".."]⟩ }) := by rfl
  have hresolve : linkedSession.resolve (linkedSession.expandHome "..") = ⟨.root, ["d", ".."]⟩ := by
    decide
  have hlog : ∀ r, idleHost.kernel.answer (.log r) linkedMachine = (.returned (), linkedMachine) :=
    fun _ => rfl
  have hrun : linkedRun.1 = .returned (some moved) ∧
      linkedRun.2.session.cwd = ⟨.root, []⟩ := by
    simp [linkedRun, handleLine, hparse, execute, CommandLine.isChangeDirectory, changeDirectory,
      moveTo, Shell.bind_run, ask, attempt, Kernel.traced, hresolve, hlog, canonical_above,
      isDirectory_root]
    exact ⟨rfl, rfl⟩
  exact ⟨hrun.1, hrun.2, hreached.stays (Host.kernel_resolves idleHost) (run_eta linkedRun)⟩

end LineShell
