import Mathlib
import LineShell.Proofs.LinkFree
import LineShell.Proofs.Targets
import LineShell.Proofs.NulFree
import LineShell.Proofs.WorkingDirectory

namespace LineShell

open Shell Host

/-!
# Changes of the working directory

What comes of a change of the working directory on a host, whatever its files are.

* `changeDirectory_runs` — the four ways in which it can go on;
* `Settled` — the change has been made, or it has been refused with one word about it;
* `changeDirectory_settles` — it is settled just if nothing is too long on the way and the canonical
  path is a direct one, which it is unless a link leads back to itself;
* `changeDirectory_raises` — a name that is too long ends the run.
-/

variable {S : Type} {m : Machine S} {s : Session} {command : Command}

/-- The path that a change of the working directory names. -/
def named (s : Session) (command : Command) : Path := s.resolve (destination s command)

/-! ### How it goes on -/

/-- What is done when it is known whether a path has a canonical one. -/
def arrive {σ : Type} (target : String) : Except Fault Path → Shell σ Result
  | .ok path => moveTo target path
  | .error f =>
    if isUnreachable f then do
      report ("cd: cannot access directory: " ++ f.message)
      return { exitCode := some 1, failure := some .io }
    else raise f

theorem changeDirectory_eq {σ : Type} (command : Command) :
    (changeDirectory command : Shell σ Result) = (do
      let s ← session
      let found ← (canonical (named s command)).attempt
      arrive (destination s command) found) := by
  unfold changeDirectory arrive
  rfl

/-- A path whose links lead around in a circle is the only one that has no canonical path. -/
theorem FileSystem.linkLoop_of_canonical {fs : FileSystem} {path : Path} {f : Fault}
    (h : fs.canonical path = .error f) : ∃ text, f = .linkLoop text := by
  simp only [canonical] at h
  split at h
  · split at h <;> cases h
    exact ⟨_, rfl⟩
  · cases h

/-- What has come of a change of the working directory, and of the session. -/
inductive Came (m : Machine S) (s : Session) (command : Command) :
    Outcome Result → Session → Trace → Prop
  | unreachable {text : String} {es : Trace} :
    m.files.canonical (named s command) = .error (.linkLoop text) →
    es.reports = ["cd: cannot access directory: " ++ (Fault.linkLoop text).message] →
    Came m s command (.returned { exitCode := some 1, failure := some .io }) s es
  | moved {q : Path} {es : Trace} : m.files.canonical (named s command) = .ok q →
    m.files.isDirectory m.cwd q.toString = .ok true → es.reports = [] →
    Came m s command (.returned { exitCode := some 0 }) { s with cwd := q } es
  | missing {q : Path} {es : Trace} : m.files.canonical (named s command) = .ok q →
    m.files.isDirectory m.cwd q.toString = .ok false →
    es.reports = ["cd: directory not found: " ++ destination s command] →
    Came m s command (.returned { exitCode := some 1, failure := some .notFound }) s es
  | failed {q : Path} {e : Nat} {es : Trace} : m.files.canonical (named s command) = .ok q →
    m.files.isDirectory m.cwd q.toString = .error e → es.reports = [] →
    Came m s command (.raised (.system e (some q.toString))) s es

section

variable {q : Path} {o : Outcome Result} {s' : Session} {es : Trace}

/-- Where a directory is, the session is moved. -/
theorem Came.of_directory (h : Came m s command o s' es)
    (hq : m.files.canonical (named s command) = .ok q)
    (hthere : m.files.isDirectory m.cwd q.toString = .ok true) :
    o = .returned { exitCode := some 0 } ∧ s' = { s with cwd := q } ∧ es.reports = [] := by
  cases h with
  | unreachable hcanonical => cases hq.symm.trans hcanonical
  | moved hcanonical _ hreports =>
    cases hq.symm.trans hcanonical
    exact ⟨rfl, rfl, hreports⟩
  | missing hcanonical hmissing =>
    cases hq.symm.trans hcanonical
    cases hthere.symm.trans hmissing
  | failed hcanonical herror =>
    cases hq.symm.trans hcanonical
    cases hthere.symm.trans herror

/-- Where the system refuses the look for a directory, the fault is nobody's to catch. -/
theorem Came.of_error {e : Nat} (h : Came m s command o s' es)
    (hq : m.files.canonical (named s command) = .ok q)
    (herror : m.files.isDirectory m.cwd q.toString = .error e) :
    o = .raised (.system e (some q.toString)) ∧ s' = s ∧ es.reports = [] := by
  cases h with
  | unreachable hcanonical => cases hq.symm.trans hcanonical
  | moved hcanonical hthere | missing hcanonical hthere =>
    cases hq.symm.trans hcanonical
    cases herror.symm.trans hthere
  | failed hcanonical herror' hreports =>
    cases hq.symm.trans hcanonical
    cases herror.symm.trans herror'
    exact ⟨rfl, rfl, hreports⟩

end

theorem answer_canonical_raised (h : Host S) {p : Path} {f : Fault}
    (hnul : Machine.hasNul p.toString = false) (hp : m.files.canonical p = .error f) :
    h.kernel.answer (.canonical p) m = (.raised f, m) := by
  change h.answer (.canonical p) m = _
  simp only [answer, hnul, Bool.false_eq_true, if_false, hp]

theorem answer_isDirectory_raised (h : Host S) {p : Path} {e : Nat}
    (hp : m.files.isDirectory m.cwd p.toString = .error e) :
    h.kernel.answer (.isDirectory p) m = (.raised (.system e (some p.toString)), m) := by
  change h.answer (.isDirectory p) m = _
  simp only [answer, hp]

/-- A refusal is one report. -/
theorem refusal_runs (h : Host S) (text : String) (failure : Failure) (m : Machine S) : ∃ m',
    RunsTo h.kernel (report text >>= fun _ =>
      Pure.pure ({ exitCode := some 1, failure := some failure } : Result)) s m
      (.returned { exitCode := some 1, failure := some failure }) m' [⟨.report text, .returned ()⟩] := by
  have hreport : RunsTo h.kernel (report text) s m (.returned ())
      (m.writeErr (Text.encode (text ++ "\n"))) [⟨.report text, .returned ()⟩] := .ask rfl
  exact ⟨_, hreport.bind .pure⟩

theorem arrive_unreachable (h : Host S) (target text : String) (m : Machine S) : ∃ m',
    RunsTo h.kernel (arrive target (.error (.linkLoop text))) s m
      (.returned { exitCode := some 1, failure := some .io }) m'
      [⟨.report ("cd: cannot access directory: " ++ (Fault.linkLoop text).message),
        .returned ()⟩] := by
  have hloop : isUnreachable (.linkLoop text) = true := rfl
  rw [arrive, if_pos hloop]
  exact refusal_runs h _ .io m

variable {q : Path} {target : String}

theorem moveTo_missing (h : Host S) (hthere : m.files.isDirectory m.cwd q.toString = .ok false) :
    ∃ m', RunsTo h.kernel (moveTo target q) s m
      (.returned { exitCode := some 1, failure := some .notFound }) m'
      [⟨.isDirectory q, .returned false⟩,
        ⟨.report ("cd: directory not found: " ++ target), .returned ()⟩] := by
  have hask : RunsTo h.kernel (isDirectory q) s m (.returned false) m
      [⟨.isDirectory q, .returned false⟩] := .ask (answer_isDirectory h hthere)
  obtain ⟨m', hrefusal⟩ := refusal_runs (s := s) h ("cd: directory not found: " ++ target) .notFound m
  exact ⟨m', hask.bind hrefusal⟩

theorem moveTo_raises (h : Host S) {e : Nat}
    (hthere : m.files.isDirectory m.cwd q.toString = .error e) :
    RunsTo h.kernel (moveTo target q) s m (.raised (.system e (some q.toString))) m
      [⟨.isDirectory q, .raised (.system e (some q.toString))⟩] := by
  have hask : RunsTo h.kernel (isDirectory q) s m (.raised (.system e (some q.toString))) m
      [⟨.isDirectory q, .raised (.system e (some q.toString))⟩] :=
    .ask (answer_isDirectory_raised h hthere)
  exact hask.bind_raised

/-- Moving a session is all that is not done with it as it was. -/
theorem moveTo_moves (h : Host S) (hthere : m.files.isDirectory m.cwd q.toString = .ok true)
    (t : Trace) : ∃ m' record, moveTo target q h.kernel.traced ⟨s, (m, t)⟩ =
      (.returned { exitCode := some 0 }, ⟨{ s with cwd := q },
        (m', t ++ [⟨.isDirectory q, .returned true⟩, ⟨.log record, .returned ()⟩])⟩) := by
  have hask : RunsTo h.kernel (isDirectory q) s m (.returned true) m
      [⟨.isDirectory q, .returned true⟩] := .ask (answer_isDirectory h hthere)
  let record : Record := ⟨.debug, .directories, "cd " ++ s.cwd.toString ++ " -> " ++ q.toString⟩
  refine ⟨m.log record, record, ?_⟩
  have hsplit : t ++ [⟨.isDirectory q, .returned true⟩, ⟨.log record, .returned ()⟩] =
      (t ++ [⟨.isDirectory q, .returned true⟩]) ++ [⟨.log record, .returned ()⟩] := by
    simp
  rw [moveTo, bind_run, hask t, hsplit]
  rfl

/-- The first thing done is to look for the canonical path. -/
theorem changeDirectory_start (h : Host S) {found : Except Fault Path} {e : Event}
    (hfound : RunsTo h.kernel (canonical (named s command)).attempt s m (.returned found) m [e]) :
    changeDirectory command h.kernel.traced ⟨s, (m, [])⟩ =
      arrive (destination s command) found h.kernel.traced ⟨s, (m, [e])⟩ := by
  have hsession : (session : Shell (Machine S × Trace) Session) h.kernel.traced ⟨s, (m, [])⟩ =
      (.returned s, ⟨s, (m, [])⟩) := rfl
  rw [changeDirectory_eq, bind_run, hsession]
  simp only [bind_run, hfound [], List.nil_append]

theorem changeDirectory_runs (h : Host S) (hnul : Machine.hasNul (named s command).toString = false) :
    ∃ o s' m' es, changeDirectory command h.kernel.traced ⟨s, (m, [])⟩ = (o, ⟨s', (m', es)⟩) ∧
      es.attempts = [] ∧ Came m s command o s' es := by
  cases hcanonical : m.files.canonical (named s command) with
  | error f =>
    obtain ⟨text, rfl⟩ := FileSystem.linkLoop_of_canonical hcanonical
    have hask : RunsTo h.kernel (canonical (named s command)) s m (.raised (.linkLoop text)) m
        [⟨.canonical (named s command), .raised (.linkLoop text)⟩] :=
      .ask (answer_canonical_raised h hnul hcanonical)
    obtain ⟨m', hunreachable⟩ := arrive_unreachable (s := s) h (destination s command) text m
    exact ⟨_, _, m', _, (changeDirectory_start h hask.attempt_raised).trans (hunreachable _), rfl,
      .unreachable hcanonical rfl⟩
  | ok q =>
    have hask : RunsTo h.kernel (canonical (named s command)) s m (.returned q) m
        [⟨.canonical (named s command), .returned q⟩] := .ask (answer_canonical h hnul hcanonical)
    have hfound := changeDirectory_start h hask.attempt
    cases hthere : m.files.isDirectory m.cwd q.toString with
    | error e =>
      exact ⟨_, _, _, _, hfound.trans (moveTo_raises h hthere _), rfl, .failed hcanonical hthere rfl⟩
    | ok there =>
      cases there with
      | false =>
        obtain ⟨m', hmissing⟩ := moveTo_missing (s := s) h hthere
        exact ⟨_, _, m', _, hfound.trans (hmissing _), rfl, .missing hcanonical hthere rfl⟩
      | true =>
        obtain ⟨m', record, hmoves⟩ := moveTo_moves (s := s) h hthere _
        exact ⟨_, _, m', _, hfound.trans hmoves, rfl, .moved hcanonical hthere rfl⟩

/-! ### Whether it is settled -/

/-- A change of the working directory has been made, to a directory and by a path without links, and
nothing is said; or it has been refused with one word about it, and the session is as it was. -/
def Settled (fs : FileSystem) (s : Session) (o : Outcome Result) (s' : Session) (es : Trace) : Prop :=
  (o = .returned { exitCode := some 0 } ∧ es.reports = [] ∧
    ∃ q, s' = { s with cwd := q } ∧ fs.Direct q) ∨
  (∃ failure text, o = .returned { exitCode := some 1, failure := some failure } ∧
    s' = s ∧ es.reports = ["cd: " ++ text])

/-- Nothing is too long about where a change of the working directory leads, and if that is a
directory then the path to it has no links. -/
def Settles (m : Machine S) (s : Session) (command : Command) : Prop :=
  ∀ q, m.files.canonical (named s command) = .ok q →
    m.files.lookup m.cwd true q.toString ≠ .error Fault.nameTooLong ∧
      (m.files.isDirectory m.cwd q.toString = .ok true → m.files.Direct q)

theorem Came.settled_iff {o : Outcome Result} {s' : Session} {es : Trace}
    (h : Came m s command o s' es) : Settled m.files s o s' es ↔ Settles m s command := by
  have hcd : ∀ head text : String, "cd: " ++ head ++ text = "cd: " ++ (head ++ text) :=
    fun head text => String.append_assoc ..
  -- what is too long for a look is too long for whoever asks for a directory
  have hlong : ∀ {q : Path} {there : Bool}, m.files.isDirectory m.cwd q.toString = .ok there →
      m.files.lookup m.cwd true q.toString ≠ .error Fault.nameTooLong := by
    intro q there hthere herror
    rw [FileSystem.isDirectory, herror] at hthere
    cases hthere
  cases h with
  | unreachable hcanonical hreports =>
    rename_i text
    let refusal := "cannot access directory: " ++ (Fault.linkLoop text).message
    refine ⟨fun _ q hq => ?_, fun _ => .inr ⟨_, refusal, rfl, rfl, hreports.trans ?_⟩⟩
    · rw [hcanonical] at hq
      cases hq
    · rw [← hcd]
      rfl
  | moved hcanonical hthere hreports =>
    rename_i q
    constructor
    · rintro (⟨-, -, q', hq', hdirect⟩ | ⟨_, _, ho, -⟩)
      · obtain rfl : q = q' := congrArg Session.cwd hq'
        intro q' hq'
        cases hcanonical.symm.trans hq'
        exact ⟨hlong hthere, fun _ => hdirect⟩
      · cases ho
    · exact fun h => .inl ⟨rfl, hreports, q, rfl, (h q hcanonical).2 hthere⟩
  | missing hcanonical hthere hreports =>
    let refusal := "directory not found: " ++ destination s command
    refine ⟨fun _ q' hq' => ?_, fun _ => .inr ⟨_, refusal, rfl, rfl, hreports.trans ?_⟩⟩
    · cases hcanonical.symm.trans hq'
      refine ⟨hlong hthere, fun hdirectory => ?_⟩
      cases hthere.symm.trans hdirectory
    · rw [← hcd]
      rfl
  | failed hcanonical hthere =>
    obtain ⟨rfl, hlookup⟩ := FileSystem.lookup_of_isDirectory_error hthere
    constructor
    · rintro (⟨ho, -⟩ | ⟨_, _, ho, -⟩) <;> cases ho
    · exact fun h => absurd hlookup (h _ hcanonical).1

/-- A change of the working directory is settled if no link on the way leads back to itself and its
canonical path is not too long. -/
theorem settles_of_resolves (hnames : Path.Named (named s command).names)
    (hresolves : m.files.resolves (named s command) = true)
    (hshort : ∀ q, m.files.canonical (named s command) = .ok q → FileSystem.Short q) :
    Settles m s command := fun q hq =>
  ⟨FileSystem.lookup_of_short hnames hresolves hq (hshort q hq),
    FileSystem.canonical_direct hnames hresolves hq⟩

/-- **A change of the working directory** starts nothing and changes nothing of the session but where
it stands, whatever the files are, and it goes on in one of four ways. It is settled just if nothing is
too long about where it leads, and the path there has no links if that is a directory. This is so if no
link on the way leads back to itself and the canonical path is short. -/
theorem changeDirectory_settles {S : Type} (h : Host S) {m : Machine S} {s : Session}
    {command : Command} (hcwd : Path.Named s.cwd.names) (hs : s.NulFree)
    (hargs : ∀ operand ∈ command.args, nul ∉ operand.toList) :
    ∃ o s' m' es, changeDirectory command h.kernel.traced ⟨s, (m, [])⟩ = (o, ⟨s', (m', es)⟩) ∧
      es.attempts = [] ∧ s'.home = s.home ∧ s'.jobs = s.jobs ∧ s'.interrupted = s.interrupted ∧
      Came m s command o s' es ∧ (Settled m.files s o s' es ↔ Settles m s command) ∧
        (m.files.resolves (named s command) = true →
        (∀ q, m.files.canonical (named s command) = .ok q → FileSystem.Short q) →
          Settled m.files s o s' es) := by
  have hoperand : nul ∉ (command.args.headD s.home).toList := by
    cases hcommand : command.args with
    | nil => exact hs.home
    | cons operand rest => exact hargs operand (by simp [hcommand])
  have hnul := hs.resolve (hs.expandHome hoperand)
  obtain ⟨o, s', m', es, hrun, hattempts, hcame⟩ := changeDirectory_runs h hnul
  have hkept : s'.home = s.home ∧ s'.jobs = s.jobs ∧ s'.interrupted = s.interrupted := by
    cases hcame <;> exact ⟨rfl, rfl, rfl⟩
  refine ⟨o, s', m', es, hrun, hattempts, hkept.1, hkept.2.1, hkept.2.2, hcame,
    hcame.settled_iff, fun hresolves hshort => hcame.settled_iff.2 ?_⟩
  exact settles_of_resolves (Session.named_resolve hcwd _) hresolves hshort

/-- The change of the working directory to where a link leads. -/
def upwards : Command := ⟨"cd", ["up"]⟩

theorem named_upwards : named rootSession upwards = ⟨.root, ["up"]⟩ := by decide

theorem resolveLinks_upwards : linkedMachine.files.resolveLinks 3 [] [['u', 'p']] [] =
    (⟨⟨.root, ["d"]⟩, true⟩, [(["up"], some ["d"]), (["up"], none)]) := by
  have htarget : Path.segments "d/.././d".toList = [['d'], ['.', '.'], ['.'], ['d']] := by decide
  simp [FileSystem.resolveLinks, linkedMachine_linkAt, Path.isName, -String.reduceToList, htarget,
    Path.startsAtRoot]

theorem canonical_upwards :
    linkedMachine.files.canonical (named rootSession upwards) = .ok ⟨.root, ["d"]⟩ := by
  have hlookup : linkedMachine.files.lookup ⟨.root, []⟩ true "/d" = .ok 1 := by cbv
  rw [named_upwards]
  exact FileSystem.canonical_of_lookup (congrArg (·.1.path) resolveLinks_upwards) (by decide) hlookup

/-- It moves the session to the directory. -/
theorem changeDirectory_settles_of_linked : ∃ o s' m' es,
    changeDirectory upwards idleHost.kernel.traced ⟨rootSession, (linkedMachine, [])⟩ =
      (o, ⟨s', (m', es)⟩) ∧ s'.cwd = ⟨.root, ["d"]⟩ ∧
        Settled linkedMachine.files rootSession o s' es := by
  have hs : rootSession.NulFree := ⟨Path.nulFree_nil, by decide⟩
  have hargs : ∀ operand ∈ upwards.args, nul ∉ operand.toList := by decide
  obtain ⟨o, s', m', es, hrun, -, -, -, -, hcame, -, hsettled⟩ :=
    changeDirectory_settles idleHost (m := linkedMachine) Path.named_nil hs hargs
  have hresolves : linkedMachine.files.resolves (named rootSession upwards) = true := by
    rw [named_upwards]
    exact congrArg (·.1.complete) resolveLinks_upwards
  have hshort : ∀ q, linkedMachine.files.canonical (named rootSession upwards) = .ok q →
      FileSystem.Short q := by
    intro q hq
    cases canonical_upwards.symm.trans hq
    exact ⟨by decide, by decide⟩
  have hthere : linkedMachine.files.isDirectory linkedMachine.cwd "/d" = .ok true := by cbv
  obtain ⟨-, hs', -⟩ := hcame.of_directory canonical_upwards hthere
  exact ⟨o, s', m', es, hrun, congrArg Session.cwd hs', hsettled hresolves hshort⟩

/-- The system refuses the look for a directory that a name which is too long calls for, and nothing
catches that. -/
theorem changeDirectory_raises {S : Type} (h : Host S) {m : Machine S} {s : Session}
    {command : Command} {name : String} {parent : Inode} {entries : List (String × Inode)}
    (hcwd : Path.Named s.cwd.names) (hnamed : named s command = ⟨.root, [name]⟩)
    (hlong : FileSystem.maxName < name.utf8ByteSize) (hnul : nul ∉ name.toList)
    (hroot : m.files.node? FileSystem.root = some (.directory parent entries)) :
    ∃ m' es, changeDirectory command h.kernel.traced ⟨s, (m, [])⟩ =
      (.raised (.system Fault.nameTooLong (some ("/" ++ name))), ⟨s, (m', es)⟩) ∧
        es.reports = [] := by
  have hname : Path.Named [name] := by
    have hresolved : Path.Named (named s command).names := Session.named_resolve hcwd _
    rwa [hnamed] at hresolved
  have hnul' : Machine.hasNul (named s command).toString = false := by
    rw [hnamed]
    exact Path.hasNul_toString fun n hn => List.mem_singleton.1 hn ▸ hnul
  have htext : Path.toString ⟨.root, [name]⟩ = "/" ++ name := by
    rw [FileSystem.toString_of_root rfl, FileSystem.rooted, String.intercalate_singleton]
  have hcanonical : m.files.canonical (named s command) = .ok ⟨.root, [name]⟩ := by
    rw [hnamed]
    exact FileSystem.canonical_tooLong hname hlong hroot
  have herror : m.files.isDirectory m.cwd (Path.toString ⟨.root, [name]⟩) =
      .error Fault.nameTooLong := by
    rw [FileSystem.toString_of_root rfl]
    exact FileSystem.isDirectory_tooLong hname hlong hroot m.cwd
  obtain ⟨o, s', m', es, hrun, -, hcame⟩ := changeDirectory_runs (s := s) h hnul'
  obtain ⟨rfl, rfl, hreports⟩ := hcame.of_error hcanonical herror
  rw [htext] at hrun
  exact ⟨m', es, hrun, hreports⟩

/-- A name that is too long by one letter. -/
def overlong : String := String.ofList (List.replicate 256 'a')

/-- The change of the working directory to it. -/
def ahead : Command := ⟨"cd", [overlong]⟩

theorem toList_overlong : overlong.toList = List.replicate 256 'a' := String.toList_ofList

theorem not_mem_overlong {c : Char} (h : c ≠ 'a') : c ∉ overlong.toList := by
  rw [toList_overlong, List.mem_replicate]
  exact fun hc => h hc.2

theorem utf8Len_replicate (n : Nat) : String.utf8Len (List.replicate n 'a') = n := by
  have hsize : Char.utf8Size 'a' = 1 := rfl
  induction n with
  | zero => rfl
  | succ n ih => rw [List.replicate_succ, String.utf8Len_cons, ih, hsize]

/-- Such a name is taken as it stands. -/
theorem named_ahead : named rootSession ahead = ⟨.root, [overlong]⟩ := by
  have hhome : rootSession.expandHome overlong = overlong := by
    rw [Session.expandHome, toList_overlong]
    rfl
  have hslash : '/' ∉ overlong.toList := not_mem_overlong (show '/' ≠ 'a' by decide)
  have hisName : Path.isName overlong.toList = true := by
    rw [toList_overlong]
    rfl
  have hanchor : Path.anchorOf overlong.toList = .here := by
    rw [toList_overlong]
    rfl
  have hparse : Path.parse overlong = ⟨.here, [overlong]⟩ := by
    rw [Path.parse, hanchor, Path.namesOf, Path.segments_of_slash_not_mem hslash,
      List.filter_cons_of_pos hisName]
    simp
  change rootSession.resolve (rootSession.expandHome overlong) = _
  rw [hhome, Session.resolve, hhome, hparse]
  rfl

/-- Then it is not settled. -/
theorem changeDirectory_raises_of_overlong : ∃ m' es,
    changeDirectory ahead idleHost.kernel.traced ⟨rootSession, (linkedMachine, [])⟩ =
      (.raised (.system 36 (some ("/" ++ overlong))), ⟨rootSession, (m', es)⟩) ∧
      es.reports = [] ∧
      ¬ Settled linkedMachine.files rootSession (.raised (.system 36 (some ("/" ++ overlong))))
        rootSession es := by
  have hroot : linkedMachine.files.node? FileSystem.root =
      some (.directory FileSystem.root [("d", 1), ("up", 2)]) := rfl
  have hsize : overlong.utf8ByteSize = 256 :=
    (String.utf8ByteSize_ofList _).trans (utf8Len_replicate 256)
  have hlong : FileSystem.maxName < overlong.utf8ByteSize := by
    rw [hsize]
    decide
  have hnul : nul ∉ overlong.toList := not_mem_overlong (show nul ≠ 'a' by decide)
  obtain ⟨m', es, hrun, hreports⟩ :=
    changeDirectory_raises idleHost (s := rootSession) Path.named_nil named_ahead hlong hnul hroot
  refine ⟨m', es, hrun, hreports, ?_⟩
  rintro (⟨ho, -⟩ | ⟨_, _, ho, -⟩) <;> cases ho

/-- A machine with a link to itself at its root, and a link that leads there. -/
def circleMachine : Machine Scripted :=
  { files := ⟨#[.directory FileSystem.root [("loop", 1), ("up", 2)], .link "loop", .link "."]⟩ }

/-- The change of the working directory that goes past the one link to the other. -/
def past : Command := ⟨"cd", ["loop/../up"]⟩

/-- Behind a link that leads back to itself names are taken as they stand, links among them. -/
theorem canonical_past :
    circleMachine.files.canonical (named rootSession past) = .ok ⟨.root, ["up"]⟩ := by
  have hlink : circleMachine.files.linkAt? ["loop"] = some "loop" := by cbv
  have hresolved : (circleMachine.files.resolveLinks 3 [] [['l', 'o', 'o', 'p'], ['.', '.'], ['u', 'p']]
      []).1.path = ⟨.root, ["loop", "..", "up"]⟩ := by
    have htarget : Path.segments "loop".toList = [['l', 'o', 'o', 'p']] := by decide
    simp [FileSystem.resolveLinks, hlink, Path.isName, -String.reduceToList, htarget,
      Path.startsAtRoot]
    decide
  have hlookup : circleMachine.files.lookup ⟨.root, []⟩ true "/up" = .ok 0 := by cbv
  exact FileSystem.canonical_of_lookup hresolved (by decide) hlookup

/-- So a session can be led to a directory by a path that is a link. -/
theorem changeDirectory_lands_on_link : ∃ m' es,
    changeDirectory past idleHost.kernel.traced ⟨rootSession, (circleMachine, [])⟩ =
      (.returned { exitCode := some 0 }, ⟨{ rootSession with cwd := ⟨.root, ["up"]⟩ }, (m', es)⟩) ∧
      circleMachine.files.linkAt? ["up"] = some "." := by
  have hthere : circleMachine.files.isDirectory circleMachine.cwd "/up" = .ok true := by cbv
  have hlink : circleMachine.files.linkAt? ["up"] = some "." := by cbv
  have hnul : Machine.hasNul (named rootSession past).toString = false := by decide
  obtain ⟨o, s', m', es, hrun, -, hcame⟩ := changeDirectory_runs idleHost (m := circleMachine) hnul
  obtain ⟨rfl, rfl, -⟩ := hcame.of_directory canonical_past hthere
  exact ⟨m', es, hrun, hlink⟩

end LineShell
