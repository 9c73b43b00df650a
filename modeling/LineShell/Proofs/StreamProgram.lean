import LineShell.Host.Scripted
import LineShell.Proofs.Flow

namespace LineShell.Host

open Text (Bytes)

/-!
# Stream programs

Programs whose output depends on nothing but what flows in.

* `Action.Beside` — what a program may become by an action that concerns neither its standard input
  nor its standard output;
* `Ran` — how far a program has come that was left to itself: what its reads have brought, what its
  writes have taken, whether a write has failed, and whether it has closed its input;
* `Computes` — however its reads are cut and whatever else it is told, a program writes what a
  function makes of the flow that it reads;
* `Scripted.computes` — scripted programs compute such functions.
-/

variable {S : Type}

/-- What a program may become by an action that concerns neither standard input nor standard
output. -/
inductive Action.Beside : Action S → S → Prop
  | write {fd : Nat} {bytes : Bytes} {next : Except Nat Nat → S} (hfd : fd ≠ 1)
      (answer : Except Nat Nat) : Beside (.write fd bytes next) (next answer)
  | giveBack {fd count : Nat} {next : S} : Beside (.giveBack fd count next) next
  | inspect {fd : Nat} {next : Option FileStatus → S} (answer : Option FileStatus) :
      Beside (.inspect fd next) (next answer)
  | look {next : FileSystem → S} (answer : FileSystem) : Beside (.look next) (next answer)
  | identify {next : ProcessId → S} (answer : ProcessId) : Beside (.identify next) (next answer)
  | sleep {duration : Nat} {next : S} : Beside (.sleep duration next) next

/-- Whether a program has come to its end. -/
def Action.isEnd : Action S → Bool
  | .linger _ | .exit _ => true
  | _ => false

/-- What a stream program may do: it reads something at a time, and only from its standard input
while that is open, where it does not write, it opens no files, closes nothing but its input, and
sends no signals. -/
def Action.IsStream (shut : Bool) : Action S → Prop
  | .read fd limit _ => fd = 0 ∧ 0 < limit ∧ shut = false
  | .write fd _ _ => fd ≠ 0
  | .close fd _ => fd = 0
  | .openFile .. | .signal .. => False
  | _ => True

/-- How far a program has come from its start: the reads from its standard input, the last one
first, the bytes that its standard output has taken, whether a write has failed, and whether it has
closed its input. -/
inductive Ran (ps : Programs S) (start : S) :
    S → List (Except Nat Bytes) → Bytes → Bool → Bool → Prop
  | start : Ran ps start start [] [] false false
  | read {s : S} {log : List (Except Nat Bytes)} {put : Bytes} {broken shut : Bool} {limit : Nat}
      {next : Except Nat Bytes → S} (h : Ran ps start s log put broken shut)
      (hnext : ps.next s = .read 0 limit next) (answer : Except Nat Bytes) :
      Ran ps start (next answer) (answer :: log) put broken shut
  | write {s : S} {log : List (Except Nat Bytes)} {put : Bytes} {shut : Bool} {bytes : Bytes}
      {next : Except Nat Nat → S} (h : Ran ps start s log put false shut)
      (hnext : ps.next s = .write 1 bytes next) (count : Nat) (hcount : count ≤ bytes.length) :
      Ran ps start (next (.ok count)) log (put ++ bytes.take count) false shut
  | fail {s : S} {log : List (Except Nat Bytes)} {put : Bytes} {broken shut : Bool} {bytes : Bytes}
      {next : Except Nat Nat → S} (h : Ran ps start s log put broken shut)
      (hnext : ps.next s = .write 1 bytes next) (code : Nat) :
      Ran ps start (next (.error code)) log put true shut
  | close {s : S} {log : List (Except Nat Bytes)} {put : Bytes} {broken shut : Bool} {next : S}
      (h : Ran ps start s log put broken shut) (hnext : ps.next s = .close 0 next) :
      Ran ps start next log put broken true
  | beside {s s' : S} {log : List (Except Nat Bytes)} {put : Bytes} {broken shut : Bool}
      (h : Ran ps start s log put broken shut) (hnext : (ps.next s).Beside s') :
      Ran ps start s' log put broken shut

/-- However its reads are cut and whatever else it is told, a program writes what a function makes
of the flow that it reads, unless a write of it fails. It may end before it has read all. -/
structure Computes (ps : Programs S) (start : S) (f : Flow → Flow) : Prop where
  stream : ∀ {s log put broken shut}, Ran ps start s log put broken shut →
    (ps.next s).IsStream shut
  begins : ∀ {s log put broken shut}, Ran ps start s log put broken shut → ∀ x : Flow,
    x.Heard log → (f x).Begins put
  ends : ∀ {s log put shut}, Ran ps start s log put false shut → (ps.next s).isEnd = true →
    ∀ x : Flow, x.Heard log → (f x).IsAll put

/-! ### Scripted programs -/

namespace Scripted

/-- What a script makes of what flows in. -/
def flow (script : Script) (x : Flow) : Flow :=
  (if script.copies then x else .finite []).after script.out

/-- What a script writes when it has read some bytes. -/
def output (script : Script) (got : Bytes) : Bytes :=
  script.out ++ if script.copies then got else []

theorem flow_isAll {script : Script} {x : Flow} {got : Bytes} (h : x.IsAll got) :
    (flow script x).IsAll (output script got) := by
  refine Flow.after_isAll ?_
  cases script.copies with
  | true => exact h
  | false => rfl

/-- How far a scripted program has come: it has read but not written, or written some of what it
has to write, or all of it. -/
def Came (script : Script) (s : Scripted) (log : List (Except Nat Bytes)) (put : Bytes)
    (broken : Bool) : Prop :=
  s.script = script ∧ match s.stage with
    | .reading => s.got = taken log ∧ put = []
    | .writing rest => (∀ x : Flow, x.Heard log → x.IsAll s.got) ∧
      ∃ tail, put ++ tail = output script s.got ∧ (broken = false → tail = rest)
    | .complaining _ => (∀ x : Flow, x.Heard log → x.IsAll s.got) ∧
      ∃ tail, put ++ tail = output script s.got ∧ (broken = false → tail = [])

variable {scripts : List (String × Script)} {script : Script} {s s' : Scripted}
  {log : List (Except Nat Bytes)} {put : Bytes} {broken : Bool}

/-! What a scripted program does tells how far it has come. -/

theorem next_complaining (script : Script) (got rest : Bytes) :
    (Scripted.next ⟨script, got, .complaining rest⟩).isEnd = true ∨
      ∃ k, Scripted.next ⟨script, got, .complaining rest⟩ = .write 2 rest k ∧
        ∀ answer, ∃ rest', k answer = ⟨script, got, .complaining rest'⟩ := by
  cases rest with
  | nil =>
    refine .inl ?_
    show (if script.lingers then Action.linger script.status else .exit script.status).isEnd = true
    split <;> rfl
  | cons b rest => exact .inr ⟨_, rfl, fun answer => ⟨_, rfl⟩⟩

theorem next_complaining_ne (script : Script) (got rest : Bytes) :
    (∀ limit k, Scripted.next ⟨script, got, .complaining rest⟩ ≠ .read 0 limit k) ∧
      (∀ bytes k, Scripted.next ⟨script, got, .complaining rest⟩ ≠ .write 1 bytes k) ∧
        ∀ fd k, Scripted.next ⟨script, got, .complaining rest⟩ ≠ .close fd k := by
  refine ⟨fun limit k h => ?_, fun bytes k h => ?_, fun fd k h => ?_⟩
  all_goals
    rcases next_complaining script got rest with hend | ⟨k', hk, -⟩
    · rw [h] at hend
      cases hend
    · rw [h] at hk
      cases hk

theorem came_read (h : Came script s log put broken) {limit : Nat}
    {k : Except Nat Bytes → Scripted} (hnext : s.next = .read 0 limit k)
    (answer : Except Nat Bytes) : Came script (k answer) (answer :: log) put broken := by
  obtain ⟨script', got, stage⟩ := s
  obtain ⟨rfl, h⟩ := h
  cases stage with
  | reading =>
    cases hnext
    obtain ⟨hgot, rfl⟩ := h
    -- a read that fails or brings the end is the last one, and what has been got is to be written
    rcases answer with e | _ | ⟨b, bytes⟩
    · exact ⟨rfl, fun x hx => hx.elim, _, rfl, fun _ => rfl⟩
    · have hall : ∀ x : Flow, x.Heard (.ok [] :: log) → x.IsAll got := by
        intro x hx
        rw [show got = taken log from hgot]
        exact hx.1
      exact ⟨rfl, hall, _, rfl, fun _ => rfl⟩
    · exact ⟨rfl, congrArg (· ++ b :: bytes) hgot, rfl⟩
  | writing rest => cases rest <;> cases hnext
  | complaining rest => exact absurd hnext ((next_complaining_ne _ _ _).1 _ _)

theorem came_write (h : Came script s log put false) {bytes : Bytes}
    {k : Except Nat Nat → Scripted} (hnext : s.next = .write 1 bytes k) (count : Nat) :
    Came script (k (.ok count)) log (put ++ bytes.take count) false := by
  obtain ⟨script', got, stage⟩ := s
  obtain ⟨rfl, h⟩ := h
  cases stage with
  | reading => cases hnext
  | writing rest =>
    cases rest with
    | nil => cases hnext
    | cons b rest =>
      cases hnext
      obtain ⟨hall, tail, hput, htail⟩ := h
      -- what is not taken is what is left to be written
      refine ⟨rfl, hall, (b :: rest).drop count, ?_, fun _ => rfl⟩
      rw [List.append_assoc, List.take_append_drop, ← htail rfl, hput]
  | complaining rest => exact absurd hnext ((next_complaining_ne _ _ _).2.1 _ _)

theorem came_fail (h : Came script s log put broken) {bytes : Bytes}
    {k : Except Nat Nat → Scripted} (hnext : s.next = .write 1 bytes k) (code : Nat) :
    Came script (k (.error code)) log put true := by
  obtain ⟨script', got, stage⟩ := s
  obtain ⟨rfl, h⟩ := h
  cases stage with
  | reading => cases hnext
  | writing rest =>
    cases rest with
    | nil => cases hnext
    | cons b rest =>
      cases hnext
      obtain ⟨hall, tail, hput, -⟩ := h
      exact ⟨rfl, hall, tail, hput, nofun⟩
  | complaining rest => exact absurd hnext ((next_complaining_ne _ _ _).2.1 _ _)

theorem came_beside (h : Came script s log put broken) (hnext : s.next.Beside s') :
    Came script s' log put broken := by
  obtain ⟨script', got, stage⟩ := s
  obtain ⟨rfl, h⟩ := h
  cases stage with
  | reading => cases hnext
  | writing rest =>
    cases rest with
    | nil => cases hnext with | write _ answer => exact ⟨rfl, h⟩
    | cons b rest => cases hnext with | write hfd => exact absurd rfl hfd
  | complaining rest =>
    rcases next_complaining script' got rest with hend | ⟨k, hk, hstay⟩
    · generalize Scripted.next ⟨script', got, .complaining rest⟩ = action at hend hnext
      cases hnext <;> cases hend
    · rw [hk] at hnext
      cases hnext with
      | write _ answer =>
        obtain ⟨rest', hrest⟩ := hstay answer
        rw [hrest]
        exact ⟨rfl, h⟩

theorem isStream_next (s : Scripted) : s.next.IsStream false := by
  obtain ⟨script, got, stage⟩ := s
  cases stage with
  | reading => exact ⟨rfl, by decide, rfl⟩
  | writing rest => cases rest <;> exact Nat.succ_ne_zero _
  | complaining rest =>
    cases rest with
    | nil =>
      show (if script.lingers then Action.linger script.status else .exit script.status).IsStream _
      split <;> trivial
    | cons b rest => exact Nat.succ_ne_zero _

theorem next_ne_close (s k : Scripted) (fd : Nat) : s.next ≠ .close fd k := by
  obtain ⟨script, got, stage⟩ := s
  intro h
  cases stage with
  | reading => cases h
  | writing rest => cases rest <;> cases h
  | complaining rest => exact (next_complaining_ne _ _ _).2.2 _ _ h

theorem next_ne_signal (s : Scripted) (pid : ProcessId) (number : Nat) (k : Bool → Scripted) :
    s.next ≠ .signal pid number k := by
  intro h
  have hstream := isStream_next s
  rw [h] at hstream
  exact hstream

theorem came_of_ran {shut : Bool}
    (h : Ran (programs scripts) { script } s log put broken shut) :
    Came script s log put broken ∧ shut = false := by
  induction h with
  | start => exact ⟨⟨rfl, rfl, rfl⟩, rfl⟩
  | read _ hnext answer ih => exact ⟨came_read ih.1 hnext answer, ih.2⟩
  | write _ hnext count _ ih => exact ⟨came_write ih.1 hnext count, ih.2⟩
  | fail _ hnext code ih => exact ⟨came_fail ih.1 hnext code, ih.2⟩
  | close _ hnext => exact absurd hnext (next_ne_close _ _ _)
  | beside _ hnext ih => exact ⟨came_beside ih.1 hnext, ih.2⟩

/-- A scripted program writes what its script makes of what flows in. -/
theorem computes (scripts : List (String × Script)) (script : Script) :
    Computes (programs scripts) { script } (flow script) where
  stream {s} _ _ _ _ h := by
    rw [(came_of_ran h).2]
    exact isStream_next s
  begins {s} _ put _ _ h x hx := by
    obtain ⟨⟨hscript, hcame⟩, -⟩ := came_of_ran h
    obtain ⟨script', got, stage⟩ := s
    -- from when it writes on, it has read all
    have hwritten : x.IsAll got → (∃ tail, put ++ tail = output script got) →
        (flow script x).Begins put := by
      rintro hall ⟨tail, hput⟩
      exact (flow_isAll hall).begins.of_prefix ⟨tail, hput⟩
    cases stage with
    | reading =>
      rw [hcame.2]
      exact Flow.begins_nil _
    | writing rest =>
      obtain ⟨hall, tail, hput, -⟩ := hcame
      exact hwritten (hall x hx) ⟨tail, hput⟩
    | complaining rest =>
      obtain ⟨hall, tail, hput, -⟩ := hcame
      exact hwritten (hall x hx) ⟨tail, hput⟩
  ends {s} _ put _ h hend x hx := by
    obtain ⟨⟨hscript, hcame⟩, -⟩ := came_of_ran h
    obtain ⟨script', got, stage⟩ := s
    cases stage with
    | reading => cases hend
    | writing rest => cases rest <;> cases hend
    | complaining rest =>
      obtain ⟨hall, tail, hput, htail⟩ := hcame
      rw [htail rfl, List.append_nil] at hput
      rw [hput]
      exact flow_isAll (hall x hx)

end Scripted

end LineShell.Host
