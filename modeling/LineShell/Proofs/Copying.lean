import LineShell.Proofs.OutputRecord
import LineShell.Proofs.Pipelines

namespace LineShell.Host

open Text (Bytes)

/-!
# A program that copies

A program that writes each byte as soon as it has read it, where a scripted one waits for the end.

* `Copier` — how far it has come, and what it has written;
* `Copier.computes` — what it writes is what it reads;
* `Copier.records` — it remembers what it has written.
-/

/-- A program that writes what it reads, byte by byte, and remembers what it has written. -/
structure Copier where
  /-- What it has read and is still to write. -/
  rest : Bytes := []
  wrote : Bytes := []
  /-- Whether there is nothing more to be read. -/
  ended : Bool := false
  deriving DecidableEq, Repr

namespace Copier

/-- The program with a byte more read. -/
def take (c : Copier) : Except Nat Bytes → Copier
  | .ok [] | .error _ => { c with ended := true }
  | .ok bytes => { c with rest := bytes }

/-- The program with some bytes written. -/
def put (c : Copier) : Except Nat Nat → Copier
  | .ok count => { c with rest := c.rest.drop count, wrote := c.wrote ++ c.rest.take count }
  | .error _ => { c with rest := [] }

/-- What the program does next. -/
def next (c : Copier) : Action Copier :=
  if c.rest ≠ [] then .write 1 c.rest c.put
  else if c.ended then .exit 0 else .read 0 1 c.take

/-- The only program is `copy`. -/
def programs : Programs Copier where
  find _ _ argv := if argv.head? = some "copy" then .ok { program := {} }
    else .error (.system Fault.noEntry (some (argv.headD "")))
  next := next

/-- How far a program has come that copies: all that it has read it has written or is still to write. -/
structure Came (c : Copier) (log : List (Except Nat Bytes)) (put : Bytes) (broken : Bool) : Prop where
  kept : ∃ tail, put ++ tail = taken log ∧ (broken = false → tail = c.rest)
  ended : c.ended = true → ∀ x : Flow, x.Heard log → x.IsAll (taken log)

variable {c c' : Copier} {log : List (Except Nat Bytes)} {put : Bytes} {broken : Bool}

/-- What a program that copies does, by how far it has come. -/
theorem next_cases (c : Copier) :
    (c.rest ≠ [] ∧ c.next = .write 1 c.rest c.put) ∨ (c.rest = [] ∧ c.ended = true ∧ c.next = .exit 0) ∨
      (c.rest = [] ∧ c.ended = false ∧ c.next = .read 0 1 c.take) := by
  unfold next
  by_cases hrest : c.rest = []
  · rw [if_neg (not_not.2 hrest)]
    cases hended : c.ended with
    | true => exact .inr (.inl ⟨hrest, rfl, if_pos rfl⟩)
    | false => exact .inr (.inr ⟨hrest, rfl, if_neg Bool.false_ne_true⟩)
  · exact .inl ⟨hrest, if_pos hrest⟩

theorem came_take (h : Came c log put broken) (hrest : c.rest = []) (hended : c.ended = false)
    (answer : Except Nat Bytes) : Came (c.take answer) (answer :: log) put broken := by
  obtain ⟨tail, htaken, htail⟩ := h.kept
  rcases answer with e | _ | ⟨b, bytes⟩
  · exact ⟨⟨tail, htaken, htail⟩, fun _ x hx => hx.elim⟩
  · have hsame : taken (.ok [] :: log) = taken log := List.append_nil _
    rw [← hsame] at htaken
    refine ⟨⟨tail, htaken, htail⟩, fun _ x hx => ?_⟩
    rw [hsame]
    exact hx.1
  · refine ⟨⟨tail ++ b :: bytes, ?_, fun hbroken => ?_⟩, fun h => ?_⟩
    · rw [← List.append_assoc, htaken]
      rfl
    · rw [htail hbroken, hrest]
      rfl
    · exact absurd (hended.symm.trans h) Bool.false_ne_true

theorem came_put (h : Came c log put false) (count : Nat) :
    Came (c.put (.ok count)) log (put ++ c.rest.take count) false := by
  obtain ⟨tail, htaken, htail⟩ := h.kept
  refine ⟨⟨c.rest.drop count, ?_, fun _ => rfl⟩, h.ended⟩
  rw [List.append_assoc, List.take_append_drop, ← htail rfl, htaken]

theorem came_of_ran {shut : Bool} (h : Ran programs {} c log put broken shut) :
    Came c log put broken ∧ shut = false := by
  induction h with
  | start => exact ⟨⟨⟨[], rfl, fun _ => rfl⟩, nofun⟩, rfl⟩
  | @read c log put broken shut limit next _ hnext answer ih =>
    rcases next_cases c with ⟨-, heq⟩ | ⟨-, -, heq⟩ | ⟨hrest, hended, heq⟩
    · cases heq.symm.trans hnext
    · cases heq.symm.trans hnext
    · cases heq.symm.trans hnext
      exact ⟨came_take ih.1 hrest hended answer, ih.2⟩
  | @write c log put shut bytes next _ hnext count _ ih =>
    rcases next_cases c with ⟨-, heq⟩ | ⟨-, -, heq⟩ | ⟨-, -, heq⟩
    · cases heq.symm.trans hnext
      exact ⟨came_put ih.1 count, ih.2⟩
    · cases heq.symm.trans hnext
    · cases heq.symm.trans hnext
  | @fail c log put broken shut bytes next _ hnext code ih =>
    rcases next_cases c with ⟨-, heq⟩ | ⟨-, -, heq⟩ | ⟨-, -, heq⟩
    · cases heq.symm.trans hnext
      obtain ⟨tail, htaken, -⟩ := ih.1.kept
      exact ⟨⟨⟨tail, htaken, nofun⟩, ih.1.ended⟩, ih.2⟩
    · cases heq.symm.trans hnext
    · cases heq.symm.trans hnext
  | @close c log put broken shut next _ hnext =>
    rcases next_cases c with ⟨-, heq⟩ | ⟨-, -, heq⟩ | ⟨-, -, heq⟩ <;> cases heq.symm.trans hnext
  | @beside c c' log put broken shut _ hnext ih =>
    change c.next.Beside c' at hnext
    rcases next_cases c with ⟨-, heq⟩ | ⟨-, -, heq⟩ | ⟨-, -, heq⟩
    · rw [heq] at hnext
      cases hnext with | write hfd => exact absurd rfl hfd
    · rw [heq] at hnext
      cases hnext
    · rw [heq] at hnext
      cases hnext

/-- A program that copies writes what it reads. -/
theorem computes : Computes programs {} fun x => x where
  stream {c} _ _ _ _ h := by
    rw [(came_of_ran h).2]
    show c.next.IsStream false
    rcases next_cases c with ⟨-, heq⟩ | ⟨-, -, heq⟩ | ⟨-, -, heq⟩ <;> rw [heq]
    · exact Nat.one_ne_zero
    · trivial
    · exact ⟨rfl, Nat.one_pos, rfl⟩
  begins {c} log put _ _ h x hx := by
    obtain ⟨tail, htaken, -⟩ := (came_of_ran h).1.kept
    exact hx.begins.of_prefix ⟨tail, htaken⟩
  ends {c} log put _ h hend x hx := by
    obtain ⟨tail, htaken, htail⟩ := (came_of_ran h).1.kept
    change c.next.isEnd = true at hend
    rcases next_cases c with ⟨-, heq⟩ | ⟨hrest, hended, -⟩ | ⟨-, -, heq⟩
    · rw [heq] at hend
      cases hend
    · rw [htail rfl, hrest, List.append_nil] at htaken
      rw [htaken]
      exact (came_of_ran h).1.ended hended x hx
    · rw [heq] at hend
      cases hend

theorem denotes (cwd : Path) (command : Command) : Denotes programs (fun _ x => x) cwd command := by
  intro files launch hfind
  change (if _ then _ else _) = _ at hfind
  split at hfind
  · cases hfind
    exact ⟨computes, by decide, by decide⟩
  · cases hfind

theorem records : Records programs Copier.wrote where
  launch {files cwd argv launch} hfind := by
    change (if _ then _ else _) = _ at hfind
    split at hfind
    · cases hfind
      exact ⟨rfl, rfl, rfl, rfl⟩
    · cases hfind
  step c := by
    show c.next.Records Copier.wrote c
    rcases next_cases c with ⟨-, heq⟩ | ⟨-, -, heq⟩ | ⟨-, -, heq⟩ <;> rw [heq]
    · exact ⟨fun _ => rfl, fun _ => rfl⟩
    · trivial
    · refine ⟨Nat.zero_ne_one, fun answer => ?_⟩
      rcases answer with e | _ | ⟨b, bytes⟩ <;> rfl

theorem quiet (c : Copier) (pid : ProcessId) (number : Nat) (k : Bool → Copier) :
    c.next ≠ .signal pid number k := by
  rcases next_cases c with ⟨-, heq⟩ | ⟨-, -, heq⟩ | ⟨-, -, heq⟩ <;> rw [heq] <;> nofun

end Copier

end LineShell.Host
