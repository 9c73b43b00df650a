import LineShell.Text.Utf8

namespace LineShell

open Text (Bytes)

/-!
# Flows

What flows through a pipe in the end: bytes, perhaps without an end.

* `Flow` — a finite or an endless stream of bytes;
* `Flow.Begins`, `Flow.IsAll` — what a flow begins with, and what it is;
* `taken` — the bytes that reads have brought;
* `Flow.Heard` — that reads have brought what a flow begins with, and an end only where it ends.
-/

/-- A finite or an endless stream of bytes. -/
inductive Flow
  | finite (bytes : Bytes)
  | endless (byte : Nat → UInt8)

namespace Flow

/-- A flow begins with some bytes. -/
def Begins : Flow → Bytes → Prop
  | .finite all, bytes => bytes <+: all
  | .endless byte, bytes => ∀ i (h : i < bytes.length), bytes[i] = byte i

/-- A flow is just some bytes. -/
def IsAll : Flow → Bytes → Prop
  | .finite all, bytes => bytes = all
  | .endless _, _ => False

variable {x : Flow} {bytes bytes' : Bytes}

theorem begins_nil (x : Flow) : x.Begins [] := by
  cases x with
  | finite all => exact List.nil_prefix
  | endless byte => exact fun i h => absurd h (Nat.not_lt_zero i)

theorem IsAll.begins (h : x.IsAll bytes) : x.Begins bytes := by
  cases x with
  | finite all =>
    cases h
    exact List.prefix_rfl
  | endless byte => exact h.elim

theorem Begins.of_prefix (h : x.Begins bytes') (hp : bytes <+: bytes') : x.Begins bytes := by
  cases x with
  | finite all => exact hp.trans h
  | endless byte =>
    intro i hi
    obtain ⟨rest, rfl⟩ := hp
    have hi' : i < (bytes ++ rest).length := by
      rw [List.length_append]
      omega
    rw [← h i hi', List.getElem_append_left hi]

/-- At most one sequence of bytes is all that flows. -/
theorem IsAll.unique (h : x.IsAll bytes) (h' : x.IsAll bytes') : bytes = bytes' := by
  cases x with
  | finite all => exact h.trans h'.symm
  | endless byte => exact h'.elim

/-- A flow with some bytes before it. -/
def after (bytes : Bytes) : Flow → Flow
  | .finite all => .finite (bytes ++ all)
  | .endless byte => .endless fun i => bytes[i]?.getD (byte (i - bytes.length))

theorem after_isAll (h : x.IsAll bytes') : (x.after bytes).IsAll (bytes ++ bytes') := by
  cases x with
  | finite all =>
    cases h
    rfl
  | endless byte => exact h.elim

end Flow

/-! ### Reads -/

/-- The bytes that reads have brought. The last read comes first. -/
def taken : List (Except Nat Bytes) → Bytes
  | [] => []
  | .ok bytes :: log => taken log ++ bytes
  | .error _ :: log => taken log

/-- Reads have brought what a flow begins with, and an end only where the flow ends. -/
def Flow.Heard (x : Flow) : List (Except Nat Bytes) → Prop
  | [] => True
  | .ok [] :: log => x.IsAll (taken log) ∧ x.Heard log
  | .ok (b :: bytes) :: log => x.Begins (taken log ++ b :: bytes) ∧ x.Heard log
  | .error _ :: _ => False

/-- Reads that have met no fault, and nothing more after the end. -/
def Proper : List (Except Nat Bytes) → Prop
  | [] => True
  | .ok [] :: log => Proper log
  | .ok (_ :: _) :: log => .ok [] ∉ log ∧ Proper log
  | .error _ :: _ => False

namespace Flow

variable {x : Flow} {log : List (Except Nat Bytes)}

theorem Heard.tail {e : Except Nat Bytes} (h : x.Heard (e :: log)) : x.Heard log := by
  rcases e with e | _ | ⟨b, bytes⟩
  · exact h.elim
  · exact h.2
  · exact h.2

theorem Heard.of_suffix {log' : List (Except Nat Bytes)} (h : x.Heard log') (hs : log <:+ log') :
    x.Heard log := by
  obtain ⟨later, rfl⟩ := hs
  induction later with
  | nil => exact h
  | cons e later ih => exact ih h.tail

theorem Heard.begins (h : x.Heard log) : x.Begins (taken log) := by
  rcases log with _ | ⟨e | _ | ⟨b, bytes⟩, log⟩
  · exact begins_nil x
  · exact h.elim
  · rw [taken, List.append_nil]
    exact h.1.begins
  · exact h.1

/-- Proper reads of what a flow begins with, and an end only where it ends. -/
theorem heard_of_proper (hlog : Proper log) (hb : x.Begins (taken log))
    (hend : .ok [] ∈ log → x.IsAll (taken log)) : x.Heard log := by
  induction log with
  | nil => trivial
  | cons e log ih =>
    rcases e with e | _ | ⟨b, bytes⟩
    · exact hlog.elim
    · have hall : x.IsAll (taken log) := by simpa [taken] using hend (.head _)
      exact ⟨hall, ih hlog hall.begins fun _ => hall⟩
    · have hbegins : x.Begins (taken log) := hb.of_prefix (List.prefix_append _ _)
      exact ⟨hb, ih hlog.2 hbegins fun h => absurd h hlog.1⟩

/-- Where there is nothing to be read, an empty flow is heard. -/
theorem heard_empty (h : ∀ e ∈ log, e = .ok []) : (finite []).Heard log := by
  have htaken : ∀ log : List (Except Nat Bytes), (∀ e ∈ log, e = .ok []) → taken log = [] := by
    intro log h
    induction log with
    | nil => rfl
    | cons e log ih =>
      rw [h e (.head _), taken, List.append_nil]
      exact ih fun e he => h e (.tail _ he)
  induction log with
  | nil => trivial
  | cons e log ih =>
    rw [h e (.head _)]
    have hlog : ∀ e ∈ log, e = .ok [] := fun e he => h e (.tail _ he)
    exact ⟨htaken log hlog, ih hlog⟩

end Flow

end LineShell
