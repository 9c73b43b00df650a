import LineShell.Outcome

namespace LineShell

/-!
# Background jobs

The processes that nobody waits for, in the order in which they were registered.

* `Job` — a process, the line it belongs to, and whether its end is announced;
* `Jobs` — the registry: at most one job for each process;
* `Jobs.register`, `Jobs.remove` — putting a job in and taking it out.
-/

/-- A process that nobody waits for. -/
structure Job where
  pid : ProcessId
  /-- The line that the process belongs to. -/
  text : String
  /-- Whether the end of the process goes without saying. -/
  quiet : Bool
  deriving DecidableEq, Repr

/-- The jobs in the order in which they were registered. -/
structure Jobs where
  list : List Job := []
  deriving DecidableEq, Repr

namespace Jobs

/-- How many jobs there are. -/
def size (js : Jobs) : Nat := js.list.length

/-- The processes of the jobs. -/
def pids (js : Jobs) : List ProcessId := js.list.map Job.pid

/-- Whether a process is registered. -/
def contains (js : Jobs) (pid : ProcessId) : Bool := js.pids.contains pid

/-- Puts a job in. A job of the same process gives up its place to it. -/
def register (js : Jobs) (job : Job) : Jobs :=
  if js.contains job.pid then ⟨js.list.map fun j => if j.pid = job.pid then job else j⟩
  else ⟨js.list ++ [job]⟩

/-- Takes a process out. -/
def remove (js : Jobs) (pid : ProcessId) : Jobs := ⟨js.list.filter (·.pid != pid)⟩

@[simp] theorem contains_empty (pid : ProcessId) : ({} : Jobs).contains pid = false := rfl

theorem contains_iff {js : Jobs} {pid : ProcessId} :
    js.contains pid = true ↔ ∃ j ∈ js.list, j.pid = pid := by
  simp [contains, pids]

/-- A process that is not registered yet goes to the end. -/
theorem list_register_of_not_contains {js : Jobs} {job : Job} (h : js.contains job.pid = false) :
    (js.register job).list = js.list ++ [job] := by
  simp [register, h]

theorem contains_register (js : Jobs) (job : Job) (pid : ProcessId) :
    (js.register job).contains pid = (pid == job.pid || js.contains pid) := by
  rw [Bool.eq_iff_iff, contains_iff, Bool.or_eq_true, contains_iff, beq_iff_eq]
  unfold register
  split
  · rename_i h
    obtain ⟨k, hk, hkp⟩ := contains_iff.1 h
    simp only [List.mem_map]
    constructor
    · rintro ⟨_, ⟨j, hj, rfl⟩, hp⟩
      by_cases hjp : j.pid = job.pid
      · rw [if_pos hjp] at hp; exact .inl hp.symm
      · rw [if_neg hjp] at hp; exact .inr ⟨j, hj, hp⟩
    · rintro (rfl | ⟨j, hj, hp⟩)
      · exact ⟨_, ⟨k, hk, rfl⟩, by rw [if_pos hkp]⟩
      · by_cases hjp : j.pid = job.pid
        · exact ⟨_, ⟨j, hj, rfl⟩, by rw [if_pos hjp]; exact hjp.symm.trans hp⟩
        · exact ⟨_, ⟨j, hj, rfl⟩, by rw [if_neg hjp]; exact hp⟩
  · simp only [List.mem_append, List.mem_singleton]
    constructor
    · rintro ⟨j, hj | rfl, hp⟩
      · exact .inr ⟨j, hj, hp⟩
      · exact .inl hp.symm
    · rintro (rfl | ⟨j, hj, hp⟩)
      · exact ⟨job, .inr rfl, rfl⟩
      · exact ⟨j, .inl hj, hp⟩

theorem contains_remove (js : Jobs) (pid other : ProcessId) :
    (js.remove pid).contains other = (other != pid && js.contains other) := by
  rw [Bool.eq_iff_iff, contains_iff, Bool.and_eq_true, contains_iff, bne_iff_ne]
  simp only [remove, List.mem_filter, bne_iff_ne]
  constructor
  · rintro ⟨j, ⟨hj, hn⟩, rfl⟩
    exact ⟨hn, j, hj, rfl⟩
  · rintro ⟨hn, j, hj, rfl⟩
    exact ⟨j, ⟨hj, hn⟩, rfl⟩

end Jobs

end LineShell
