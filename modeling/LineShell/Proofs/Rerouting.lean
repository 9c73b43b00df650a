import LineShell.Proofs.Grounding
import LineShell.Proofs.HeldRuns
import LineShell.Proofs.Pipelines

namespace LineShell.Host

open Text (Bytes)

/-!
# A pipe in the place of a file

A process that writes to a file does what it would do if it wrote to a pipe that nobody reads from.

* `Process.piped`, `Machine.piped` — a process writes to a new pipe instead of where it writes;
* `stepRelay_piped`, `act_piped` — relays do not see the pipe, and processes only if it is that of one that
  uses its standard output or ends;
* `stepActor_piped` — so the two machines take the same steps.
-/

variable {S : Type} {ps : Programs S} {m m₁ : Machine S} {p q : Process S} {i j k v : Nat} {o : Pipe}
  {r : RelayTask}

theorem modify_push_size {α : Type} (xs : Array α) (x : α) (f : α → α) :
    (xs.push x).modify xs.size f = xs.push (f x) := by
  refine Array.ext_getElem? fun n => ?_
  rw [Array.getElem?_modify, Array.getElem?_push, Array.getElem?_push]
  by_cases hn : n = xs.size
  · rw [if_pos hn.symm, if_pos hn, if_pos hn]
    rfl
  · rw [if_neg (Ne.symm hn), if_neg hn, if_neg hn]

/-- A descriptor that leads to a pipe, if it is the standard output. -/
def reroute (v : Nat) (d : Nat × Channel) : Nat × Channel := if d.1 = 1 then (1, .pipe v) else d

/-- A process that writes to a pipe instead of where it writes. -/
def Process.piped (v : Nat) (p : Process S) : Process S := { p with
  streams := { p.streams with stdout := .pipe }
  outputPipe := some v
  descriptors := p.descriptors.map (reroute v) }

/-- The machine with a pipe more, to which a process writes instead of where it writes. -/
def Machine.piped (m : Machine S) (k : Nat) (o : Pipe) : Machine S := { m with
  pipes := m.pipes.push o
  processes := m.processes.modify k (Process.piped m.pipes.size) }

/-- An action that neither concerns the standard output nor ends the program. -/
def Action.Spares : Action S → Prop
  | .read fd _ _ | .write fd _ _ | .close fd _ | .giveBack fd _ _ | .inspect fd _ => fd ≠ 1
  | .openFile .. | .signal .. | .linger _ | .exit _ => False
  | .look _ | .identify _ | .sleep _ _ => True

theorem Process.lookup_piped {fd : Nat} (hfd : fd ≠ 1) (p : Process S) :
    (p.piped v).descriptors.lookup fd = p.descriptors.lookup fd := by
  unfold piped
  induction p.descriptors with
  | nil => rfl
  | cons d ds ih =>
    obtain ⟨n, c⟩ := d
    rw [List.map_cons, reroute]
    split
    · rename_i hn
      obtain rfl : n = 1 := hn
      rw [List.lookup_cons, List.lookup_cons, beq_false_of_ne hfd]
      exact ih
    · rw [List.lookup_cons, List.lookup_cons, ih]

theorem Process.lookup_one_piped (p : Process S) :
    (p.piped v).descriptors.lookup 1 = (p.descriptors.lookup 1).map fun _ => .pipe v := by
  unfold piped
  induction p.descriptors with
  | nil => rfl
  | cons d ds ih =>
    obtain ⟨n, c⟩ := d
    rw [List.map_cons, reroute]
    split
    · rename_i hn
      obtain rfl : n = 1 := hn
      rfl
    · rename_i hn
      rw [List.lookup_cons, List.lookup_cons, beq_false_of_ne (Ne.symm hn)]
      exact ih

namespace Machine

theorem pipes_piped (hj : j < m.pipes.size) : (m.piped k o).pipes[j]? = m.pipes[j]? := by
  unfold piped
  rw [Array.getElem?_push, if_neg (Nat.ne_of_lt hj)]

theorem modifyPipe_piped (hj : j < m.pipes.size) (f : Pipe → Pipe) :
    (m.piped k o).modifyPipe j f = (m.modifyPipe j f).piped k o := by
  have hpipes : (m.pipes.push o).modify j f = (m.pipes.modify j f).push o := by
    refine Array.ext_getElem? fun n => ?_
    rw [Array.getElem?_modify, Array.getElem?_push, Array.getElem?_push, Array.getElem?_modify,
      Array.size_modify]
    split <;> split <;> first | rfl | omega
  unfold modifyPipe piped
  rw [hpipes, Array.size_modify]

theorem modifyProcess_piped {f : Process S → Process S}
    (hf : i = k → ∀ p : Process S, f (p.piped m.pipes.size) = (f p).piped m.pipes.size) :
    (m.piped k o).modifyProcess i f = (m.modifyProcess i f).piped k o := by
  have hprocesses : (m.processes.modify k (Process.piped m.pipes.size)).modify i f =
      (m.processes.modify i f).modify k (Process.piped m.pipes.size) := by
    refine Array.ext_getElem? fun n => ?_
    simp only [Array.getElem?_modify]
    split
    · split
      · rename_i hi hk
        rw [Option.map_map, Option.map_map]
        exact congrArg (fun g => Option.map g m.processes[n]?) (funext (hf (hi.trans hk.symm)))
      · rfl
    · rfl
  unfold modifyProcess piped
  rw [hprocesses]

theorem log_piped (record : Record) : (m.piped k o).log record = (m.log record).piped k o := by
  unfold log
  show (if m.console.threshold.any (· ≤ record.level.gravity) then _ else _) = _
  split <;> rfl

/-! ### Relays -/

section

variable (hsource : r.source < m.pipes.size) (hsink : ∀ s, r.sink = some s → s < m.pipes.size)

include hsource hsink

theorem endRelay_piped (fault : Option Fault) :
    (m.piped k o).endRelay j r fault = (m.endRelay j r fault).piped k o := by
  unfold endRelay
  cases hs : r.sink with
  | none =>
    simp only
    rw [modifyPipe_piped hsource]
    rfl
  | some s =>
    have hsize : (m.modifyPipe s fun pipe => pipe.shutWriter.2).pipes.size = m.pipes.size :=
      Array.size_modify
    simp only
    rw [modifyPipe_piped (hsink s hs), modifyPipe_piped (hsize ▸ hsource)]
    rfl

theorem finishRelay_piped (fault : Option Fault) :
    (m.piped k o).finishRelay j r fault = (m.finishRelay j r fault).piped k o := by
  unfold finishRelay
  rw [endRelay_piped hsource hsink, log_piped]

theorem failRelay_piped (f : Fault) :
    (m.piped k o).failRelay j r f = (m.failRelay j r f).piped k o := by
  unfold failRelay killRelay
  rw [finishRelay_piped hsource hsink, finishRelay_piped hsource hsink, endRelay_piped hsource hsink]
  split
  · rfl
  · split <;> rfl

theorem pullRelay_piped :
    (m.piped k o).pullRelay j r = (m.pullRelay j r).map (·.piped k o) := by
  unfold pullRelay
  rw [pipes_piped hsource]
  split
  · rw [failRelay_piped hsource hsink]
    rfl
  · cases m.pipes[r.source]?.map (Pipe.read · (chunkLimit r.chunk)) with
    | none =>
      simp only [finishRelay_piped hsource hsink, Option.map_some]
    | some came =>
      cases came with
      | blocked =>
        simp only [finishRelay_piped hsource hsink]
        split <;> rfl
      | ended fault =>
        cases fault with
        | none => simp only [finishRelay_piped hsource hsink, Option.map_some]
        | some f => simp only [failRelay_piped hsource hsink, Option.map_some]
      | gave bytes pipe =>
        simp only [finishRelay_piped hsource hsink, modifyPipe_piped hsource]
        split <;> rfl

theorem pushRelay_piped {s : Nat} (hs : r.sink = some s) :
    (m.piped k o).pushRelay j r s = (m.pushRelay j r s).map (·.piped k o) := by
  unfold pushRelay
  rw [pipes_piped (hsink s hs)]
  cases m.pipes[s]?.map (Pipe.write · r.pending) with
  | none => simp only [failRelay_piped hsource hsink, Option.map_some]
  | some came =>
    cases came with
    | blocked => rfl
    | broken => simp only [failRelay_piped hsource hsink, Option.map_some]
    | refused f => simp only [failRelay_piped hsource hsink, Option.map_some]
    | took count pipe =>
      simp only [modifyPipe_piped (hsink s hs), Option.map_some]
      rfl

end

/-- Relays do not see the pipe. -/
theorem stepRelay_piped (hm : m.Grounded) :
    (m.piped k o).stepRelay j = (m.stepRelay j).map (·.piped k o) := by
  unfold stepRelay
  show (m.relays[j]? >>= _) = _
  cases hr : m.relays[j]? with
  | none => rfl
  | some r =>
    obtain ⟨hsource, hsink⟩ := hm.relay hr
    simp only [Option.bind_eq_bind, Option.bind_some]
    split
    · rfl
    · cases hs : r.sink with
      | none => simp only [finishRelay_piped hsource hsink, Option.map_some]
      | some s =>
        simp only
        split
        · exact pullRelay_piped hsource hsink
        · exact pushRelay_piped hsource hsink hs

/-! ### Processes -/

theorem goOn_piped (program : S) : (m.piped k o).goOn i program = (m.goOn i program).piped k o :=
  modifyProcess_piped fun _ _ => rfl

theorem hear_piped (fd : Nat) (answer : Except Nat Bytes) (next : Except Nat Bytes → S) :
    (m.piped k o).hear i fd answer next = (m.hear i fd answer next).piped k o :=
  modifyProcess_piped fun _ _ => rfl

theorem release_piped {c : Channel} (hc : ∀ j, c = .pipe j → j < m.pipes.size)
    (hq : q.inputPipe = p.inputPipe) : (m.piped k o).release q c = (m.release p c).piped k o := by
  cases c with
  | pipe j =>
    unfold release
    rw [hq]
    exact modifyPipe_piped (hc j rfl) _
  | _ => rfl

theorem pipes_size_release (m : Machine S) (p : Process S) (c : Channel) :
    (m.release p c).pipes.size = m.pipes.size := by
  cases c with
  | pipe j => exact Array.size_modify
  | _ => rfl

theorem openings_piped : (m.piped k o).openings = m.openings := rfl

theorem files_piped : (m.piped k o).files = m.files := rfl

theorem readOpening_piped (x limit : Nat) : (m.piped k o).readOpening x limit =
    (m.readOpening x limit).map fun r => (r.1, r.2.piped k o) := by
  unfold readOpening
  rw [openings_piped]
  cases m.openings[x]? with
  | none => rfl
  | some opening =>
    simp only
    rw [files_piped]
    rcases m.files.node? opening.node with _ | (_ | _ | _ | (_ | _ | _)) <;> rfl

theorem writeOpening_piped (x : Nat) (bytes : Bytes) : (m.piped k o).writeOpening x bytes =
    (m.writeOpening x bytes).map (·.piped k o) := by
  unfold writeOpening
  rw [openings_piped]
  cases m.openings[x]? with
  | none => rfl
  | some opening =>
    simp only
    rw [files_piped]
    rcases m.files.node? opening.node with _ | (_ | _ | _ | (_ | _ | _)) <;> rfl

theorem openPath_piped (cwd : Path) (path : String) (mode : OpenMode) :
    (m.piped k o).openPath cwd path mode =
      (m.openPath cwd path mode).map fun r => (r.1, r.2.piped k o) := by
  unfold openPath
  cases mode with
  | read =>
    simp only [Functor.map, Bind.bind, files_piped]
    cases m.files.openReading cwd path <;> rfl
  | write =>
    simp only [Bind.bind, files_piped]
    cases m.files.openWriting cwd path false <;> rfl
  | append =>
    simp only [Bind.bind, files_piped]
    cases m.files.openWriting cwd path true <;> rfl

theorem readStep_piped {fd limit : Nat} {c : Option Channel} {next : Except Nat Bytes → S}
    (hc : ∀ j, c = some (.pipe j) → j < m.pipes.size) :
    (m.piped k o).readStep i fd limit c next = (m.readStep i fd limit c next).map (·.piped k o) := by
  unfold readStep
  split
  · rw [hear_piped]
    rfl
  · rename_i j
    rw [pipes_piped (hc j rfl)]
    cases m.pipes[j]?.map (Pipe.read · (some limit)) with
    | none => simp only [hear_piped, Option.map_some]
    | some came =>
      cases came with
      | blocked => rfl
      | ended fault => simp only [hear_piped, Option.map_some]
      | gave bytes pipe => simp only [modifyPipe_piped (hc j rfl), hear_piped, Option.map_some]
  · rename_i x
    rw [readOpening_piped]
    cases m.readOpening x limit <;> simp only [Except.map, hear_piped, Option.map_some]
  · rw [hear_piped]
    rfl

theorem writeStep_piped {bytes : Bytes} {c : Option Channel} {next : Except Nat Nat → S}
    (hc : ∀ j, c = some (.pipe j) → j < m.pipes.size) :
    (m.piped k o).writeStep i bytes c next = (m.writeStep i bytes c next).map (·.piped k o) := by
  unfold writeStep
  split
  · rw [goOn_piped]
    rfl
  · exact congrArg some (goOn_piped (m := m.writeOut bytes) _)
  · exact congrArg some (goOn_piped (m := m.writeErr bytes) _)
  · rename_i j
    rw [pipes_piped (hc j rfl)]
    cases m.pipes[j]?.map (Pipe.write · bytes) with
    | none => simp only [goOn_piped, Option.map_some]
    | some came =>
      cases came with
      | blocked => rfl
      | broken => simp only [goOn_piped, Option.map_some]
      | refused f => simp only [goOn_piped, Option.map_some]
      | took count pipe => simp only [modifyPipe_piped (hc j rfl), goOn_piped, Option.map_some]
  · rename_i x
    rw [writeOpening_piped]
    cases m.writeOpening x bytes <;> simp only [Except.map, goOn_piped, Option.map_some]
  · rw [goOn_piped]
    rfl

/-- What a process is seen as whose standard output is a pipe, if it is that of a number. -/
def view (m : Machine S) (k i : Nat) (p : Process S) : Process S :=
  if i = k then p.piped m.pipes.size else p

theorem processes_piped (hp : m.processes[i]? = some p) :
    (m.piped k o).processes[i]? = some (m.view k i p) := by
  unfold piped view
  rw [Array.getElem?_modify, hp]
  by_cases hi : i = k
  · rw [if_pos hi, if_pos hi.symm]
    rfl
  · rw [if_neg hi, if_neg (Ne.symm hi)]

theorem view_of_ne (hi : i ≠ k) : m.view k i p = p := if_neg hi

theorem view_program : (m.view k i p).program = p.program := by
  unfold view
  split <;> rfl

theorem view_inputPipe : (m.view k i p).inputPipe = p.inputPipe := by
  unfold view
  split <;> rfl

theorem view_life : (m.view k i p).life = p.life := by
  unfold view
  split <;> rfl

theorem lookup_view {fd : Nat} (hfd : i = k → fd ≠ 1) :
    (m.view k i p).descriptors.lookup fd = p.descriptors.lookup fd := by
  unfold view
  split
  · exact Process.lookup_piped (hfd ‹_›) p
  · rfl

theorem filter_piped (v fd : Nat) (ds : List (Nat × Channel)) :
    (ds.map (reroute v)).filter (·.1 != fd) = (ds.filter (·.1 != fd)).map (reroute v) := by
  rw [List.filter_map]
  refine congrArg (List.map (reroute v)) (List.filter_congr fun d _ => ?_)
  show ((reroute v d).1 != fd) = (d.1 != fd)
  unfold reroute
  split
  · rename_i hd
    rw [hd]
  · rfl

/-- Who is not the process that is seen otherwise lets go of all that it holds. -/
theorem retire_piped (hm : m.Grounded) (hi : i ≠ k) (life : Life) :
    (m.piped k o).retire i life = (m.retire i life).piped k o := by
  unfold retire
  cases hp : m.processes[i]? with
  | none =>
    have hnone : (m.piped k o).processes[i]? = none := by
      unfold piped
      rw [Array.getElem?_modify, if_neg (Ne.symm hi), hp]
    rw [hnone]
  | some p =>
    rw [processes_piped hp, view_of_ne hi]
    simp only
    have hreleased : ∀ (ds : List (Nat × Channel)) (m : Machine S),
        (∀ d ∈ ds, ∀ j, d.2 = .pipe j → j < m.pipes.size) →
          ds.foldl (fun m d => m.release p d.2) (m.piped k o) =
            (ds.foldl (fun m d => m.release p d.2) m).piped k o := by
      intro ds
      induction ds with
      | nil => exact fun _ _ => rfl
      | cons d ds ih =>
        intro m hds
        rw [List.foldl_cons, List.foldl_cons, release_piped (hds d (.head _)) rfl]
        refine ih _ fun d' hd' j hj => ?_
        rw [pipes_size_release]
        exact hds d' (.tail _ hd') j hj
    rw [hreleased p.descriptors m fun d hd j hj =>
      (hm.process hp).2 j (.inr ⟨d.1, by rw [← hj]; exact hd⟩)]
    exact modifyProcess_piped fun h => absurd h hi

/-- Processes do not see the pipe, unless it is that of one that uses it or ends. -/
theorem act_piped (hm : m.Grounded) (hp : m.processes[i]? = some p)
    (hquiet : ∀ pid number next, ps.next p.program ≠ .signal pid number next)
    (hspares : i = k → (ps.next p.program).Spares) :
    act ps (m.piped k o) i (m.view k i p) = (act ps m i p).map (·.piped k o) := by
  have hc : ∀ fd j, p.descriptors.lookup fd = some (.pipe j) → j < m.pipes.size :=
    fun fd j hj => (hm.process hp).2 j (.inr (Process.holds_of_lookup hj))
  unfold act
  rw [view_program]
  cases hnext : ps.next p.program with
  | read fd limit next =>
    rw [hnext] at hspares
    simp only [lookup_view hspares]
    exact readStep_piped (hc fd)
  | write fd bytes next =>
    rw [hnext] at hspares
    simp only [lookup_view hspares]
    exact writeStep_piped (hc fd)
  | openFile fd path mode next =>
    rw [hnext] at hspares
    have hi : i ≠ k := hspares
    simp only [view_of_ne hi, openPath_piped]
    cases m.openPath p.cwd path mode with
    | error e => simp only [Except.map, goOn_piped, Option.map_some]
    | ok opened =>
      simp only [Except.map, Option.map_some]
      rw [modifyProcess_piped fun h => absurd h hi]
  | close fd next =>
    rw [hnext] at hspares
    simp only [lookup_view hspares, Option.map_some]
    have hfilter : ∀ m₁ : Machine S, m₁.pipes.size = m.pipes.size →
        (m₁.piped k o).modifyProcess i (fun p => { p with
          program := next, descriptors := p.descriptors.filter (·.1 != fd) }) =
        (m₁.modifyProcess i fun p => { p with
          program := next, descriptors := p.descriptors.filter (·.1 != fd) }).piped k o := by
      intro m₁ _
      refine modifyProcess_piped fun _ q => ?_
      unfold Process.piped
      simp only [filter_piped]
    cases hlookup : p.descriptors.lookup fd with
    | none => simp only [hfilter m rfl]
    | some c =>
      have hbound : ∀ j, c = .pipe j → j < m.pipes.size := fun j hj => hc fd j (by rw [hlookup, hj])
      simp only [release_piped hbound view_inputPipe, hfilter _ (pipes_size_release m p c)]
  | giveBack fd count next =>
    rw [hnext] at hspares
    simp only [lookup_view hspares, Option.map_some]
    have hgive : ∀ c : Option Channel, (m.piped k o).giveBack c count = (m.giveBack c count).piped k o := by
      intro c
      unfold giveBack
      split <;> rfl
    rw [hgive, goOn_piped]
  | inspect fd next =>
    rw [hnext] at hspares
    simp only [lookup_view hspares, Option.map_some]
    rw [goOn_piped]
    rfl
  | look next => exact congrArg some (goOn_piped _)
  | identify next =>
    have hpid : (m.view k i p).pid = p.pid := by
      unfold view
      split <;> rfl
    simp only [hpid, goOn_piped, Option.map_some]
  | signal pid number next => exact absurd hnext (hquiet pid number next)
  | sleep duration next => exact congrArg some (modifyProcess_piped fun _ _ => rfl)
  | linger status =>
    rw [hnext] at hspares
    exact congrArg some (retire_piped hm hspares _)
  | exit status =>
    rw [hnext] at hspares
    exact congrArg some (retire_piped hm hspares _)

/-- **The same steps.** Nobody sees the pipe but its own process when it uses it or ends. -/
theorem stepActor_piped (hm : m.Grounded)
    (hquiet : ∀ s pid number next, ps.next s ≠ .signal pid number next)
    (hspares : ∀ p, i = k → m.processes[i]? = some p → p.life = .running →
      (ps.next p.program).Spares) :
    (m.piped k o).stepActor ps i = (m.stepActor ps i).map (·.piped k o) := by
  have hsize : (m.piped k o).processes.size = m.processes.size := Array.size_modify
  unfold stepActor
  rw [hsize]
  split
  · rename_i hlt
    have hp := Array.getElem?_eq_getElem hlt
    unfold stepProcess
    rw [hp, processes_piped hp]
    simp only [Option.bind_eq_bind, Option.bind_some, view_life]
    split
    · exact act_piped hm hp (hquiet _) fun hi => hspares _ hi hp ‹_›
    · rename_i time _
      show (if time ≤ m.clock then _ else _) = _
      split
      · exact congrArg some (modifyProcess_piped fun _ _ => rfl)
      · rfl
    · rfl
  · exact stepRelay_piped hm

end Machine

end LineShell.Host
