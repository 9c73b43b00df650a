import LineShell.Proofs.FileHolders

namespace LineShell.Host

open Text (Bytes)

/-!
# What programs write to their standard output

A record of what a program has written, kept in the state of the program itself. All programs can keep
one, so what holds of those that do holds of all.

* `Records` — programs that use their standard output for nothing but writing, and remember what they
  have written to it;
* `Programs.recorded` — programs that are made to remember, `Programs.records_recorded`;
* `Action.Leads`, `act_leads` — what a program may become by an action, and does become by a step;
* `act_wrote` — only a write to its standard output changes what a process has written to it.
-/

variable {S : Type} {ps : Programs S} {wrote : S → Bytes} {m m₁ : Machine S} {p q : Process S} {k : Nat}

/-! ### Programs that remember -/

/-- An action leaves in what a program becomes the record of what has been written to the standard
output. That is used for nothing but writing. -/
def Action.Records (wrote : S → Bytes) (s : S) : Action S → Prop
  | .read fd _ next => fd ≠ 1 ∧ ∀ a, wrote (next a) = wrote s
  | .write fd bytes next =>
    if fd = 1 then
      (∀ n, wrote (next (.ok n)) = wrote s ++ bytes.take n) ∧ ∀ e, wrote (next (.error e)) = wrote s
    else ∀ a, wrote (next a) = wrote s
  | .openFile fd _ _ next => fd ≠ 1 ∧ ∀ a, wrote (next a) = wrote s
  | .close _ next => wrote next = wrote s
  | .giveBack fd _ next => fd ≠ 1 ∧ wrote next = wrote s
  | .inspect _ next => ∀ status, wrote (next status) = wrote s
  | .look next => ∀ files, wrote (next files) = wrote s
  | .identify next => ∀ pid, wrote (next pid) = wrote s
  | .signal _ _ next => ∀ reached, wrote (next reached) = wrote s
  | .sleep _ next => wrote next = wrote s
  | .linger _ | .exit _ => True

/-- Programs remember what they have written to their standard output, and use it for nothing else.
Before they run nothing is in the pipe that it may be, and that is open. -/
structure Records (ps : Programs S) (wrote : S → Bytes) : Prop where
  launch : ∀ {files : FileSystem} {cwd : Path} {argv : List String} {launch : Launch S},
    ps.find files cwd argv = .ok launch →
      wrote launch.program = [] ∧ launch.output.received = [] ∧ launch.output.buffer = [] ∧
        launch.output.writerOpen = true
  step : ∀ s, (ps.next s).Records wrote s

/-- Programs that are made to remember what they have written to their standard output. -/
def Programs.recorded (ps : Programs S) : Programs (S × Bytes) where
  find files cwd argv := (ps.find files cwd argv).map fun launch =>
    { launch with program := (launch.program, []) }
  next := fun (s, wrote) => match ps.next s with
    | .read fd limit next => .read fd limit fun a => (next a, wrote)
    | .write fd bytes next => .write fd bytes fun a => (next a,
        match a with
        | .ok n => if fd = 1 then wrote ++ bytes.take n else wrote
        | .error _ => wrote)
    | .openFile fd path mode next => .openFile fd path mode fun a => (next a, wrote)
    | .close fd next => .close fd (next, wrote)
    | .giveBack fd count next => .giveBack fd count (next, wrote)
    | .inspect fd next => .inspect fd fun status => (next status, wrote)
    | .look next => .look fun files => (next files, wrote)
    | .identify next => .identify fun pid => (next pid, wrote)
    | .signal pid number next => .signal pid number fun reached => (next reached, wrote)
    | .sleep duration next => .sleep duration (next, wrote)
    | .linger status => .linger status
    | .exit status => .exit status

/-- An action uses the standard output for nothing but writing. -/
def Action.OnlyWrites : Action S → Prop
  | .read fd _ _ | .openFile fd _ _ _ | .giveBack fd _ _ => fd ≠ 1
  | _ => True

/-- **All programs can remember** what they have written to their standard output, if they use it for
nothing else. -/
theorem Programs.records_recorded (ps : Programs S) (hwrites : ∀ s, (ps.next s).OnlyWrites)
    (hfresh : ∀ files cwd argv launch, ps.find files cwd argv = .ok launch → launch.output.IsFresh) :
    Records ps.recorded Prod.snd where
  launch {files cwd argv launch} h := by
    simp only [recorded] at h
    cases hfind : ps.find files cwd argv with
    | error f =>
      rw [hfind] at h
      cases h
    | ok found =>
      rw [hfind] at h
      cases h
      have hout : found.output = { capacity := found.output.capacity } := hfresh _ _ _ _ hfind
      refine ⟨rfl, ?_, ?_, ?_⟩
      · show found.output.received = []
        rw [hout]
        rfl
      · show found.output.buffer = []
        rw [hout]
      · show found.output.writerOpen = true
        rw [hout]
  step := by
    rintro ⟨s, written⟩
    have hs := hwrites s
    unfold recorded
    dsimp only
    cases hnext : ps.next s with
    | write fd bytes next =>
      dsimp only [Action.Records]
      split
      · exact ⟨fun _ => rfl, fun _ => rfl⟩
      · rintro (_ | _) <;> rfl
    | read | openFile | giveBack =>
      rw [hnext] at hs
      first | exact ⟨hs, fun _ => rfl⟩ | exact ⟨hs, rfl⟩
    | close | sleep => rfl
    | inspect | look | identify | signal => exact fun _ => rfl
    | linger | exit => trivial

/-! ### Steps -/

theorem Action.Records.write_output {s : S} {bytes : Bytes} {next : Except Nat Nat → S}
    (h : (Action.write 1 bytes next).Records wrote s) :
    (∀ n, wrote (next (.ok n)) = wrote s ++ bytes.take n) ∧ ∀ e, wrote (next (.error e)) = wrote s := by
  simpa only [Action.Records, if_pos] using h

theorem Action.Records.write_other {s : S} {fd : Nat} {bytes : Bytes} {next : Except Nat Nat → S}
    (h : (Action.write fd bytes next).Records wrote s) (hfd : fd ≠ 1) (a : Except Nat Nat) :
    wrote (next a) = wrote s := by
  simp only [Action.Records, if_neg hfd] at h
  exact h a

/-- A program that remembers uses its standard output only by writing to it. -/
theorem Action.Records.uses {s : S} {action : Action S} (h : action.Records wrote s)
    (huses : action.Uses 1) : ∃ bytes next, action = .write 1 bytes next := by
  cases huses with
  | read => exact absurd rfl h.1
  | write bytes next => exact ⟨bytes, next, rfl⟩
  | giveBack => exact absurd rfl h.1

/-- What a program may become by an action that sends no signal: what it makes of an answer, or
itself where it has come to its end. -/
inductive Action.Leads (s : S) : Action S → S → Prop
  | read {fd limit : Nat} {next : Except Nat Bytes → S} (answer : Except Nat Bytes) :
    Leads s (.read fd limit next) (next answer)
  | write {fd : Nat} {bytes : Bytes} {next : Except Nat Nat → S} (answer : Except Nat Nat) :
    Leads s (.write fd bytes next) (next answer)
  | openFile {fd : Nat} {path : String} {mode : OpenMode} {next : Option Nat → S}
    (answer : Option Nat) : Leads s (.openFile fd path mode next) (next answer)
  | close {fd : Nat} {next : S} : Leads s (.close fd next) next
  | giveBack {fd count : Nat} {next : S} : Leads s (.giveBack fd count next) next
  | inspect {fd : Nat} {next : Option FileStatus → S} (answer : Option FileStatus) :
    Leads s (.inspect fd next) (next answer)
  | look {next : FileSystem → S} (answer : FileSystem) : Leads s (.look next) (next answer)
  | identify {next : ProcessId → S} (answer : ProcessId) : Leads s (.identify next) (next answer)
  | sleep {duration : Nat} {next : S} : Leads s (.sleep duration next) next
  | linger {status : Int} : Leads s (.linger status) s
  | exit {status : Int} : Leads s (.exit status) s

/-- An action that does not use the standard output leads to nothing new in the record of it. -/
theorem Action.Records.leads {s s' : S} {action : Action S} (h : action.Records wrote s)
    (hsilent : ¬ action.Uses 1) (hleads : action.Leads s s') : wrote s' = wrote s := by
  cases hleads with
  | read answer => exact h.2 answer
  | write answer =>
    refine h.write_other ?_ answer
    rintro rfl
    exact hsilent (.write _ _)
  | openFile answer => exact h.2 answer
  | close | sleep => exact h
  | giveBack => exact h.2
  | inspect answer => exact h answer
  | look answer => exact h answer
  | identify answer => exact h answer
  | linger | exit => rfl

namespace Machine

/-- What a read makes of a process. -/
theorem readStep_program (hp : m.processes[k]? = some p) {fd limit : Nat} {channel : Option Channel}
    {next : Except Nat Bytes → S} (h : m.readStep k fd limit channel next = some m₁)
    (hq : m₁.processes[k]? = some q) : ∃ a, q.program = next a ∧ q.observed = p.observed := by
  have hhear : ∀ (m₂ : Machine S) {a}, m₂.net.processes = m.net.processes →
      (m₂.hear k fd a next).processes[k]? = some q →
        ∃ a, q.program = next a ∧ q.observed = p.observed := by
    intro m₂ a hnet hq
    have hp' : m₂.processes[k]? = some p := (congrArg (·[k]?) hnet).trans hp
    rw [of_modifyProcess hp' hq]
    exact ⟨a, rfl, rfl⟩
  unfold readStep at h
  split at h
  · cases h
    exact hhear _ rfl hq
  · split at h <;> cases h
    · exact hhear (m.modifyPipe _ _) rfl hq
    · exact hhear _ rfl hq
    · exact hhear _ rfl hq
  · split at h <;> cases h
    · rename_i hread
      exact hhear _ (congrArg Net.processes (readOpening_net hread)) hq
    · exact hhear _ rfl hq
  · cases h
    exact hhear _ rfl hq

/-- What a write makes of a process. -/
theorem writeStep_program (hp : m.processes[k]? = some p) {bytes : Bytes} {channel : Option Channel}
    {next : Except Nat Nat → S} (h : m.writeStep k bytes channel next = some m₁)
    (hq : m₁.processes[k]? = some q) : ∃ a, q.program = next a ∧ q.observed = p.observed := by
  have hgo : ∀ (m₂ : Machine S) {a}, m₂.net.processes = m.net.processes →
      (m₂.goOn k (next a)).processes[k]? = some q →
        ∃ a, q.program = next a ∧ q.observed = p.observed := by
    intro m₂ a hnet hq
    have hp' : m₂.processes[k]? = some p := (congrArg (·[k]?) hnet).trans hp
    rw [of_modifyProcess hp' hq]
    exact ⟨a, rfl, rfl⟩
  unfold writeStep at h
  split at h
  · cases h
    exact hgo _ rfl hq
  · cases h
    exact hgo (m.writeOut bytes) rfl hq
  · cases h
    exact hgo (m.writeErr bytes) rfl hq
  · split at h <;> cases h
    · exact hgo (m.modifyPipe _ _) rfl hq
    all_goals exact hgo _ rfl hq
  · split at h <;> cases h
    · rename_i hwrite
      exact hgo _ (congrArg Net.processes (writeOpening_net hwrite)) hq
    · exact hgo _ rfl hq
  · cases h
    exact hgo _ rfl hq

/-- A step of a process leads its program on, and does not tell the interpreter that it has exited. -/
theorem act_leads (hquiet : ∀ pid number next, ps.next p.program ≠ .signal pid number next)
    (hp : m.processes[k]? = some p) (h : act ps m k p = some m₁) (hq : m₁.processes[k]? = some q) :
    (ps.next p.program).Leads p.program q.program ∧ q.observed = p.observed := by
  have hgo : ∀ {program : S}, (m.goOn k program).processes[k]? = some q →
      q.program = program ∧ q.observed = p.observed := by
    intro program hq
    rw [of_modifyProcess hp hq]
    exact ⟨rfl, rfl⟩
  unfold act at h
  cases hnext : ps.next p.program with
  | read fd limit next =>
    rw [hnext] at h
    obtain ⟨a, hprogram, hsame⟩ := readStep_program hp h hq
    exact ⟨hprogram ▸ .read a, hsame⟩
  | write fd bytes next =>
    rw [hnext] at h
    obtain ⟨a, hprogram, hsame⟩ := writeStep_program hp h hq
    exact ⟨hprogram ▸ .write a, hsame⟩
  | openFile fd path mode next =>
    rw [hnext] at h
    simp only at h
    split at h <;> cases h
    · rename_i hopen
      rw [of_modifyProcess ((congrArg (·.processes[k]?) (openPath_net hopen)).trans hp) hq]
      exact ⟨.openFile none, rfl⟩
    · obtain ⟨hprogram, hsame⟩ := hgo hq
      exact ⟨hprogram ▸ .openFile (some _), hsame⟩
  | close fd next =>
    rw [hnext] at h
    simp only [Option.some.injEq] at h
    rw [← h] at hq
    have hp' : ∀ c, (m.release p c).processes[k]? = some p :=
      fun c => (congrArg (·[k]?) (release_processes m p c)).trans hp
    cases hc : p.descriptors.lookup fd with
    | none =>
      rw [hc] at hq
      rw [of_modifyProcess hp hq]
      exact ⟨.close, rfl⟩
    | some c =>
      rw [hc] at hq
      rw [of_modifyProcess (hp' c) hq]
      exact ⟨.close, rfl⟩
  | giveBack fd count next =>
    rw [hnext] at h
    cases h
    have hp' := (congrArg (·.processes[k]?) (giveBack_net m (p.descriptors.lookup fd) count)).trans hp
    rw [of_modifyProcess hp' hq]
    exact ⟨.giveBack, rfl⟩
  | inspect fd next =>
    rw [hnext] at h
    cases h
    obtain ⟨hprogram, hsame⟩ := hgo hq
    exact ⟨hprogram ▸ .inspect _, hsame⟩
  | look next =>
    rw [hnext] at h
    cases h
    obtain ⟨hprogram, hsame⟩ := hgo hq
    exact ⟨hprogram ▸ .look _, hsame⟩
  | identify next =>
    rw [hnext] at h
    cases h
    obtain ⟨hprogram, hsame⟩ := hgo hq
    exact ⟨hprogram ▸ .identify _, hsame⟩
  | signal pid number next => exact absurd hnext (hquiet pid number next)
  | sleep duration next =>
    rw [hnext] at h
    cases h
    rw [of_modifyProcess hp hq]
    exact ⟨.sleep, rfl⟩
  | linger status =>
    rw [hnext] at h
    cases h
    rw [of_retire m _ hp hq]
    exact ⟨.linger, rfl⟩
  | exit status =>
    rw [hnext] at h
    cases h
    rw [of_retire m _ hp hq]
    exact ⟨.exit, rfl⟩

/-- **Only a write to its standard output** changes what a process has written to it. -/
theorem act_wrote (hrec : (ps.next p.program).Records wrote p.program)
    (hquiet : ∀ pid number next, ps.next p.program ≠ .signal pid number next)
    (hsilent : ¬ (ps.next p.program).Uses 1) (hp : m.processes[k]? = some p)
    (h : act ps m k p = some m₁) (hq : m₁.processes[k]? = some q) :
    wrote q.program = wrote p.program :=
  hrec.leads hsilent (act_leads hquiet hp h hq).1

end Machine

end LineShell.Host
