import Mathlib
import LineShell.Proofs.Targets

namespace LineShell

/-!
# How long the files of a stage are open

* `Trace.openedFiles`, `Trace.closedFiles`, `Trace.openFaults` — the files that were opened and
  closed, in order, and the faults that opening them has met;
* `Complete`, `Broken` — how opening files can go on: all of them are open, or one of them could not
  be opened;
* `Complete.then`, `Broken.after` — files opened in two parts;
* `openStage_enters` — opening the files of a stage goes on in one of these two ways;
* `closing_leaves` — leaving closes all of them, whatever has been done meanwhile;
* `openStage_all_or_nothing` — which files are still open when not all of them could be opened.

A close counts whether or not it meets a fault: the file is closed all the same.
-/

variable {σ α : Type} {k : Kernel σ} {s : Session} {es es' : Trace} {ids others : List FileId}
  {ts : List Target} {g : Fault}

namespace Event

/-- The file that a request has opened. -/
def opened? : Event → Option FileId
  | ⟨.openFile .., .returned id⟩ => some id
  | _ => none

/-- The file that a request closes. -/
def closed? : Event → Option FileId
  | ⟨.closeFile id, _⟩ => some id
  | _ => none

/-- The fault that opening a file has met. -/
def openFault? : Event → Option Fault
  | ⟨.openFile .., .raised f⟩ => some f
  | _ => none

theorem of_isClose {e : Event} (h : e.request.isClose = true) :
    e.opened? = none ∧ e.openFault? = none := by
  obtain ⟨r, o⟩ := e
  cases r <;> first | exact ⟨rfl, rfl⟩ | cases h

end Event

namespace Trace

/-- The files that were opened, the first one first. -/
def openedFiles (es : Trace) : List FileId := es.filterMap Event.opened?

/-- The files that were closed, the first one first. -/
def closedFiles (es : Trace) : List FileId := es.filterMap Event.closed?

/-- The faults that opening files has met, the first one first. -/
def openFaults (es : Trace) : List Fault := es.filterMap Event.openFault?

@[simp] theorem openedFiles_append (es es' : Trace) :
    openedFiles (es ++ es') = es.openedFiles ++ es'.openedFiles := List.filterMap_append

@[simp] theorem closedFiles_append (es es' : Trace) :
    closedFiles (es ++ es') = es.closedFiles ++ es'.closedFiles := List.filterMap_append

@[simp] theorem openFaults_append (es es' : Trace) :
    openFaults (es ++ es') = es.openFaults ++ es'.openFaults := List.filterMap_append

theorem openedFiles_of_isClose (h : es.Only Request.isClose) : es.openedFiles = [] :=
  List.filterMap_eq_nil_iff.2 fun e he => (Event.of_isClose (h e he)).1

theorem openFaults_of_isClose (h : es.Only Request.isClose) : es.openFaults = [] :=
  List.filterMap_eq_nil_iff.2 fun e he => (Event.of_isClose (h e he)).2

end Trace

namespace Shell

/-! ### Closing -/

/-- Files that are closed are closed in order, each of them, whatever the closes meet. -/
theorem closeAll_closedFiles (ids : List FileId) : Ensures k (closeAll ids) s fun o _ es =>
    o ≠ .never → es.closedFiles = ids := by
  induction ids generalizing s with
  | nil => exact .pure fun _ => rfl
  | cons id ids ih =>
    have hrest : ∀ {rest : Option Fault → Shell (σ × Trace) (Option Fault)} (o : Outcome Unit)
        (s' : Session), (∀ later s'', Ensures k (rest later) s'' fun _ _ es => es = []) →
        Ensures k (closeAll ids >>= rest) s' fun o' _ es => o' ≠ .never →
          Trace.closedFiles ([⟨.closeFile id, o⟩] ++ es) = id :: ids := by
      intro rest o s' hrest
      refine ih.bind (fun later s'' es hes => (hrest later s'').mono ?_)
        (fun _ _ es hes _ => congrArg (id :: ·) (hes (by simp))) fun _ _ _ h => absurd rfl h
      rintro o' _ _ rfl -
      rw [List.append_nil]
      exact congrArg (id :: ·) (hes (by simp))
    refine Ensures.attempt_bind (.ask (Q := fun o _ es => es = [⟨.closeFile id, o⟩]) fun _ => rfl)
      ?_ ?_ fun _ _ _ h => absurd rfl h
    · rintro a s' _ rfl
      exact hrest _ s' fun _ _ => .pure rfl
    · rintro f s' _ rfl
      exact hrest _ s' fun _ _ => .pure rfl

/-- **Leaving.** Whatever has been done while files were open, and however it has ended, each of them
is closed then, and nothing else is done. -/
theorem closing_leaves {x : Shell (σ × Trace) α} {Q : Post α} (hx : Ensures k x s Q)
    (ids : List FileId) : Ensures k (closing ids x) s fun o s' es => o ≠ .never →
      ∃ o₁ es₁ es₂, es = es₁ ++ es₂ ∧ Q o₁ s' es₁ ∧ es₂.Only Request.isClose ∧
        es₂.closedFiles = ids ∧ AfterClosing o₁ o es₂ := by
  -- `rest` ends the run as it ended before, unless a file could not be closed
  have hclose : ∀ {rest : Option Fault → Shell (σ × Trace) α} {o₁ : Outcome α} {s' es₁},
      Q o₁ s' es₁ → (∀ f, rest (some f) = Shell.raise f) →
      Ensures k (rest none) s' (fun o s'' es => o = o₁ ∧ s'' = s' ∧ es = []) →
      Ensures k (closeAll ids >>= rest) s' fun o s'' es => o ≠ .never → ∃ o₁ es' es₂,
        es₁ ++ es = es' ++ es₂ ∧ Q o₁ s'' es' ∧ es₂.Only Request.isClose ∧
          es₂.closedFiles = ids ∧ AfterClosing o₁ o es₂ := by
    intro rest o₁ s' es₁ hq hfault hrest
    refine ((closeAll_ensures ids).and (closeAll_closedFiles ids)).bind ?_ ?_ ?_
    · rintro (_ | f) s' es ⟨⟨rfl, hes, hc⟩, hids⟩
      · refine hrest.mono ?_
        rintro o s' _ ⟨rfl, rfl, rfl⟩ -
        exact ⟨_, _, _, by rw [List.append_nil], hq, hes, hids (by simp), .inl ⟨rfl, hc⟩⟩
      · rw [hfault]
        exact .raise fun _ => ⟨_, _, _, by rw [List.append_nil], hq, hes, hids (by simp),
          .inr (.inl ⟨f, rfl, hc⟩)⟩
    · rintro e s' es ⟨⟨-, -, hc⟩, -⟩
      exact hc.elim
    · exact fun _ _ _ h => absurd rfl h
  exact Ensures.attempt_bind hx
    (fun a s' es hq => hclose hq (fun _ => rfl) (.pure ⟨rfl, rfl, rfl⟩))
    (fun e s' es hq => hclose hq (fun _ => rfl) (.raise ⟨rfl, rfl, rfl⟩))
    fun s' es _ h => absurd rfl h

/-! ### Opening -/

/-- Files have been opened, all of them, and none was closed. -/
structure Complete (ids : List FileId) (es : Trace) : Prop where
  faults : es.openFaults = []
  opened : es.openedFiles = ids
  closed : es.closedFiles = []

/-- One of some files could not be opened while others were open, and this is told by a fault `g`. If
what opening it has met is a fault of input or output, all files have been closed, the last one first;
else none has been. -/
def Broken (others : List FileId) (ts : List Target) (g : Fault) (es : Trace) : Prop :=
  ∃ t ∈ ts, ∃ f, es.openFaults = [f] ∧
    es.closedFiles = (if f.isIo then es.openedFiles.reverse ++ others else []) ∧
    (g = t.fault f ∨ f.isIo = true ∧ ∃ e ∈ es, e.request.isClose = true ∧ e.fault? = some g)

theorem Complete.nil : Complete [] [] := ⟨rfl, rfl, rfl⟩

theorem Complete.then {ids' : List FileId} (h : Complete ids es) (h' : Complete ids' es') :
    Complete (ids ++ ids') (es ++ es') := by
  constructor
  · rw [Trace.openFaults_append, h.faults, h'.faults, List.append_nil]
  · rw [Trace.openedFiles_append, h.opened, h'.opened]
  · rw [Trace.closedFiles_append, h.closed, h'.closed, List.append_nil]

theorem Broken.mono {ts' : List Target} (h : Broken others ts g es) (hts : ts ⊆ ts') :
    Broken others ts' g es := by
  obtain ⟨t, ht, h⟩ := h
  exact ⟨t, hts ht, h⟩

/-- Where one of some files cannot be opened, those opened before them go with the others. -/
theorem Broken.after (h : Complete ids es) (h' : Broken (ids.reverse ++ others) ts g es') :
    Broken others ts g (es ++ es') := by
  obtain ⟨t, ht, f, hfault, hclosed, hg⟩ := h'
  refine ⟨t, ht, f, ?_, ?_, hg.imp_right fun ⟨hio, e, he, hfault⟩ =>
    ⟨hio, e, List.mem_append_right _ he, hfault⟩⟩
  · rw [Trace.openFaults_append, h.faults, hfault, List.nil_append]
  · rw [Trace.closedFiles_append, h.closed, hclosed, Trace.openedFiles_append, h.opened,
      List.reverse_append, List.append_assoc, List.nil_append]

/-- How opening files has ended: they are all open, or one of them could not be opened. -/
def Enters (others : List FileId) (ts : List Target) (ids : α → List FileId) (o : Outcome α)
    (es : Trace) : Prop :=
  (∃ a, o = .returned a ∧ Complete (ids a) es) ∨ ∃ g, o = .raised g ∧ Broken others ts g es

theorem openTarget_tries (operand : String) (mode : OpenMode) :
    Ensures k (openTarget operand mode) s fun o s' es => s' = s ∧
      (∀ id, o = .returned id → Complete [id] es) ∧
      ∀ g, o = .raised g → ∃ f, g = Target.fault ⟨operand, mode⟩ f ∧ es.openFaults = [f] ∧
        es.openedFiles = [] ∧ es.closedFiles = [] := by
  refine Ensures.session_bind (Ensures.handle (.ask (Q := fun o s' es => s' = s ∧
    es = [⟨.openFile (s.resolve operand).toString mode, o⟩]) fun o => ⟨rfl, rfl⟩) ?_ ?_ ?_ ?_)
  · rintro id s' es ⟨rfl, rfl⟩
    refine ⟨rfl, ?_, fun _ => (by simp)⟩
    rintro _ ⟨⟩
    exact ⟨rfl, rfl, rfl⟩
  · rintro f s' es hio ⟨rfl, rfl⟩
    refine .raise ⟨rfl, fun _ => (by simp), ?_⟩
    rintro _ ⟨⟩
    exact ⟨f, by rw [Target.fault, if_pos hio], rfl, rfl, rfl⟩
  · rintro f s' es hio ⟨rfl, rfl⟩
    refine ⟨rfl, fun _ => (by simp), ?_⟩
    rintro _ ⟨⟩
    exact ⟨f, by rw [Target.fault, if_neg (by simp [hio])], rfl, rfl, rfl⟩
  · rintro s' es ⟨rfl, rfl⟩
    exact ⟨rfl, fun _ => (by simp), fun _ => (by simp)⟩

theorem openOptional_enters (operand : Option String) (mode : OpenMode) (others : List FileId) :
    Ensures k (openOptional operand mode others) s fun o s' es => s' = s ∧
      (o ≠ .never → Enters others (targetsOf operand mode) Option.toList o es) := by
  cases operand with
  | none => exact .pure ⟨rfl, fun _ => .inl ⟨none, rfl, .nil⟩⟩
  | some operand =>
    refine Ensures.map (Q := fun o s' es => s' = s ∧
      (o ≠ .never → Enters others [⟨operand, mode⟩] (fun id => [id]) o es)) ?_ ?_ ?_
      fun _ _ h => ⟨h.1, fun hn => absurd rfl hn⟩
    · refine Ensures.handle (openTarget_tries operand mode) ?_ ?_ ?_
        fun _ _ h => ⟨h.1, fun hn => absurd rfl hn⟩
      · rintro id s' es ⟨rfl, hopened, -⟩
        exact ⟨rfl, fun _ => .inl ⟨id, rfl, hopened id rfl⟩⟩
      · rintro g s' es hcannot ⟨rfl, -, hfails⟩
        obtain ⟨f, rfl, hfault, hopened, hclosed⟩ := hfails g rfl
        rw [Target.isCannotOpen_fault] at hcannot
        refine ((closing_leaves (Q := fun o s'' es => s'' = s' ∧ es = [] ∧
          o = .raised (Target.fault ⟨operand, mode⟩ f)) (.raise ⟨rfl, rfl, rfl⟩) others).and
          (Ensures.closing (Q := fun _ s'' _ => s'' = s') others (.raise rfl))).mono ?_
        rintro o s'' es₁ ⟨hleaves, ⟨-, -, -, -, rfl, -⟩⟩
        refine ⟨rfl, fun hn => ?_⟩
        obtain ⟨_, es', es₂, rfl, ⟨-, rfl, rfl⟩, honly, hids, hafter⟩ := hleaves hn
        have hbroken : ∀ g', (g' = Target.fault ⟨operand, mode⟩ f ∨ f.isIo = true ∧
            ∃ e ∈ es ++ ([] ++ es₂), e.request.isClose = true ∧ e.fault? = some g') →
            Broken others [⟨operand, mode⟩] g' (es ++ ([] ++ es₂)) := by
          refine fun g' hg => ⟨_, .head _, f, ?_, ?_, hg⟩
          · simp [hfault, Trace.openFaults_of_isClose honly]
          · simp [hclosed, hopened, hids, hcannot, Trace.openedFiles_of_isClose honly]
        rcases hafter with ⟨rfl, -⟩ | ⟨g', rfl, e, he, hg⟩ | ⟨rfl, -⟩
        · exact .inr ⟨_, rfl, hbroken _ (.inl rfl)⟩
        · exact .inr ⟨g', rfl, hbroken g' (.inr ⟨hcannot, e, by simp [he], honly e he, hg⟩)⟩
        · exact absurd rfl hn
      · rintro g s' es hcannot ⟨rfl, -, hfails⟩
        obtain ⟨f, rfl, hfault, hopened, hclosed⟩ := hfails g rfl
        rw [Target.isCannotOpen_fault] at hcannot
        refine ⟨rfl, fun _ => .inr ⟨_, rfl, _, .head _, f, hfault, ?_, .inl rfl⟩⟩
        simp [hclosed, hcannot]
    · rintro id s' es ⟨rfl, h⟩
      refine ⟨rfl, fun _ => ?_⟩
      rcases h (by simp) with ⟨_, ⟨⟩, hcomplete⟩ | ⟨g, hg, -⟩
      · exact .inl ⟨some id, rfl, hcomplete⟩
      · cases hg
    · rintro g s' es ⟨rfl, h⟩
      refine ⟨rfl, fun _ => ?_⟩
      rcases h (by simp) with ⟨id, hid, -⟩ | ⟨_, ⟨⟩, hbroken⟩
      · cases hid
      · exact .inr ⟨g, rfl, hbroken⟩

theorem Enters.complete {ids : α → List FileId} {a : α} (h : Enters others ts ids (.returned a) es) :
    Complete (ids a) es := by
  rcases h with ⟨_, ⟨⟩, h⟩ | ⟨_, h, -⟩
  · exact h
  · cases h

theorem Enters.broken {ids : α → List FileId} (h : Enters others ts ids (.raised g : Outcome α) es) :
    Broken others ts g es := by
  rcases h with ⟨_, h, -⟩ | ⟨_, ⟨⟩, h⟩
  · cases h
  · exact h

/-- **Entering.** The files of a stage are opened, all of them, or one of them cannot be. -/
theorem openStage_enters (w : Wiring) : Ensures k (openStage w) s fun o s' es => s' = s ∧
    (o ≠ .never → Enters [] w.targets (fun files => files.ids.reverse) o es) := by
  refine Ensures.bind (openOptional_enters _ _ _) ?_
    (fun g _ _ h => ⟨h.1, fun _ => .inr ⟨g, rfl, (h.2 (by simp)).broken.mono (by simp [Wiring.targets])⟩⟩)
    fun _ _ h => ⟨h.1, fun hn => absurd rfl hn⟩
  rintro input s' es ⟨rfl, hinput⟩
  have hinput : Complete input.toList es := (hinput (by simp)).complete
  have hone : input.toList = input.toList.reverse ++ [] := by cases input <;> rfl
  refine Ensures.bind (openOptional_enters _ _ _) ?_
    (fun g _ _ h => ⟨h.1, fun _ => .inr ⟨g, rfl,
      (Broken.after hinput (hone ▸ (h.2 (by simp)).broken)).mono (by simp [Wiring.targets, outputMode])⟩⟩)
    fun _ _ h => ⟨h.1, fun hn => absurd rfl hn⟩
  rintro output s' es' ⟨rfl, houtput⟩
  have hboth : Complete (input.toList ++ output.toList) (es ++ es') :=
    hinput.then (houtput (by simp)).complete
  have htwo : output.toList ++ input.toList = (input.toList ++ output.toList).reverse ++ [] := by
    cases input <;> cases output <;> rfl
  refine Ensures.bind (openOptional_enters _ _ _) ?_
    (fun g _ _ h => ⟨h.1, fun _ => .inr ⟨g, rfl, ?_⟩⟩) fun _ _ h => ⟨h.1, fun hn => absurd rfl hn⟩
  · rintro error s' es'' ⟨rfl, herror⟩
    refine .pure ⟨rfl, fun _ => .inl ⟨_, rfl, ?_⟩⟩
    have hall := hboth.then (herror (by simp)).complete
    rw [List.append_nil, ← List.append_assoc]
    have hids : input.toList ++ output.toList ++ error.toList =
        (StageFiles.mk input output error).ids.reverse := by
      cases input <;> cases output <;> cases error <;> rfl
    rw [hids] at hall
    exact hall
  · rw [← List.append_assoc]
    exact (Broken.after hboth (htwo ▸ (h.2 (by simp)).broken)).mono (by simp [Wiring.targets])

/-- **All or nothing.** Opening the files of a stage brings all of them; or else one of them cannot be
opened, and then a fault is raised, and those that were opened before it are closed again just where
there are none or what it has met is a fault of input or output. Once all are open, whatever is done
with them and however that ends, each of them is closed in the end, the last one first. -/
theorem openStage_all_or_nothing {x : StageFiles → Shell (σ × Trace) α} {Q : StageFiles → Post α}
    (hx : ∀ files, Ensures k (x files) s (Q files)) (w : Wiring) :
    (Ensures k (openStage w) s fun o s' es => s' = s ∧ (o ≠ .never →
      (∃ files, o = .returned files ∧ es.openFaults = [] ∧ es.closedFiles = [] ∧
        es.openedFiles = files.ids.reverse) ∨
      ∃ g f, o = .raised g ∧ es.openFaults = [f] ∧
        (f.isIo = true → es.closedFiles = es.openedFiles.reverse) ∧
        ((∀ id ∈ es.openedFiles, id ∈ es.closedFiles) ↔ f.isIo = true ∨ es.openedFiles = []))) ∧
    ∀ files, Ensures k (closing files.ids (x files)) s fun o s' es => o ≠ .never →
      ∃ o₁ es₁ es₂, es = es₁ ++ es₂ ∧ Q files o₁ s' es₁ ∧ es₂.Only Request.isClose ∧
        es₂.closedFiles = files.ids ∧ AfterClosing o₁ o es₂ := by
  refine ⟨(openStage_enters w).mono ?_, fun files => closing_leaves (hx files) files.ids⟩
  rintro o s' es ⟨rfl, henters⟩
  refine ⟨rfl, fun hn => ?_⟩
  rcases henters hn with ⟨files, rfl, h⟩ | ⟨g, rfl, t, -, f, hfault, hclosed, -⟩
  · exact .inl ⟨files, rfl, h.faults, h.closed, h.opened⟩
  · rw [List.append_nil] at hclosed
    refine .inr ⟨g, f, rfl, hfault, fun hio => by rw [hclosed, if_pos hio], ?_⟩
    cases hio : f.isIo with
    | true => simp [hclosed, hio]
    | false => simp [hclosed, hio, List.eq_nil_iff_forall_not_mem]

end Shell

/-! ### A host with one file -/

open Host

/-- A host that knows no programs. -/
def scriptlessHost : Host Scripted where
  programs := Scripted.programs []

/-- A machine with a file `in`. -/
def oneFileMachine : Machine Scripted :=
  { files := ⟨#[.directory FileSystem.root [("in", 1)], .file [120, 10] false]⟩ }

/-- A stage that reads `in`, writes `out`, and has its errors go to some file. -/
def threeFiles (error : String) : Wiring where
  stdin := .file
  stdout := .file
  stderr := .file
  inputPath := some "in"
  outputPath := some "out"
  errorPath := some error

/-- Opening the files of such a stage. -/
def stageOpening (error : String) : Outcome StageFiles × World (Machine Scripted × Trace) :=
  Shell.openStage (threeFiles error) scriptlessHost.kernel.traced ⟨rootSession, (oneFileMachine, [])⟩

/-- Where the third file is in a directory that is not there, the first two are closed. Whoever is
interrupted with three files open closes them too. -/
theorem openStage_all_or_nothing_of_missing :
    (stageOpening "no/e").1 = .raised (.cannotOpen "no/e" "No such file or directory") ∧
      (stageOpening "no/e").2.outside.2.openedFiles = [0, 1] ∧
      (∀ id ∈ [0, 1], id ∈ (stageOpening "no/e").2.outside.2.closedFiles) ∧
      Ensures scriptlessHost.kernel (Shell.closing [2, 1, 0] (Shell.raise .interrupt : Shell _ Unit))
        rootSession fun o _ es => o ≠ .never → es.closedFiles = [2, 1, 0] := by
  have hraised : (stageOpening "no/e").1 =
      .raised (.cannotOpen "no/e" "No such file or directory") := by cbv
  have hopened : (stageOpening "no/e").2.outside.2.openedFiles = [0, 1] := by cbv
  have hfault : (stageOpening "no/e").2.outside.2.openFaults = [.system 2 (some "/no/e")] := by cbv
  have hx : ∀ files : StageFiles, Ensures scriptlessHost.kernel (Shell.raise .interrupt : Shell _ Unit)
      rootSession fun o s' es => o = .raised .interrupt ∧ s' = rootSession ∧ es = [] :=
    fun _ => .raise ⟨rfl, rfl, rfl⟩
  obtain ⟨henters, hleaves⟩ := Shell.openStage_all_or_nothing hx (threeFiles "no/e")
  refine ⟨hraised, hopened, ?_, (hleaves ⟨some 0, some 1, some 2⟩).mono ?_⟩
  · have hrun : Shell.openStage (threeFiles "no/e") scriptlessHost.kernel.traced
      ⟨rootSession, (oneFileMachine, [])⟩ = stageOpening "no/e" := rfl
    generalize stageOpening "no/e" = run at *
    obtain ⟨o, s', m', es⟩ := run
    obtain ⟨-, -, h⟩ := henters.run hrun
    obtain rfl : o = _ := hraised
    rcases h (by simp) with ⟨files, hfiles, -⟩ | ⟨g, f, -, hf, -, hiff⟩
    · cases hfiles
    · obtain rfl : f = .system 2 (some "/no/e") := (List.cons.inj (hf.symm.trans hfault)).1
      exact hopened ▸ hiff.2 (.inl rfl)
  · rintro o s' es hclosed hn
    obtain ⟨_, es₁, es₂, rfl, ⟨-, -, rfl⟩, -, hids, -⟩ := hclosed hn
    rw [List.nil_append]
    exact hids

/-- Where the name of the third file has a NUL, the first two stay open. -/
theorem openStage_leaves_open :
    (stageOpening "e\x00").1 = .raised .embeddedNul ∧
      (stageOpening "e\x00").2.outside.2.openedFiles = [0, 1] ∧
      (stageOpening "e\x00").2.outside.2.closedFiles = [] ∧
      ((stageOpening "e\x00").2.outside.1.handles.map (·.closed)).toList = [false, false] := by
  refine ⟨?_, ?_, ?_, ?_⟩ <;> cbv

end LineShell
