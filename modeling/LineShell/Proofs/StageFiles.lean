import LineShell.Proofs.Ensures
import LineShell.Shell.StageFiles

namespace LineShell

/-!
# Opening and closing the files of a stage

* `closeAll_ensures` — closing files answers with a fault just where a close has failed;
* `Ensures.closing` — what a run ensures, with the closing of files after it;
* `openStage_ensures` — opening the files of a stage concerns no process, and opens them as its
  wiring says.
-/

variable {σ α : Type} {k : Kernel σ} {s : Session}

/-- Whether a request closes a file. -/
def Request.isClose : Request → Bool
  | .closeFile _ => true
  | _ => false

theorem Request.isAside_of_isClose {r : Request} (h : r.isClose = true) : r.isAside = true := by
  cases r <;> first | rfl | cases h

namespace Shell

/-- What comes of closing files: no fault if each close returned, else the fault of one of them. -/
def Closed (o : Outcome (Option Fault)) (es : Trace) : Prop :=
  match o with
  | .returned none => es.Smooth
  | .returned (some f) => ∃ e ∈ es, e.fault? = some f
  | .raised _ => False
  | .never => ∃ e ∈ es, e.outcome = .never

theorem closeAll_ensures (ids : List FileId) :
    Ensures k (closeAll ids) s fun o s' es => s' = s ∧ es.Only Request.isClose ∧ Closed o es := by
  induction ids with
  | nil => exact .pure ⟨rfl, Trace.only_nil _, Trace.smooth_nil⟩
  | cons id ids ih =>
    -- the answer is the fault of a later close, or else the one of this close
    refine Ensures.attempt_bind (.ask (Q := fun o s' es => s' = s ∧ es = [⟨.closeFile id, o⟩])
      fun o => ⟨rfl, rfl⟩) ?_ ?_ ?_
    · rintro a s' es ⟨rfl, rfl⟩
      refine ih.bind ?_ ?_ ?_
      · rintro (_ | f) s' es ⟨rfl, hes, hc⟩
        · have hsmooth : Trace.Smooth (⟨.closeFile id, .returned a⟩ :: es) :=
            Trace.smooth_cons.2 ⟨⟨a, rfl⟩, hc⟩
          exact .pure ⟨rfl, by simpa [Request.isClose] using hes,
            by rw [List.append_nil]; exact hsmooth⟩
        · obtain ⟨e, he, hf⟩ := hc
          exact .pure ⟨rfl, by simpa [Request.isClose] using hes, e, by simp [he], hf⟩
      · rintro e s' es ⟨-, -, hc⟩
        exact hc.elim
      · rintro s' es ⟨rfl, hes, e, he, hn⟩
        exact ⟨rfl, by simpa [Request.isClose] using hes, e, by simp [he], hn⟩
    · rintro f s' es ⟨rfl, rfl⟩
      refine ih.bind ?_ ?_ ?_
      · rintro (_ | g) s' es ⟨rfl, hes, hc⟩
        · exact .pure ⟨rfl, by simpa [Request.isClose] using hes,
          ⟨.closeFile id, .raised f⟩, List.mem_cons_self, rfl⟩
        · obtain ⟨e, he, hf⟩ := hc
          exact .pure ⟨rfl, by simpa [Request.isClose] using hes, e, by simp [he], hf⟩
      · rintro e s' es ⟨-, -, hc⟩
        exact hc.elim
      · rintro s' es ⟨rfl, hes, e, he, hn⟩
        exact ⟨rfl, by simpa [Request.isClose] using hes, e, by simp [he], hn⟩
    · rintro s' es ⟨rfl, rfl⟩
      exact ⟨rfl, by simp [Request.isClose], _, List.mem_singleton_self _, rfl⟩

/-- How a run ends that closes files after one that ended in some way: in the same way, or with
a fault of closing. -/
def AfterClosing (o₁ : Outcome α) (o : Outcome α) (es : Trace) : Prop :=
  (o = o₁ ∧ es.Smooth) ∨ (∃ f, o = .raised f ∧ ∃ e ∈ es, e.fault? = some f) ∨
    (o = .never ∧ ∃ e ∈ es, e.outcome = .never)

/-- A run that returns after its files were closed has returned before. -/
theorem AfterClosing.returned {o o' : Outcome α} {es : Trace} {a : α}
    (h : AfterClosing o o' es) (ha : o' = .returned a) : o = .returned a := by
  rcases h with ⟨rfl, -⟩ | ⟨f, rfl, -⟩ | ⟨rfl, -⟩
  · exact ha
  · cases ha
  · cases ha

end Shell

open Shell

/-- After a run its files are closed, whatever came of it. -/
theorem Ensures.closing {x : Shell (σ × Trace) α} {Q : Post α} (ids : List FileId)
    (hx : Ensures k x s Q) : Ensures k (Shell.closing ids x) s fun o s' es => ∃ o₁ es₁ es₂, es = es₁ ++ es₂ ∧
      Q o₁ s' es₁ ∧ es₂.Only Request.isClose ∧ AfterClosing o₁ o es₂ := by
  -- the files are closed alike after an answer and after a fault; `rest` ends the run as it ended
  -- before, unless a file could not be closed
  have hclose : ∀ {rest : Option Fault → Shell (σ × Trace) α} {o₁ : Outcome α} {s' es₁},
      Q o₁ s' es₁ → (∀ f, rest (some f) = Shell.raise f) →
      Ensures k (rest none) s' (fun o s'' es => o = o₁ ∧ s'' = s' ∧ es = []) →
      Ensures k (closeAll ids >>= rest) s' fun o s'' es => ∃ o₁ es' es₂,
        es₁ ++ es = es' ++ es₂ ∧ Q o₁ s'' es' ∧ es₂.Only Request.isClose ∧
          AfterClosing o₁ o es₂ := by
    intro rest o₁ s' es₁ hq hfault hrest
    refine (closeAll_ensures ids).bind ?_ ?_ ?_
    · rintro (_ | f) s' es ⟨rfl, hes, hc⟩
      · refine hrest.mono ?_
        rintro o s' _ ⟨rfl, rfl, rfl⟩
        exact ⟨_, _, _, by rw [List.append_nil], hq, hes, .inl ⟨rfl, hc⟩⟩
      · rw [hfault]
        exact .raise ⟨_, _, _, by rw [List.append_nil], hq, hes, .inr (.inl ⟨f, rfl, hc⟩)⟩
    · rintro e s' es ⟨-, -, hc⟩
      exact hc.elim
    · rintro s' es ⟨rfl, hes, hc⟩
      exact ⟨_, _, _, rfl, hq, hes, .inr (.inr ⟨rfl, hc⟩)⟩
  refine Ensures.attempt_bind hx
    (fun a s' es hq => hclose hq (fun _ => rfl) (.pure ⟨rfl, rfl, rfl⟩))
    (fun e s' es hq => hclose hq (fun _ => rfl) (.raise ⟨rfl, rfl, rfl⟩)) fun s' es hq => ?_
  exact ⟨_, es, [], by simp, hq, Trace.only_nil _, .inl ⟨rfl, Trace.smooth_nil⟩⟩

namespace Shell

theorem openTarget_ensures (operand : String) (mode : OpenMode) :
    Ensures k (openTarget operand mode) s fun o s' es => s' = s ∧ es.Aside ∧
      ∀ id, o = .returned id → ⟨.openFile (s.resolve operand).toString mode, .returned id⟩ ∈ es := by
  refine Ensures.session_bind (Ensures.handle (.ask (Q := fun o s' es => s' = s ∧
    es = [⟨.openFile (s.resolve operand).toString mode, o⟩]) fun o => ⟨rfl, rfl⟩) ?_ ?_ ?_ ?_)
  · rintro id s' es ⟨rfl, rfl⟩
    refine ⟨rfl, by simp [Request.isAside], ?_⟩
    rintro _ ⟨⟩
    exact .head _
  · rintro f s' es - ⟨rfl, rfl⟩
    exact .raise ⟨rfl, by simp [Request.isAside], fun _ => nofun⟩
  · rintro f s' es - ⟨rfl, rfl⟩
    exact ⟨rfl, by simp [Request.isAside], fun _ => nofun⟩
  · rintro s' es ⟨rfl, rfl⟩
    exact ⟨rfl, by simp [Request.isAside], fun _ => nofun⟩

/-- A file has been opened for an operand, if there is one. -/
def Opened (s : Session) (operand : Option String) (mode : OpenMode) (file : Option FileId)
    (es : Trace) : Prop :=
  match operand with
  | none => file = none
  | some operand =>
    ∃ id, file = some id ∧ ⟨.openFile (s.resolve operand).toString mode, .returned id⟩ ∈ es

theorem Opened.mono {operand : Option String} {mode : OpenMode} {file : Option FileId}
    {es es' : Trace} (h : Opened s operand mode file es) (hsub : es ⊆ es') :
    Opened s operand mode file es' := by
  cases operand with
  | none => exact h
  | some operand =>
    obtain ⟨id, hid, hmem⟩ := h
    exact ⟨id, hid, hsub hmem⟩

theorem openOptional_ensures (operand : Option String) (mode : OpenMode) (others : List FileId) :
    Ensures k (openOptional operand mode others) s fun o s' es => s' = s ∧ es.Aside ∧
      ∀ file, o = .returned file → Opened s operand mode file es := by
  cases operand with
  | none =>
    refine .pure ⟨rfl, Trace.only_nil _, ?_⟩
    rintro _ ⟨⟩
    rfl
  | some operand =>
    refine Ensures.map (Q := fun o s' es => s' = s ∧ es.Aside ∧ ∀ id, o = .returned id →
      ⟨.openFile (s.resolve operand).toString mode, .returned id⟩ ∈ es) ?_ ?_ ?_ ?_
    · refine Ensures.handle (openTarget_ensures operand mode) (fun _ _ _ h => h) ?_
        (fun _ _ _ _ h => h) fun _ _ h => h
      rintro f s' es - ⟨rfl, hes, -⟩
      refine (Ensures.closing (Q := fun o s'' es => s'' = s' ∧ es.Aside ∧ o = .raised f) others
        (.raise ⟨rfl, Trace.only_nil _, rfl⟩)).mono ?_
      rintro o s'' es' ⟨o₁, es₁, es₂, rfl, ⟨rfl, h₁, rfl⟩, h₂, hafter⟩
      refine ⟨rfl, ?_, fun id hid => ?_⟩
      · exact Trace.only_append.2 ⟨hes, Trace.only_append.2
          ⟨h₁, h₂.mono fun _ => Request.isAside_of_isClose⟩⟩
      · cases hafter.returned hid
    · rintro id s' es ⟨rfl, hes, hid⟩
      refine ⟨rfl, hes, ?_⟩
      rintro _ ⟨⟩
      exact ⟨id, rfl, hid id rfl⟩
    · rintro f s' es ⟨rfl, hes, -⟩
      exact ⟨rfl, hes, fun _ => nofun⟩
    · rintro s' es ⟨rfl, hes, -⟩
      exact ⟨rfl, hes, fun _ => nofun⟩

/-- What a stage's output file is opened for. -/
def outputMode (w : Wiring) : OpenMode := if w.append then .append else .write

/-- The files of a stage have been opened as its wiring says. -/
structure FilesOpened (s : Session) (w : Wiring) (files : StageFiles) (es : Trace) : Prop where
  input : Opened s w.inputPath .read files.input es
  output : Opened s w.outputPath (outputMode w) files.output es
  error : Opened s w.errorPath .write files.error es

theorem FilesOpened.mono {w : Wiring} {files : StageFiles} {es es' : Trace}
    (h : FilesOpened s w files es) (hsub : es ⊆ es') : FilesOpened s w files es' :=
  ⟨h.input.mono hsub, h.output.mono hsub, h.error.mono hsub⟩

/-- Opening the files of a stage concerns no process. When it returns, they have been opened as the
wiring says. -/
theorem openStage_ensures (w : Wiring) :
    Ensures k (openStage w) s fun o s' es => s' = s ∧ es.Aside ∧
      ∀ files, o = .returned files → FilesOpened s w files es := by
  refine Ensures.bind (openOptional_ensures _ _ _) ?_
    (fun _ _ _ h => ⟨h.1, h.2.1, fun _ => nofun⟩) fun _ _ h => ⟨h.1, h.2.1, fun _ => nofun⟩
  rintro input s' es ⟨rfl, hes, hinput⟩
  refine Ensures.bind (openOptional_ensures _ _ _) ?_
    (fun _ _ _ h => ⟨h.1, Trace.only_append.2 ⟨hes, h.2.1⟩, fun _ => nofun⟩)
    fun _ _ h => ⟨h.1, Trace.only_append.2 ⟨hes, h.2.1⟩, fun _ => nofun⟩
  rintro output s' es' ⟨rfl, hes', houtput⟩
  refine Ensures.map (openOptional_ensures _ _ _) ?_
    (fun _ _ _ h => ⟨h.1, Trace.only_append.2 ⟨hes, Trace.only_append.2 ⟨hes', h.2.1⟩⟩,
      fun _ => nofun⟩)
    fun _ _ h => ⟨h.1, Trace.only_append.2 ⟨hes, Trace.only_append.2 ⟨hes', h.2.1⟩⟩,
      fun _ => nofun⟩
  rintro error s' es'' ⟨rfl, hes'', herror⟩
  refine ⟨rfl, Trace.only_append.2 ⟨hes, Trace.only_append.2 ⟨hes', hes''⟩⟩, ?_⟩
  rintro _ ⟨⟩
  exact ⟨(hinput input rfl).mono fun e he => by simp [he],
    (houtput output rfl).mono fun e he => by simp [he],
    (herror error rfl).mono fun e he => by simp [he]⟩

end Shell

end LineShell
