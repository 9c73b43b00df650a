import Mathlib
import LineShell.Proofs.PromptLoop
import LineShell.Proofs.Redirections
import LineShell.Proofs.RelayCopy
import LineShell.Startup

namespace LineShell

open Shell

/-!
# What settings are good for

Where the settings go that an environment and the options make, and which of them are refused there.

* `launch_chunked`, `execute_chunked`, `serveLines_asSet`, `serve_asSet` — that all relays, over a
  whole run, are started with the chunk that is set;
* `relay_delivers_iff` — that a relay loses nothing just if its chunk is one that a read can be asked
  for;
* `loadHistory_runs`, `opening_runs`, `serve_heard_iff` — that the user comes to be asked, unless the
  line editor is told of a number of lines that it does not take;
* `Level.threshold_cases` — what the name of a level shows;
* `Startup.settings_reach` — all this of the settings that a startup makes.

A chunk is only bounded below, a number of lines not at all, and two names of levels stand for things
that are no levels. So not all settings are good for something.
-/

variable {σ α β : Type} {k : Kernel σ} {s : Session} {chunk : Int}

/-! ### The chunk of relays -/

/-- Whether a request that starts a relay has it move so many bytes at a time. -/
def Request.isChunked (chunk : Int) : Request → Bool
  | .startRelay _ _ n => n == chunk
  | _ => true

theorem Request.isChunked_of_isAside {r : Request} (h : r.isAside = true) :
    r.isChunked chunk = true := by
  cases r <;> first | rfl | cases h

theorem Request.isChunked_of_isAfter {last : Option ProcessId} {r : Request}
    (h : r.isAfter last = true) : r.isChunked chunk = true := by
  cases r <;> first | rfl | cases h

theorem Request.isChunked_of_isOwn {r : Request} (h : r.isOwn = true) :
    r.isChunked chunk = true := by
  cases r <;> first | rfl | cases h

namespace Shell

theorem start_chunked (command : Command) (streams : Streams) :
    Asks k (Request.isChunked chunk) (start command streams) := by
  refine fun s => .session_bind (Asks.bind (.ask rfl) (fun _ => ?_) s)
  refine (Asks.ask rfl).attempt.bind fun pid => ?_
  rcases pid with f | pid
  · show Asks k _ (if f.isIo then report _ >>= fun _ => Pure.pure _ else raise f)
    split
    · exact (Asks.ask rfl).bind fun _ => .pure _
    · exact .raise f
  · exact (Asks.ask rfl).bind fun _ => .pure _

/-- The relays between the stages of a line all get the same chunk. -/
theorem launch_chunked (foreground : Bool) (before : Predecessor) (plans : List Plan) :
    Asks k (Request.isChunked chunk) (launch foreground chunk before plans) := by
  induction plans generalizing before with
  | nil => exact .pure _
  | cons plan plans ih =>
    rw [launch_cons]
    have hlink : ∀ pid, Asks k (Request.isChunked chunk) (link chunk before pid) := by
      intro pid
      cases before with
      | running up => exact (Asks.ask (beq_self_eq_true chunk)).bind fun _ => .pure _
      | none => exact .pure _
      | missing => exact .pure _
    exact (start_chunked _ _).bind fun pid => (hlink pid).bind fun _ => (ih _).bind fun _ => .pure _

/-- A part of a run that comes after another makes requests of the same kind. -/
theorem only_bind {p : Request → Bool} {x : Shell (σ × Trace) α} {f : α → Shell (σ × Trace) β}
    (hx : Ensures k x s fun _ _ es => es.Only p)
    (hf : ∀ a s', Ensures k (f a) s' fun _ _ es => es.Only p) :
    Ensures k (x >>= f) s fun _ _ es => es.Only p :=
  hx.bind (fun a s' _ hes => (hf a s').mono fun _ _ _ h => Trace.only_append.2 ⟨hes, h⟩)
    (fun _ _ _ h => h) fun _ _ h => h

theorem closing_chunked {x : Shell (σ × Trace) α} (ids : List FileId)
    (hx : Ensures k x s fun _ _ es => es.Only (Request.isChunked chunk)) :
    Ensures k (closing ids x) s fun _ _ es => es.Only (Request.isChunked chunk) := by
  refine (Ensures.closing ids hx).mono ?_
  rintro o s' _ ⟨o₁, es₁, es₂, rfl, hes, hclosed, -⟩
  exact Trace.only_append.2 ⟨hes, hclosed.mono fun _ h =>
    Request.isChunked_of_isAside (Request.isAside_of_isClose h)⟩

theorem runPipeline_chunked (line : CommandLine) : Ensures k (runPipeline line) s fun _ _ es =>
    es.Only (Request.isChunked s.settings.relayChunk) := by
  rw [runPipeline_eq]
  refine (openStages_ensures _).bind ?_
    (fun _ _ _ h => h.2.1.mono fun _ => Request.isChunked_of_isAside)
    fun _ _ h => h.2.1.mono fun _ => Request.isChunked_of_isAside
  rintro ⟨plans, fault⟩ s' es ⟨rfl, hes, -⟩
  have hopened : Ensures k (runOpened line plans fault) s' fun _ _ es =>
      es.Only (Request.isChunked s'.settings.relayChunk) := by
    cases fault with
    | some f => exact (refuse_ensures f).mono fun _ _ _ h =>
        h.2.1.mono fun _ => Request.isChunked_of_isAside
    | none =>
      rw [runOpened, runStages_eq]
      refine .session_bind (only_bind ((launch_chunked _ _ _ s').mono fun _ _ _ h => h.2) ?_)
      exact fun r s' => settle_follows.mono fun _ _ _ h =>
        h.1.mono fun _ => Request.isChunked_of_isAfter
  refine (only_bind (closing_chunked _ hopened) fun ending s' => ?_).mono fun _ _ _ h =>
    Trace.only_append.2 ⟨hes.mono fun _ => Request.isChunked_of_isAside, h⟩
  exact (conclude_ensures ending).mono fun _ _ _ h =>
    h.1.mono fun _ => Request.isChunked_of_isAside

theorem runSingle_chunked (line : CommandLine) : Ensures k (runSingle line) s fun _ _ es =>
    es.Only (Request.isChunked chunk) := by
  have hstart : Ensures k (startSingle line) s fun _ _ es => es.Only (Request.isChunked chunk) :=
    only_bind ((openStage_asks (fun _ _ => rfl) (fun _ => rfl) _ s).mono fun _ _ _ h => h.2)
      fun files s' => closing_chunked _ ((start_chunked _ _ s').mono fun _ _ _ h => h.2)
  rw [runSingle_eq]
  refine only_bind (.attempt hstart (fun _ _ _ h => h) (fun _ _ _ h => h) fun _ _ h => h) ?_
  exact fun started s' => (afterStart_after line started).mono fun _ _ _ h =>
    h.mono fun _ => Request.isChunked_of_isAfter

/-- **Lines.** Whatever relays a line starts have the chunk that is set. -/
theorem execute_chunked (line : CommandLine) : Ensures k (execute line) s fun _ _ es =>
    es.Only (Request.isChunked s.settings.relayChunk) := by
  unfold execute
  split
  · exact (changeDirectory_ensures _).mono fun _ _ _ h =>
      h.1.mono fun _ => Request.isChunked_of_isAside
  · split
    · exact runPipeline_chunked line
    · exact runSingle_chunked line

theorem handleNext_chunked (text : String) : Ensures k (handleNext text) s fun _ _ es =>
    es.Only (Request.isChunked s.settings.relayChunk) := by
  refine .modifySession_bind (only_bind ?_ fun _ _ => .pure (Trace.only_nil _))
  have hone : ∀ (r : Request) o, r.isChunked s.settings.relayChunk = true →
      Trace.Only (Request.isChunked s.settings.relayChunk) [⟨r, o⟩] :=
    fun r o h => Trace.only_cons.2 ⟨h, Trace.only_nil _⟩
  unfold handleLine
  split
  · exact only_bind (.ask fun _ => hone _ _ rfl) fun _ _ => .pure (Trace.only_nil _)
  · exact .pure (Trace.only_nil _)
  · refine .ask_bind (fun _ => ?_) (fun _ => hone _ _ rfl) (hone _ _ rfl)
    rw [map_eq_pure_bind]
    exact (only_bind (execute_chunked _) fun _ _ => .pure (Trace.only_nil _)).mono
      fun _ _ _ h => Trace.only_cons.2 ⟨rfl, h⟩

/-- That the settings have stayed, and relays have the chunk that is set. -/
abbrev AsSet (c : Settings) : Post α := fun _ s' es =>
  s'.settings = c ∧ es.Only (Request.isChunked c.relayChunk)

theorem asSet_bind {c : Settings} {x : Shell (σ × Trace) α} {f : α → Shell (σ × Trace) β}
    (hx : Ensures k x s (AsSet c))
    (hf : ∀ a s', s'.settings = c → Ensures k (f a) s' (AsSet c)) :
    Ensures k (x >>= f) s (AsSet c) :=
  hx.bind (fun a s' _ h => (hf a s' h.1).mono fun _ _ _ h' =>
    ⟨h'.1, Trace.only_append.2 ⟨h.2, h'.2⟩⟩) (fun _ _ _ h => h) fun _ _ h => h

theorem ask_asSet {r : Request} {c : Settings} (hs : s.settings = c)
    (hr : r.isChunked c.relayChunk = true) : Ensures k (ask r) s (AsSet c) :=
  .ask fun _ => ⟨hs, Trace.only_cons.2 ⟨hr, Trace.only_nil _⟩⟩

/-- The user is asked, and something is done about his input. -/
theorem consult_asSet {c : Settings} (user : String) (hs : s.settings = c) :
    Ensures k (consult user) s (AsSet c) := by
  refine asSet_bind ((reap_tends true s).mono fun _ _ _ h => ⟨?_, h.2.mono fun r hr => ?_⟩)
    fun _ s' hs' => .session_bind (ask_asSet hs' rfl)
  · rw [h.1, hs]
  · exact Request.isChunked_of_isOwn (Bool.and_eq_true_iff.1 hr).1

theorem act_asSet {c : Settings} (step : Step) (hs : s.settings = c) :
    Ensures k (act step) s (AsSet c) := by
  cases step with
  | skip => exact .pure ⟨hs, Trace.only_nil _⟩
  | newLine => exact ask_asSet hs rfl
  | leave words => exact ask_asSet hs rfl
  | handle line =>
    subst hs
    exact ((handleNext_keeps line).and (handleNext_chunked line)).mono
      fun _ _ _ h => ⟨h.1.1, h.2⟩

/-- **The loop.** However many lines it handles, the settings stay, and relays have the chunk that is
set. -/
theorem serveLines_asSet {c : Settings} (user : String) (rounds : Nat) (hs : s.settings = c) :
    Ensures k (serveLines user rounds) s (AsSet c) := by
  induction rounds generalizing s with
  | zero => exact .never ⟨hs, Trace.only_nil _⟩
  | succ rounds ih =>
    rw [serveLines_succ]
    refine asSet_bind (consult_asSet user hs) fun input s' hs' => ?_
    split
    · exact act_asSet _ hs'
    · exact asSet_bind (act_asSet _ hs') fun _ s'' hs'' => ih hs''

theorem leave_asSet {c : Settings} (hs : s.settings = c) : Ensures k leave s (AsSet c) := by
  subst hs
  have hend : ∀ s' : Session, s'.settings = s.settings →
      Ensures k (if s.settings.terminateOnExit then terminateAll true else pure ()) s'
        (AsSet s.settings) := by
    intro s' hs'
    split
    · refine (terminateAll_tends true s').mono fun _ _ _ h => ⟨?_, h.2.mono fun r hr => ?_⟩
      · rw [h.1, hs']
      · cases r <;> first | rfl | cases hr
    · exact .pure ⟨hs', Trace.only_nil _⟩
  refine .session_bind ?_
  show Ensures k (if s.settings.useHistory then saveHistory _ _ >>= fun _ => _ else _) s _
  split
  · refine asSet_bind ((saveHistory_asks _ _ s).mono ?_) fun _ s' hs' => hend s' hs'
    exact fun _ _ _ h => ⟨by rw [h.1], h.2.mono fun _ => Request.isChunked_of_isAside⟩
  · exact hend s rfl

/-- **All relays** that the interpreter starts, from its start to its exit, have the chunk that is
set. -/
theorem serve_asSet (user : String) : Ensures k (serve user) s (AsSet s.settings) := by
  rw [serve_opening]
  refine .session_bind (asSet_bind ?_ fun _ s₁ hs₁ => .bound_bind ?_)
  · refine (opening_opens s.settings).mono ?_
    rintro o s' es ⟨rfl, hes, -⟩
    refine ⟨rfl, hes.mono fun r hr => ?_⟩
    cases r <;> first | rfl | cases hr
  · refine asSet_bind (.attempt (serveLines_asSet user _ hs₁) (fun _ _ _ h => h) (fun _ _ _ h => h)
      fun _ _ h => h) fun result s₂ hs₂ => asSet_bind (leave_asSet hs₂) fun _ s₃ hs₃ => ?_
    cases result with
    | ok _ => exact .pure ⟨hs₃, Trace.only_nil _⟩
    | error f => exact .raise ⟨hs₃, Trace.only_nil _⟩

end Shell

/-! ### Relays with such a chunk -/

namespace Host.Machine

variable {S : Type} {m m' : Machine S}

/-- That a relay has come to its end without dying, and all that its source held has been written to
its sink. -/
def HandedOver (o i : Pipe) (r' : RelayTask) (i' : Pipe) : Prop :=
  r'.death = none ∧ ∃ written : List Text.Bytes, i'.accepted = written.reverse ++ i.accepted ∧
    written.flatten = o.buffer

/-- A relay to a sink that takes everything delivers what its source holds just if its chunk is one
that a read can be asked for. -/
theorem relay_delivers_iff {j a b : Nat} {chunk : Int} {o i : Pipe} (hchunk : 1 ≤ chunk)
    (hne : b ≠ a) (hr : m.relays[j]? = some { source := a, sink := some b, chunk })
    (ho : m.pipes[a]? = some o) (hclosed : o.writerOpen = false)
    (hending : ∀ f, o.ending = some f → f.isIo = true ∨ f.isInvalid = true)
    (hi : m.pipes[b]? = some i) (hroom : i.capacity = none) (htakes : ∀ k, i.refuses k = none) :
    ∃ m' r' i', Runs j m m' ∧ m'.relays[j]? = some r' ∧ r'.done = true ∧ m'.pipes[b]? = some i' ∧
      (HandedOver o i r' i' ↔ chunk < 9223372036854775808) := by
  have h : Between m j { source := a, sink := some b, chunk } b o i := ⟨hr, rfl, ho, rfl, hi, hne⟩
  have hsize : isReadSize chunk = true ↔ chunk < 9223372036854775808 := by
    simp only [isReadSize, Bool.and_eq_true, decide_eq_true_eq]
    omega
  rw [← hsize]
  cases hread : isReadSize chunk with
  | false =>
    obtain ⟨m', r', hstep, hr', hdone, -, hi', hdeath⟩ := h.dies rfl hread
    exact ⟨m', r', _, .single hstep, hr', hdone, hi',
      iff_of_false (fun hdelivered => hdeath hdelivered.1) (by simp)⟩
  | true =>
    have hlimit : chunkLimit chunk ≠ some 0 := chunkLimit_ne_zero (by omega)
    have hrefusal : ∀ k f, i.refuses k = some f → f.isIo = true ∨ f.isInvalid = true := by
      intro k f hf
      rw [htakes k] at hf
      cases hf
    obtain ⟨m', r', o', i', written, cause, hruns, -, hfinished, hcopied⟩ :=
      h.copies rfl hlimit hread hclosed hroom hending hrefusal
    exact ⟨m', _, _, hruns, hfinished.relay, rfl, hfinished.target,
      iff_of_true ⟨hcopied.death, written, hcopied.writes, (hcopied.bytes hlimit).2 htakes⟩ rfl⟩

end Host.Machine

/-! ### Coming to the prompt -/

/-- If the user is heard at first, there is a first turn. -/
theorem Turns.ne_nil {user : String} {rounds : Nat} {w w₁ w' : World σ} {input : Input}
    {ts : List (Turn σ)} {o : Outcome Unit} (h : Turns k user rounds w ts o w')
    (hrounds : 0 < rounds) (hask : consult user k w = (.returned input, w₁)) : ts ≠ [] := by
  cases h with
  | late => exact absurd hrounds (Nat.lt_irrefl 0)
  | unasked hraised => cases hask.symm.trans hraised
  | unheard hnever => cases hask.symm.trans hnever
  | last => exact List.cons_ne_nil _ _
  | next => exact List.cons_ne_nil _ _

namespace Host

open Machine

variable {S : Type} (h : Host S) {m m' : Machine S}

/-- Setting up the line editor leaves alone what the typed lines are loaded from and into. -/
structure SameLines (m m' : Machine S) : Prop where
  files : m'.files = m.files
  cwd : m'.cwd = m.cwd
  available : m'.editor.available = m.editor.available
  flaw : m'.editor.flaw = m.editor.flaw

theorem SameLines.refl (m : Machine S) : SameLines m m := ⟨rfl, rfl, rfl, rfl⟩

theorem SameLines.trans {m₁ : Machine S} (h : SameLines m m₁) (h' : SameLines m₁ m') :
    SameLines m m' :=
  ⟨h'.files.trans h.files, h'.cwd.trans h.cwd, h'.available.trans h.available,
    h'.flaw.trans h.flaw⟩

theorem bind_sameLines (binding : String) : ∃ o m', m.bind binding = (o, m') ∧ SameLines m m' ∧
    (o = .returned () ∨ ∃ n f, m.editor.flaw = some (n, f) ∧ o = .raised f) := by
  unfold Machine.bind
  cases hflaw : m.editor.flaw with
  | none => exact ⟨_, _, rfl, ⟨rfl, rfl, rfl, rfl⟩, .inl rfl⟩
  | some flaw =>
    obtain ⟨n, f⟩ := flaw
    dsimp only
    split
    · exact ⟨_, _, rfl, .refl m, .inr ⟨n, f, rfl, rfl⟩⟩
    · exact ⟨_, _, rfl, ⟨rfl, rfl, rfl, rfl⟩, .inl rfl⟩

theorem bindings_run (bindings : List String) (m : Machine S) : ∃ o m' es,
    RunsTo h.kernel (bindings.forM bindKey) s m o m' es ∧ SameLines m m' ∧
      (o = .returned () ∨ ∃ n f, m.editor.flaw = some (n, f) ∧ o = .raised f) := by
  induction bindings generalizing m with
  | nil => exact ⟨_, _, _, .pure, .refl m, .inl rfl⟩
  | cons binding bindings ih =>
    obtain ⟨o, m₁, hbind, hsame, ho⟩ := bind_sameLines (m := m) binding
    have hask : RunsTo h.kernel (bindKey binding) s m o m₁ [⟨.bindKey binding, o⟩] := .ask hbind
    rcases ho with rfl | ⟨n, f, hflaw, rfl⟩
    · obtain ⟨o, m', es, hruns, hsame', ho⟩ := ih m₁
      rw [hsame.flaw] at ho
      exact ⟨o, m', _, hask.bind hruns, hsame.trans hsame', ho⟩
    · exact ⟨_, m₁, _, hask.bind_raised, hsame, .inr ⟨n, f, hflaw, rfl⟩⟩

/-- Whatever is wrong with the bindings of keys is only worth a warning, unless it is the user's
interrupt. -/
theorem initEditor_runs (hflaw : ∀ n f, m.editor.flaw = some (n, f) → isError f = true) :
    ∃ m' es, RunsTo h.kernel initEditor s m (.returned ()) m' es ∧ SameLines m m' := by
  have havailable : RunsTo h.kernel editorAvailable s m (.returned m.editor.available) m _ :=
    .ask rfl
  have hterminal : RunsTo h.kernel isTerminal s m (.returned m.editor.atTerminal) m _ := .ask rfl
  unfold initEditor
  cases ha : m.editor.available with
  | false =>
    rw [ha] at havailable
    exact ⟨m, _, havailable.bind .pure, .refl m⟩
  | true =>
    cases ht : m.editor.atTerminal with
    | false =>
      rw [ha] at havailable
      rw [ht] at hterminal
      exact ⟨m, _, havailable.bind (hterminal.bind .pure), .refl m⟩
    | true =>
      rw [ha] at havailable
      rw [ht] at hterminal
      obtain ⟨o, m', es, hruns, hsame, ho⟩ := bindings_run h (s := s) History.bindings m
      rcases ho with rfl | ⟨n, f, hf, rfl⟩
      · exact ⟨m', _, havailable.bind (hterminal.bind hruns.handle), hsame⟩
      · have hwarn : RunsTo h.kernel
            (warn ("Warning: Could not configure readline: " ++ f.message)) s m' (.returned ()) _ _ :=
          .ask rfl
        exact ⟨_, _, havailable.bind (hterminal.bind (hruns.handle_raised (hflaw n f hf) hwarn)),
          hsame.trans ⟨rfl, rfl, rfl, rfl⟩⟩

/-- That loading typed lines comes to the number of them that their file keeps: the line editor is
there, and the path leads to a file, if it leads anywhere. -/
structure Machine.Loads (m : Machine S) (path : String) : Prop where
  available : m.editor.available = true
  readable : hasNul path = false → ∀ i, m.files.lookup m.cwd true path = .ok i →
    m.files.content? i ≠ none

theorem SameLines.symm (h : SameLines m m') : SameLines m' m :=
  ⟨h.files.symm, h.cwd.symm, h.available.symm, h.flaw.symm⟩

theorem SameLines.loads (h : SameLines m m') {path : String} (hloads : m.Loads path) :
    m'.Loads path where
  available := h.available.trans hloads.available
  readable := by
    rw [h.files, h.cwd]
    exact hloads.readable

/-- Whether the line editor takes a number of lines. -/
def IsLimit (size : Int) : Prop := -largestLimit - 1 ≤ size ∧ size ≤ largestLimit

/-- What is there is read if it is a file, and otherwise the system says that it is none. -/
theorem loadEntries_cases {path : String} (hnul : hasNul path = false) {i : Inode}
    (hlookup : m.files.lookup m.cwd true path = .ok i) :
    (m.files.content? i ≠ none ∧ ∃ m', m.loadEntries path = (.returned (), m')) ∨
      m.files.content? i = none ∧ ∃ e, m.loadEntries path = (.raised (.system e none), m) := by
  rw [loadEntries, if_neg (by simp [hnul]), hlookup]
  dsimp only
  cases hcontent : m.files.content? i with
  | none => exact .inr ⟨rfl, _, rfl⟩
  | some file => exact .inl ⟨by simp, _, rfl⟩

theorem exists_lookup_of_contains {path : String} (h : m.files.contains m.cwd path = true) :
    ∃ i, m.files.lookup m.cwd true path = .ok i := by
  unfold FileSystem.contains at h
  split at h
  · exact ⟨_, ‹_›⟩
  · cases h

/-- What comes of telling the line editor how many lines to keep. -/
theorem limit_runs (path : String) (size : Int) (m : Machine S) : ∃ o m' es,
    RunsTo h.kernel (do
      limitHistory size
      debug .history ("loaded " ++ toString (← historyLength) ++ " history entries from " ++ path))
      s m o m' es ∧ (IsLimit size → o = .returned ()) ∧
        (¬IsLimit size → ∃ text, o = .raised (.outOfRange text)) := by
  by_cases hsize : IsLimit size
  · have hlimit : RunsTo h.kernel (limitHistory size) s m (.returned ()) _ _ := .ask (if_pos hsize)
    exact ⟨_, _, _, hlimit.bind ((RunsTo.ask rfl).bind (.ask rfl)), fun _ => rfl,
      fun hnot => absurd hsize hnot⟩
  · have hlimit : RunsTo h.kernel (limitHistory size) s m (.raised _) _ _ := .ask (if_neg hsize)
    exact ⟨_, _, _, hlimit.bind_raised, fun hyes => absurd hyes hsize, fun _ => ⟨_, rfl⟩⟩

/-- Loading typed lines goes wrong for good only when it comes to a number that the line editor does
not take. -/
theorem loadHistory_runs (path : String) (size : Int) (m : Machine S) : ∃ o m' es,
    RunsTo h.kernel (loadHistory path size) s m o m' es ∧
      (o = .returned () ↔ (m.Loads path → IsLimit size)) := by
  have havailable : RunsTo h.kernel editorAvailable s m (.returned m.editor.available) m _ :=
    .ask rfl
  cases ha : m.editor.available with
  | false =>
    rw [ha] at havailable
    refine ⟨_, m, _, havailable.bind .pure, iff_of_true rfl fun hloads => ?_⟩
    rw [hloads.available] at ha
    cases ha
  | true =>
    rw [ha] at havailable
    -- once there is nothing left to be read, all depends on the number
    have htold : ∀ m₁ : Machine S, m.Loads path →
        (∀ {o m' es}, RunsTo h.kernel (do
            limitHistory size
            debug .history
              ("loaded " ++ toString (← historyLength) ++ " history entries from " ++ path))
            s m₁ o m' es → ∃ es', RunsTo h.kernel (readTypedLines path size) s m o m' es') →
        ∃ o m' es, RunsTo h.kernel (loadHistory path size) s m o m' es ∧
          (o = .returned () ↔ (m.Loads path → IsLimit size)) := by
      intro m₁ hloads hread
      obtain ⟨o, m', es, hruns, hfits, hhuge⟩ := limit_runs h (s := s) path size m₁
      obtain ⟨es', hruns⟩ := hread hruns
      by_cases hsize : IsLimit size
      · obtain rfl := hfits hsize
        exact ⟨_, m', _, havailable.bind hruns.handle, iff_of_true rfl fun _ => hsize⟩
      · obtain ⟨text, rfl⟩ := hhuge hsize
        exact ⟨_, m', _, havailable.bind (hruns.handle_passed rfl),
          iff_of_false (by simp) fun hall => hsize (hall hloads)⟩
    have hexists : RunsTo h.kernel (pathExists path) s m
        (.returned (!hasNul path && m.files.contains m.cwd path)) m _ := .ask rfl
    cases hthere : !hasNul path && m.files.contains m.cwd path with
    | false =>
      rw [hthere] at hexists
      refine htold m ⟨ha, fun hnul i hlookup => ?_⟩ fun hruns => ⟨_, hexists.bind hruns⟩
      rw [hnul, FileSystem.contains, hlookup] at hthere
      cases hthere
    | true =>
      rw [hthere] at hexists
      obtain ⟨hnul, hcontains⟩ := Bool.and_eq_true_iff.1 hthere
      rw [Bool.not_eq_true'] at hnul
      obtain ⟨i, hlookup⟩ := exists_lookup_of_contains hcontains
      rcases loadEntries_cases hnul hlookup with ⟨hfile, m₁, hload⟩ | ⟨hfile, e, hload⟩
      · have hask : RunsTo h.kernel (readHistory path) s m (.returned ()) m₁ _ := .ask hload
        have hloads : m.Loads path := by
          refine ⟨ha, fun _ j hj => ?_⟩
          rw [hlookup] at hj
          cases hj
          exact hfile
        refine htold m₁ hloads fun hruns => ?_
        have hread := hask.bind (f := fun _ => _) hruns
        exact ⟨_, hexists.bind hread⟩
      · -- what cannot be read is only worth a warning, and the number is not come to
        have hask : RunsTo h.kernel (readHistory path) s m (.raised (.system e none)) m _ :=
          .ask hload
        have hread : RunsTo h.kernel (readTypedLines path size) s m (.raised (.system e none)) m _ :=
          hexists.bind (hask.bind_raised (f := fun _ => _))
        have hwarn : ∀ text : String, RunsTo h.kernel (warn text) s m (.returned ()) _
            [⟨.warn text, .returned ()⟩] := fun _ => .ask rfl
        exact ⟨_, _, _, havailable.bind (hread.handle_raised rfl (hwarn _)),
          iff_of_true rfl fun hloads => absurd hfile (hloads.readable hnul i hlookup)⟩

/-- **Before the prompt** everything goes well, unless the line editor is told of a number of lines
that it does not take. -/
theorem opening_runs (c : Settings) (hflaw : ∀ n f, m.editor.flaw = some (n, f) → isError f = true) :
    ∃ o m' es, RunsTo h.kernel (opening c) s m o m' es ∧ (o = .returned () ↔
      (c.useHistory = true → m.Loads c.historyFile → IsLimit c.historySize)) := by
  unfold opening
  cases huse : c.useHistory with
  | false => exact ⟨_, m, _, .pure, iff_of_true rfl fun hfalse => by cases hfalse⟩
  | true =>
    obtain ⟨m₁, es₁, hinit, hsame⟩ := initEditor_runs h (s := s) hflaw
    obtain ⟨o, m', es, hload, hiff⟩ := loadHistory_runs h (s := s) c.historyFile c.historySize m₁
    refine ⟨o, m', _, hinit.bind hload, hiff.trans ⟨fun hfits _ hloads => ?_, fun hfits hloads => ?_⟩⟩
    · exact hfits (hsame.loads hloads)
    · exact hfits rfl (hsame.symm.loads hloads)

/-- A user who is asked before there are any jobs is heard. -/
theorem consult_heard (user : String) {w : World (Machine S × Trace)} (hjobs : w.session.jobs = {}) :
    ∃ input w', consult user h.kernel.traced w = (.returned input, w') := by
  obtain ⟨⟨cwd, home, settings, jobs, interrupted⟩, out⟩ := w
  obtain rfl : jobs = {} := hjobs
  exact ⟨_, _, rfl⟩

/-- **The prompt** is come to, unless the line editor is told of a number of lines that it does not
take. -/
theorem serve_heard_iff {user : String} {out : Outcome Int} {w : World (Machine S × Trace)}
    (hrounds : 0 < h.patience) (hflaw : ∀ n f, m.editor.flaw = some (n, f) → isError f = true)
    (hjobs : s.jobs = {})
    (hrun : serve user h.kernel.traced ⟨s, (m, [])⟩ = (out, w)) :
    w.outside.2.inputs ≠ [] ↔ (s.settings.useHistory = true → m.Loads s.settings.historyFile →
      IsLimit s.settings.historySize) := by
  obtain ⟨o, m₁, es, hopening, hiff⟩ := opening_runs h (s := s) s.settings hflaw
  have hopens := hopening []
  rw [← hiff]
  rcases serve_run hrun with ⟨opened, hopen, hnot, -⟩ | ⟨w₀, loop, w₁, hopen, hloop, hend⟩
  · have hsame := hopens.symm.trans hopen
    obtain rfl : o = opened := congrArg Prod.fst hsame
    obtain rfl := congrArg Prod.snd hsame
    refine iff_of_false (fun hheard => hheard ?_) hnot
    exact (Trace.Quiet.of_setup (hopening.ensured (opening_opens s.settings)).2.1).inputs
  · have hsame := hopens.symm.trans hopen
    obtain rfl : o = .returned () := congrArg Prod.fst hsame
    obtain rfl := congrArg Prod.snd hsame
    refine iff_of_true ?_ rfl
    obtain ⟨ts, hturns⟩ := serveLines_turns hloop
    obtain ⟨-, hhears, -⟩ := hturns.sound (by rw [hjobs]; exact List.nodup_nil)
    -- the first turn has been taken, since the user was heard
    have hheard : ts ≠ [] := by
      obtain ⟨input, w', hask⟩ := consult_heard h user (w := ⟨s, (m₁, [] ++ es)⟩) hjobs
      exact hturns.ne_nil hrounds hask
    have hinputs : w₁.outside.2.inputs ≠ [] := by
      rw [hhears.inputs]
      simp [hheard]
    rcases hend with ⟨-, -, rfl⟩ | ⟨-, leaving, hleave, -⟩
    · exact hinputs
    · obtain ⟨es', hes', -⟩ := leave_parts.run_from hleave
      rw [hes', Trace.inputs_append]
      simp [hinputs]

end Host

/-! ### Settings -/

/-- The names that stand for something where a level should be that is none. -/
def Level.formats : List String := ["BASIC_FORMAT", "_STYLES"]

/-- A level that is named shows records from its gravity on, and any other name shows warnings, but
for the two that stand for something else. -/
theorem Level.threshold_cases (name : String) :
    (name ∈ formats ∧ ∃ f, threshold name = .error f) ∨
      name ∉ formats ∧ threshold name = .ok ((named.lookup name).getD warning.gravity) := by
  unfold threshold formats
  split
  · next h => exact .inl ⟨by simp [beq_iff_eq.1 h], _, rfl⟩
  · split
    · next h => exact .inl ⟨by simp [beq_iff_eq.1 h], _, rfl⟩
    · next h h' => exact .inr ⟨by simpa using And.intro h h', rfl⟩

open Host Host.Machine

/-- **What settings are good for.** Whatever the environment is, and whatever the options are, the level
shows records from some gravity on, unless its name is one of the two that stand for no level, which
is refused before the start. All relays are started with the chunk that is set, which is at least one
byte, and they lose nothing just if the chunk is below 2 ^ 63. The user comes to be asked just if the
number of lines is one that the line editor takes, or it is not told. -/
theorem Startup.settings_reach {S : Type} (h : Host S) {s : Startup} {o : Options} {m : Machine S}
    (hargs : Invocation.ofArguments s.arguments = .run o) (hrounds : 0 < h.patience)
    (hflaw : ∀ n f, m.editor.flaw = some (n, f) → isError f = true) :
    (if (s.settings o).logLevel ∈ Level.formats then ∃ f, s.decision = .fail f
      else s.decision = .serve (s.session (s.settings o)) (userName s.environment s.account)
        ((Level.named.lookup (s.settings o).logLevel).getD Level.warning.gravity)) ∧
    (∀ user out w, serve user h.kernel.traced ⟨s.session (s.settings o), (m, [])⟩ = (out, w) →
      w.outside.2.Only (Request.isChunked (s.settings o).relayChunk) ∧
      (w.outside.2.inputs ≠ [] ↔ ((s.settings o).useHistory = true →
        m.Loads (s.settings o).historyFile → IsLimit (s.settings o).historySize))) ∧
    1 ≤ (s.settings o).relayChunk ∧
    ∀ (m' : Machine S) (j a b : Nat) (source sink : Pipe), b ≠ a →
      m'.relays[j]? = some { source := a, sink := some b, chunk := (s.settings o).relayChunk } →
      m'.pipes[a]? = some source → source.writerOpen = false →
      (∀ f, source.ending = some f → f.isIo = true ∨ f.isInvalid = true) →
      m'.pipes[b]? = some sink → sink.capacity = none → (∀ n, sink.refuses n = none) →
      ∃ m'' r' sink', Runs j m' m'' ∧ m''.relays[j]? = some r' ∧ r'.done = true ∧
        m''.pipes[b]? = some sink' ∧
        (HandedOver source sink r' sink' ↔ (s.settings o).relayChunk < 9223372036854775808) := by
  have hchunk : 1 ≤ (s.settings o).relayChunk :=
    Settings.one_le_relayChunk_ofEnvironment s.defaultHistory s.environment
  refine ⟨?_, fun user out w hrun => ⟨?_, ?_⟩, hchunk, ?_⟩
  · rw [Startup.decision, hargs]
    dsimp only
    rcases Level.threshold_cases (s.settings o).logLevel with ⟨hmem, f, hf⟩ | ⟨hmem, hok⟩
    · rw [if_pos hmem, hf]
      exact ⟨f, rfl⟩
    · rw [if_neg hmem, hok]
  · obtain ⟨es, hes, -, hchunked⟩ := (serve_asSet user).run_from hrun
    rw [hes]
    exact hchunked
  · exact serve_heard_iff h hrounds hflaw rfl hrun
  · intro m' j a b source sink hne hr hsource hclosed hending hsink hroom htakes
    exact relay_delivers_iff hchunk hne hr hsource hclosed hending hsink hroom htakes

/-- A startup without arguments, with such variables. -/
def startupWith (bindings : List (String × String)) : Startup where
  program := "minishell"
  arguments := []
  environment := ⟨bindings⟩
  cwd := ⟨.root, []⟩
  defaultHistory := "/h"

/-- A machine whose user enters a line and leaves. -/
def typedMachine : Machine Scripted := { terminal := { deeds := [.enters "b", .enters "exit"] } }

/-- The prompt loop there, with the settings of such a startup. -/
def startedRun (bindings : List (String × String)) :
    Outcome Int × World (Machine Scripted × Trace) :=
  serve "u" lingeringHost.kernel.traced
    ⟨(startupWith bindings).session ((startupWith bindings).settings {}), (typedMachine, [])⟩

/-- With no variables set, warnings are shown and the user is heard. -/
theorem Startup.settings_reach_of_none :
    (startupWith []).decision =
      .serve ((startupWith []).session ((startupWith []).settings {})) "user" 30 ∧
    (startedRun []).2.outside.2.inputs ≠ [] ∧
    (startedRun []).2.outside.2.Only (Request.isChunked 1024) := by
  obtain ⟨hserved, hruns, -⟩ := Startup.settings_reach lingeringHost (s := startupWith [])
    (o := {}) (m := typedMachine) rfl (by decide) fun n f hflaw => by cases hflaw
  have hlevel : ((startupWith []).settings {}).logLevel ∉ Level.formats := by decide
  rw [if_neg hlevel] at hserved
  obtain ⟨hchunked, hheard⟩ := hruns "u" (startedRun []).1 (startedRun []).2 rfl
  exact ⟨hserved, hheard.2 fun _ _ => ⟨by decide, by decide⟩, hchunked⟩

/-- A level that is none is refused before the start, with a number of lines that the line editor does
not take the user is not heard, and a relay with a chunk that no read can be asked for delivers
nothing. -/
theorem Startup.settings_refused :
    (∃ f, (startupWith [("MINISHELL_LOG_LEVEL", "basic_format")]).decision = .fail f) ∧
    (startedRun [("MINISHELL_HISTORY_SIZE", "2147483648")]).2.outside.2.inputs = [] ∧
    ((relayMachine ((startupWith
        [("MINISHELL_RELAY_CHUNK", "9223372036854775808")]).settings {}).relayChunk none).stepRelay
          0).map (fun m => (m.relays.toList.map (·.done), m.pipes[1]?)) =
      some ([true], some (fragile none).closeWriter) := by
  refine ⟨⟨_, rfl⟩, ?_, ?_⟩
  · cbv
  · cbv

end LineShell
