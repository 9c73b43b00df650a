import LineShell.Proofs.HandleBuffer
import LineShell.Proofs.LineDecoding
import LineShell.Shell.Drain

namespace LineShell

open Text (Bytes)

/-!
# Draining loses nothing

* `Host.Machine.Supplies` — the bytes that a process's output pipe still gives, before its end;
* `Host.readLine_supplies` — one line is taken off these bytes;
* `Host.drainTo_supplies` — what each line preserves, all lines do;
* `Host.drain_lossless` — a drain hands on all bytes, in order and none twice. To a console that takes
  only text it hands on the text of them all, although it decodes each line on its own.
-/

namespace Host

variable {S : Type} {h : Host S} {m m₁ : Machine S} {s : Session} {pid : ProcessId}
  {source rest : Bytes} {put : Bytes → Shell (Machine S) Unit}

/-- A process's output pipe still gives some bytes, and then the end. -/
def Machine.Supplies (m : Machine S) (pid : ProcessId) (source : Bytes) : Prop :=
  ∃ i pipe, m.outputPipe? pid = some i ∧ m.pipes[i]? = some pipe ∧ pipe.buffer = source ∧
    pipe.writerOpen = false ∧ pipe.readerOpen = true ∧ pipe.ending = none

theorem Machine.Supplies.congr (hm : m.Supplies pid source) (hpipes : m₁.pipes = m.pipes)
    (hprocesses : m₁.processes = m.processes) : m₁.Supplies pid source := by
  unfold Machine.Supplies Machine.outputPipe? Machine.process? Machine.indexOf? at hm ⊢
  rw [hpipes, hprocesses]
  exact hm

/-- What a pipe that nobody writes to gives at a time is a line, if anything. -/
theorem readLine_closed {pipe : Pipe} (hwriter : pipe.writerOpen = false) (hne : pipe.buffer ≠ []) :
    pipe.readLine =
      .gave (Pipe.firstLine pipe.buffer).1 { pipe with buffer := (Pipe.firstLine pipe.buffer).2 } := by
  have hsome : pipe.buffer.isEmpty = false := by
    cases hbuffer : pipe.buffer with
    | nil => exact absurd hbuffer hne
    | cons => rfl
  unfold Pipe.readLine
  rw [hwriter, hsome]
  simp

/-- **Reading a line** takes the first one off the bytes, and nothing at their end. -/
theorem readLine_supplies (hpatience : 0 < h.patience) (hm : m.Supplies pid source) :
    ∃ m₁ : Machine S, h.readLine m pid = (.returned (Pipe.firstLine source).1, m₁) ∧
      m₁.Supplies pid (Pipe.firstLine source).2 ∧ m₁ = { m with pipes := m₁.pipes } := by
  obtain ⟨i, pipe, hi, hpipe, rfl, hwriter, hreader, hending⟩ := hm
  obtain ⟨fuel, hfuel⟩ := Nat.exists_eq_succ_of_ne_zero hpatience.ne'
  unfold readLine
  rw [hi, hfuel]
  simp only [hpipe, Option.any_some, hreader, Bool.not_true, Bool.false_eq_true, if_false, runUntil,
    Option.map_some]
  by_cases hempty : pipe.buffer = []
  · -- there is nothing left, and nobody writes any more
    have hend : pipe.readLine = .ended none := by
      unfold Pipe.readLine
      rw [hempty, hwriter, hending]
      rfl
    rw [hend, hempty]
    exact ⟨m, rfl, ⟨i, pipe, hi, hpipe, hempty, hwriter, hreader, hending⟩, rfl⟩
  · rw [readLine_closed hwriter hempty]
    exact ⟨_, rfl, ⟨i, { pipe with buffer := (Pipe.firstLine pipe.buffer).2 }, hi,
      Machine.pipes_modifyPipe_self hpipe _, rfl, hwriter, hreader, hending⟩, rfl⟩

/-- **Draining line by line.** An invariant speaks of what is still to come. Where handing on a line
preserves it, it holds of nothing at the end, which is reached. -/
theorem drainTo_supplies (Inv : Bytes → Machine S → Prop)
    (hread : ∀ rest m pipes, Inv rest m → Inv rest { m with pipes })
    (hput : ∀ rest m, Inv rest m → ∃ m₁ : Machine S,
      put (Pipe.firstLine rest).1 h.kernel ⟨s, m⟩ = (.returned (), ⟨s, m₁⟩) ∧
        Inv (Pipe.firstLine rest).2 m₁ ∧ m₁.pipes = m.pipes ∧ m₁.processes = m.processes)
    (hpatience : 0 < h.patience) {rounds : Nat} (hrounds : source.length < rounds)
    (hm : m.Supplies pid source) (hinv : Inv source m) :
    ∃ m₁ : Machine S, Shell.drainTo pid put rounds h.kernel ⟨s, m⟩ = (.returned (), ⟨s, m₁⟩) ∧
      Inv [] m₁ := by
  -- on the number of rounds: each line is a byte long at least
  induction rounds generalizing source m with
  | zero => exact absurd hrounds (Nat.not_lt_zero _)
  | succ rounds ih =>
    obtain ⟨m₁, hline, hm₁, hframe⟩ := readLine_supplies hpatience hm
    have hinv₁ : Inv source m₁ := hframe ▸ hread source m m₁.pipes hinv
    have hask : Shell.readOutput pid h.kernel ⟨s, m⟩ =
        (.returned (Pipe.firstLine source).1, ⟨s, m₁⟩) := by
      show ((h.readLine m pid).1, (⟨s, (h.readLine m pid).2⟩ : World (Machine S))) = _
      rw [hline]
    rw [Shell.drainTo, Shell.bind_run, hask]
    dsimp only
    by_cases hempty : source = []
    · rw [hempty] at hinv₁ ⊢
      exact ⟨m₁, rfl, hinv₁⟩
    · obtain ⟨hsome, hshorter⟩ := Pipe.firstLine_ne_nil hempty
      obtain ⟨m₂, hrun, hinv₂, hpipes, hprocesses⟩ := hput source m₁ hinv₁
      cases hfirst : (Pipe.firstLine source).1 with
      | nil => exact absurd hfirst hsome
      | cons b line =>
        rw [hfirst] at hrun
        dsimp only
        rw [Shell.bind_run, hrun]
        dsimp only
        exact ih (by omega) (hm₁.congr hpipes hprocesses) hinv₂

/-! ### The three sinks -/

/-- Draining to a file. -/
theorem drain_file {id : FileId} {o : Nat} {node : Inode} {content waiting : Bytes}
    (hbound : source.length < h.patience) (hm : m.Supplies pid source)
    (hbehind : m.Behind id o node content waiting) :
    ∃ m₁ : Machine S, Shell.drain pid (some id) h.kernel ⟨s, m⟩ = (.returned (), ⟨s, m₁⟩) ∧
      m₁.Behind id o node (content ++ waiting ++ source) [] ∧
      (∀ i, i ≠ node → m₁.files.node? i = m.files.node? i) ∧ m₁.written = m.written := by
  -- what has been put into the file or its buffer, and what is still to come, are always the same
  let Inv (rest : Bytes) (m₁ : Machine S) : Prop := ∃ content' waiting',
    m₁.Behind id o node content' waiting' ∧
      content' ++ waiting' ++ rest = content ++ waiting ++ source ∧
      (∀ i, i ≠ node → m₁.files.node? i = m.files.node? i) ∧ m₁.written = m.written
  have hput (rest : Bytes) (m₁ : Machine S) (hinv : Inv rest m₁) : ∃ m₂ : Machine S,
      Shell.writeFile id (Pipe.firstLine rest).1 h.kernel ⟨s, m₁⟩ = (.returned (), ⟨s, m₂⟩) ∧
        Inv (Pipe.firstLine rest).2 m₂ ∧ m₂.pipes = m₁.pipes ∧ m₂.processes = m₁.processes := by
    obtain ⟨content₁, waiting₁, h₁, htotal, hothers, hwritten⟩ := hinv
    obtain ⟨m₂, content₂, waiting₂, hwrite, h₂, hkeeps, hfiling⟩ :=
      h₁.write (Pipe.firstLine rest).1
    have hrun : Shell.writeFile id (Pipe.firstLine rest).1 h.kernel ⟨s, m₁⟩ =
        (.returned (), ⟨s, m₂⟩) := by
      show ((m₁.writeHandle id (Pipe.firstLine rest).1).1,
        (⟨s, (m₁.writeHandle id (Pipe.firstLine rest).1).2⟩ : World (Machine S))) = _
      rw [hwrite]
    refine ⟨m₂, hrun, ⟨content₂, waiting₂, h₂, ?_, ?_, ?_⟩, ?_, ?_⟩
    · rw [hkeeps, List.append_assoc, Pipe.firstLine_append, htotal]
    · exact fun i hi => (hfiling.others i hi).trans (hothers i hi)
    all_goals rw [hfiling.rest]
    · exact hwritten
  obtain ⟨m₁, hdrain, content₁, waiting₁, h₁, htotal, hothers, hwritten⟩ :=
    drainTo_supplies Inv
      (fun rest m₁ pipes ⟨content', waiting', hb, hrest⟩ =>
        ⟨content', waiting', ⟨⟨hb.opening, hb.content⟩, hb.handle⟩, hrest⟩)
      hput (Nat.zero_lt_of_lt hbound) hbound hm ⟨content, waiting, hbehind, rfl, fun _ _ => rfl, rfl⟩
  obtain ⟨m₂, hflush, h₂, hfiling⟩ := h₁.flush
  refine ⟨m₂, ?_, ?_, fun i hi => (hfiling.others i hi).trans (hothers i hi), ?_⟩
  · have hrun : Shell.flushFile id h.kernel ⟨s, m₁⟩ = (.returned (), ⟨s, m₂⟩) := by
      show ((m₁.flushHandle id).1, (⟨s, (m₁.flushHandle id).2⟩ : World (Machine S))) = _
      rw [hflush]
    show (Shell.drainTo pid (Shell.writeFile id) h.patience >>= fun _ => Shell.flushFile id)
      h.kernel ⟨s, m⟩ = _
    rw [Shell.bind_run, hdrain]
    exact hrun
  · rw [List.append_nil] at htotal
    exact htotal ▸ h₂
  · rw [hfiling.rest]
    exact hwritten

theorem written_writeOut (m : Machine S) (bytes : Bytes) :
    (m.writeOut bytes).written = (m.written.1 ++ bytes, m.written.2) := by
  show ((bytes :: m.console.out).reverse.flatten, m.console.err.reverse.flatten) = _
  rw [List.reverse_cons, List.flatten_append, List.flatten_singleton]
  rfl

/-- Draining to the console, by what is shown of some bytes: of a line with others behind it, that is
what is shown of the line, and of the others. -/
theorem drainTo_console (s : Session) (put : Bytes → Shell (Machine S) Unit) (shown : Bytes → Bytes)
    (hpatience : 0 < h.patience)
    (hput : ∀ line (m : Machine S),
      put line h.kernel ⟨s, m⟩ = (.returned (), ⟨s, m.writeOut (shown line)⟩))
    (hshown : ∀ rest, shown rest =
      shown (Pipe.firstLine rest).1 ++ shown (Pipe.firstLine rest).2)
    (hnil : shown [] = []) {rounds : Nat} (hrounds : source.length < rounds)
    (hm : m.Supplies pid source) :
    ∃ m₁ : Machine S, Shell.drainTo pid put rounds h.kernel ⟨s, m⟩ = (.returned (), ⟨s, m₁⟩) ∧
      m₁.written = (m.written.1 ++ shown source, m.written.2) ∧ m₁.files = m.files := by
  let Inv (rest : Bytes) (m₁ : Machine S) : Prop :=
    m₁.written.1 ++ shown rest = m.written.1 ++ shown source ∧ m₁.written.2 = m.written.2 ∧
      m₁.files = m.files
  obtain ⟨m₁, hdrain, hout, herr, hfiles⟩ := drainTo_supplies Inv
    (fun _ _ _ hinv => hinv)
    (fun rest m₁ ⟨hout, herr, hfiles⟩ => by
      refine ⟨_, hput _ m₁, ⟨?_, ?_, hfiles⟩, rfl, rfl⟩
      · rw [written_writeOut, List.append_assoc, ← hshown, hout]
      · rw [written_writeOut, herr])
    hpatience hrounds hm ⟨rfl, rfl, rfl⟩
  rw [hnil, List.append_nil] at hout
  exact ⟨m₁, hdrain, Prod.ext hout herr, hfiles⟩

/-- What the console shows of some bytes. -/
def shownOf (takesBytes : Bool) (bytes : Bytes) : Bytes :=
  if takesBytes then bytes else Text.encode (Text.decodeLossy bytes)

/-- Draining to the console. -/
theorem drain_console (hbound : source.length < h.patience) (hm : m.Supplies pid source) :
    ∃ m₁ : Machine S, Shell.drain pid none h.kernel ⟨s, m⟩ = (.returned (), ⟨s, m₁⟩) ∧
      m₁.written = (m.written.1 ++ shownOf m.console.takesBytes source, m.written.2) ∧
      m₁.files = m.files := by
  have hpatience : 0 < h.patience := Nat.zero_lt_of_lt hbound
  have hdrain : Shell.drain pid none h.kernel ⟨s, m⟩ =
      ((if m.console.takesBytes then Shell.drainTo pid Shell.writeConsole h.patience
        else Shell.drainTo pid (fun line => Shell.print (Text.decodeLossy line)) h.patience) >>=
          fun _ => Shell.flushConsole) h.kernel ⟨s, m⟩ := by
    unfold Shell.drain
    rw [Shell.bind_run]
    show ((Shell.consoleTakesBytes >>= fun takesBytes => _) : Shell (Machine S) Unit) h.kernel ⟨s, m⟩ = _
    rw [Shell.bind_run]
    show (if m.console.takesBytes then _ else _ : Shell (Machine S) Unit) h.kernel ⟨s, m⟩ = _
    cases m.console.takesBytes <;> rfl
  rw [hdrain]
  cases htakes : m.console.takesBytes with
  | true =>
    obtain ⟨m₁, hrun, hwritten, hfiles⟩ := drainTo_console s Shell.writeConsole id hpatience
      (fun _ _ => rfl) (fun rest => (Pipe.firstLine_append rest).symm) rfl hbound hm
    rw [if_pos rfl, Shell.bind_run, hrun]
    exact ⟨m₁, rfl, hwritten, hfiles⟩
  | false =>
    obtain ⟨m₁, hrun, hwritten, hfiles⟩ := drainTo_console s
      (fun line => Shell.print (Text.decodeLossy line))
      (fun bytes => Text.encode (Text.decodeLossy bytes)) hpatience (fun _ _ => rfl)
      (fun rest => by rw [Pipe.decodeLossy_firstLine rest, Text.encode_append])
      (by rw [Text.decodeLossy_nil, Text.encode_empty]) hbound hm
    rw [if_neg Bool.false_ne_true, Shell.bind_run, hrun]
    exact ⟨m₁, rfl, hwritten, hfiles⟩

/-- **Draining loses nothing.** For all that a process has left in its output pipe, a drain ends. To a
file it appends just these bytes, behind those that wait in the buffer of the file; to a console that
takes bytes it writes just these bytes, and to one that takes only text, the text of them all. -/
theorem drain_lossless (h : Host S) (s : Session) (m : Machine S) (pid : ProcessId) (source : Bytes)
    (hbound : source.length < h.patience) (hm : m.Supplies pid source) :
    (∀ id o node content waiting, m.Behind id o node content waiting → ∃ m₁ : Machine S,
      Shell.drain pid (some id) h.kernel ⟨s, m⟩ = (.returned (), ⟨s, m₁⟩) ∧
        m₁.files.content? node = some (content ++ waiting ++ source) ∧
        (∀ i, i ≠ node → m₁.files.node? i = m.files.node? i) ∧ m₁.written = m.written) ∧
    ∃ m₁ : Machine S, Shell.drain pid none h.kernel ⟨s, m⟩ = (.returned (), ⟨s, m₁⟩) ∧
      m₁.written = (m.written.1 ++
        (if m.console.takesBytes then source else Text.encode (Text.decodeLossy source)),
        m.written.2) ∧
      m₁.files = m.files := by
  refine ⟨fun id o node content waiting hbehind => ?_, drain_console hbound hm⟩
  obtain ⟨m₁, hrun, h₁, hframe⟩ := drain_file hbound hm hbehind
  exact ⟨m₁, hrun, h₁.content, hframe⟩

/-- A program that has ended leaves a sequence that a newline cuts off, and no newline behind the last
byte; a file with something in it is open. -/
def severed : Machine Unit where
  files := ⟨#[.directory 0 [("log", 1)], .file [111, 107, 10] false]⟩
  openings := #[{ node := 1, append := true }]
  handles := #[{ opening := 0, path := "/log", mode := .append }]
  pipes := #[{ buffer := [0xE2, 0x82, 10, 0xFF, 65], writerOpen := false }]
  processes := #[{
    pid := 7, argv := ["prog"], cwd := ⟨.root, []⟩, streams := { stdout := .pipe }, program := ()
    outputPipe := some 0, life := .exited 0 }]
  console := { takesBytes := false }

theorem drain_lossless_of_severed :
    severed.Supplies 7 [0xE2, 0x82, 10, 0xFF, 65] ∧ severed.Behind 0 0 1 [111, 107, 10] [] ∧
    let idle : Host Unit := ⟨⟨fun _ _ _ => .error .brokenPipe, fun _ => .exit 0⟩, id, 9⟩
    let s : Session := { cwd := ⟨.root, []⟩, home := "/", settings := { historyFile := "" } }
    (∃ m₁ : Machine Unit,
      Shell.drain 7 (some 0) idle.kernel ⟨s, severed⟩ = (.returned (), ⟨s, m₁⟩) ∧
        m₁.files.content? 1 = some [111, 107, 10, 0xE2, 0x82, 10, 0xFF, 65]) ∧
    ∃ m₁ : Machine Unit, Shell.drain 7 none idle.kernel ⟨s, severed⟩ = (.returned (), ⟨s, m₁⟩) ∧
      m₁.written.1 = Text.encode "\uFFFD\n\uFFFDA" := by
  have hm : severed.Supplies 7 [0xE2, 0x82, 10, 0xFF, 65] :=
    ⟨0, { buffer := [0xE2, 0x82, 10, 0xFF, 65], writerOpen := false }, by decide +kernel, rfl, rfl, rfl,
      rfl, rfl⟩
  have hbehind : severed.Behind 0 0 1 [111, 107, 10] [] :=
    ⟨⟨⟨_, rfl, rfl, .inl rfl⟩, rfl⟩, ⟨_, rfl, rfl, rfl, rfl⟩⟩
  refine ⟨hm, hbehind, ?_⟩
  intro idle s
  obtain ⟨hfile, m₁, hrun, hwritten, -⟩ := drain_lossless idle s severed 7 _ (by decide) hm
  obtain ⟨m₂, hrun₂, hcontent, -⟩ := hfile 0 0 1 [111, 107, 10] [] hbehind
  refine ⟨⟨m₂, hrun₂, hcontent⟩, m₁, hrun, ?_⟩
  rw [hwritten]
  decide +kernel

end Host

end LineShell
