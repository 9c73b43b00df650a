import Mathlib
import LineShell.Proofs.SavedFiles
import LineShell.Proofs.UsableSettings

namespace LineShell

open Text (Bytes)

/-!
# Typed lines from one process to the next

What a process writes to the file of typed lines, and what the next one reads there.

* `History.IsPlain` — a line that is read as it was written, and `History.entries_render` — that a
  file of such lines holds just them, unless it starts with a time mark;
* `History.kept`, `History.keepLast_render` — the lines that are left when a file is cut;
* `Host.loadHistory_loads`, `Host.saveHistory_saves` — what one process reads and writes;
* `Host.typedLines_survive` — a process that reads what another one has written.

The line editor takes a carriage return at the end of a line for a part of the line's end, a NUL for
the end of the line, and a first line that starts with a hash and a digit for the time of the next.
-/

/-! ### Files of lines -/

namespace History

variable {l : Bytes} {ls : List Bytes} {n : Nat}

/-- A line that is read as it was written. -/
structure IsPlain (l : Bytes) : Prop where
  ne_nil : l ≠ []
  newline : newline ∉ l
  nul : 0 ∉ l
  carriageReturn : l.getLast? ≠ some carriageReturn

/-- Whether the first of some lines is a time mark. -/
def IsMarked (ls : List Bytes) : Prop := ∃ l, ls.head? = some l ∧ isTimeMark l = true

/-- The last lines, as many as are kept. A negative number keeps them all. -/
def kept (size : Int) (ls : List Bytes) : List Bytes :=
  if size < 0 then ls else ls.rtake size.toNat

theorem kept_kept (size : Int) (ls : List Bytes) : kept size (kept size ls) = kept size ls := by
  unfold kept
  split
  · rfl
  · simp only [List.rtake, List.drop_drop, List.length_drop]
    congr 1
    omega

theorem mem_of_mem_kept {size : Int} (h : l ∈ kept size ls) : l ∈ ls := by
  unfold kept at h
  split at h
  · exact h
  · exact List.mem_of_mem_drop h

theorem render_cons (l : Bytes) (ls : List Bytes) : render (l :: ls) = l ++ newline :: render ls := by
  simp [render]

theorem endedLines_append (h : newline ∉ l) (bs : Bytes) :
    endedLines (l ++ newline :: bs) = l :: endedLines bs := by
  induction l with
  | nil => rfl
  | cons b l ih =>
    rw [List.mem_cons, not_or] at h
    rw [List.cons_append, endedLines, if_neg (Ne.symm h.1), ih h.2]

/-- A file of lines ends just these. -/
theorem endedLines_render (h : ∀ l ∈ ls, newline ∉ l) : endedLines (render ls) = ls := by
  induction ls with
  | nil => rfl
  | cons l ls ih =>
    obtain ⟨hl, hls⟩ := List.forall_mem_cons.1 h
    rw [render_cons, endedLines_append hl, ih hls]

theorem IsPlain.cleanLine (h : IsPlain l) : cleanLine l = l := by
  rw [History.cleanLine, if_neg h.carriageReturn, List.takeWhile_eq_self_iff]
  intro b hb
  rw [bne_iff_ne]
  rintro rfl
  exact h.nul hb

/-- What looks like a time mark does so by its first line. -/
theorem isTimeMark_append (hne : l ≠ []) (bs : Bytes) :
    isTimeMark (l ++ newline :: bs) = isTimeMark l := by
  rcases l with _ | ⟨b, _ | ⟨d, l⟩⟩
  · exact absurd rfl hne
  · by_cases hb : b = 35
    · subst hb
      rfl
    · simp [isTimeMark, hb]
  · by_cases hb : b = 35
    · subst hb
      rfl
    · simp [isTimeMark, hb]

/-- **Plain lines** are read as they were written. -/
theorem entries_render (h : ∀ l ∈ ls, IsPlain l) (hmarked : ¬IsMarked ls) :
    entries (render ls) = ls := by
  have hclean : (ls.map cleanLine).filter (· != []) = ls := by
    have hmap : ls.map cleanLine = ls :=
      (List.map_congr_left fun l hl => (h l hl).cleanLine).trans (List.map_id ls)
    rw [hmap, List.filter_eq_self]
    exact fun l hl => bne_iff_ne.2 (h l hl).ne_nil
  have hmark : isTimeMark (render ls) = false := by
    rcases ls with _ | ⟨l, ls⟩
    · rfl
    · rw [render_cons, isTimeMark_append (h l (.head _)).ne_nil, ← Bool.not_eq_true]
      exact fun hmark => hmarked ⟨l, rfl, hmark⟩
  rw [entries, endedLines_render fun l hl => (h l hl).newline, hclean, if_neg (by simp [hmark])]

/-! ### Files that are cut -/

theorem afterNewline_eq_none {bs : Bytes} (h : bs.count newline ≤ n) : afterNewline n bs = none := by
  induction bs with
  | nil => rfl
  | cons b bs ih =>
    rw [List.count_cons] at h
    rw [afterNewline, ih (Nat.le_of_add_right_le h)]
    refine if_neg fun hb => ?_
    simp only [Bool.and_eq_true, decide_eq_true_eq, beq_iff_eq] at hb
    rw [if_pos (beq_iff_eq.2 hb.1)] at h
    omega

theorem afterNewline_append (pre : Bytes) {bs : Bytes} (h : bs.count newline = n) :
    afterNewline n (pre ++ newline :: bs) = some bs := by
  induction pre with
  | nil =>
    rw [List.nil_append, afterNewline, afterNewline_eq_none (Nat.le_of_eq h)]
    exact if_pos (by simp [h])
  | cons b pre ih => rw [List.cons_append, afterNewline, ih]

theorem count_render (h : ∀ l ∈ ls, newline ∉ l) : (render ls).count newline = ls.length := by
  induction ls with
  | nil => rfl
  | cons l ls ih =>
    obtain ⟨hl, hls⟩ := List.forall_mem_cons.1 h
    rw [render_cons, List.count_append, List.count_cons_self, List.count_eq_zero.2 hl, ih hls,
      Nat.zero_add, List.length_cons]

/-- **A file that is cut** has the last of its lines. -/
theorem keepLast_render (h : ∀ l ∈ ls, l ≠ [] ∧ newline ∉ l) (n : Nat) :
    keepLast n (render ls) = render (ls.rtake n) := by
  have hcount : ∀ ms, (∀ l ∈ ms, l ∈ ls) → (render ms).count newline = ms.length := fun ms hms =>
    count_render fun l hl => (h l (hms l hl)).2
  by_cases hn : ls.length ≤ n
  · -- no line goes
    rw [List.rtake, Nat.sub_eq_zero_of_le hn, List.drop_zero]
    have hall := (hcount ls fun _ hl => hl).trans_le hn
    rcases hfile : render ls with _ | ⟨b, bs⟩
    · rfl
    · rw [hfile, List.count_cons] at hall
      rw [keepLast, afterNewline_eq_none (Nat.le_of_add_right_le hall)]
      rfl
  · -- the last line that goes ends right before those that stay
    have hfront : ls.take (ls.length - n) ≠ [] := by
      intro hnil
      have hlength := congrArg List.length hnil
      rw [List.length_take, List.length_nil] at hlength
      omega
    have hsplit := List.dropLast_concat_getLast hfront
    generalize (ls.take _).dropLast = front, (ls.take _).getLast _ = l at hsplit
    have hls : ls = front ++ l :: ls.rtake n := by
      rw [List.append_cons, hsplit, List.rtake, List.take_append_drop]
    have hl : l ≠ [] := (h l (by rw [hls]; simp)).1
    have hfile : render ls = (render front ++ l) ++ newline :: render (ls.rtake n) := by
      conv_lhs => rw [hls]
      rw [render_append, render_cons, List.append_assoc]
    have hkept : (render (ls.rtake n)).count newline = n := by
      have hmem : ∀ l ∈ ls.rtake n, l ∈ ls := fun _ hl => List.mem_of_mem_drop hl
      rw [hcount _ hmem, List.rtake, List.length_drop]
      omega
    have hne : render front ++ l ≠ [] := List.append_ne_nil_of_right_ne_nil _ hl
    obtain ⟨b, pre, hpre⟩ := List.exists_cons_of_ne_nil hne
    rw [hfile, hpre, List.cons_append, keepLast, afterNewline_append pre hkept, Option.getD_some]

theorem render_rtake_suffix (n : Nat) (ls : List Bytes) : render (ls.rtake n) <:+ render ls := by
  refine ⟨render (ls.take (ls.length - n)), ?_⟩
  rw [← render_append, List.rtake, List.take_append_drop]

end History

/-! ### What a process reads and writes -/

namespace Host

open Machine FileSystem Shell

variable {S : Type} (h : Host S) {s : Session} {m m' : Machine S} {path place name : String}
  {d : Inode} {content : Option Bytes} {size : Int}

/-- What the file of typed lines is read from and written to, and the line editor that does so. -/
structure SameEditor (m m' : Machine S) : Prop where
  files : m'.files = m.files
  cwd : m'.cwd = m.cwd
  available : m'.editor.available = m.editor.available
  entries : m'.editor.entries = m.editor.entries

theorem sameEditor_log (r : Record) : SameEditor m (m.log r) := by
  unfold Machine.log
  split <;> exact ⟨rfl, rfl, rfl, rfl⟩

/-- **Loading** adds the lines of the file to those that there are. -/
theorem loadHistory_loads (hsize : IsLimit size) (hnul : hasNul path = false)
    (hstored : m.files.Stored m.cwd path place d name content)
    (havailable : m.editor.available = true) :
    ∃ m' es, RunsTo h.kernel (loadHistory path size) s m (.returned ()) m' es ∧
      m'.files = m.files ∧ m'.cwd = m.cwd ∧ m'.editor.available = true ∧
      m'.editor.entries = m.editor.entries ++ content.elim [] History.entries := by
  have hask : RunsTo h.kernel editorAvailable s m (.returned m.editor.available) m _ := .ask rfl
  rw [havailable] at hask
  have hexists : RunsTo h.kernel (pathExists path) s m
      (.returned (!hasNul path && m.files.contains m.cwd path)) m _ := .ask rfl
  -- once the lines are read, the editor is told how many to keep, and a record is made
  have htold : ∀ m₁ : Machine S, ∃ m' es, SameEditor m₁ m' ∧ RunsTo h.kernel (do
      limitHistory size
      debug .history ("loaded " ++ toString (← historyLength) ++ " history entries from " ++ path))
      s m₁ (.returned ()) m' es := by
    intro m₁
    have hlimit : RunsTo h.kernel (limitHistory size) s m₁ (.returned ())
        { m₁ with editor := { m₁.editor with limit := size } } _ := .ask (if_pos hsize)
    have hsame := sameEditor_log (m := { m₁ with editor := { m₁.editor with limit := size } })
    exact ⟨_, _, ⟨(hsame _).files, (hsame _).cwd, (hsame _).available, (hsame _).entries⟩,
      hlimit.bind ((RunsTo.ask rfl).bind (.ask rfl))⟩
  rcases hstored.lookup_eq with ⟨i, bytes, rfl, hlookup, hbytes⟩ | ⟨rfl, habsent⟩
  · have hread : RunsTo h.kernel (readHistory path) s m (.returned ())
        { m with editor := { m.editor with
          entries := m.editor.entries ++ History.entries bytes } }
        [⟨.readHistory path, .returned ()⟩] := by
      refine .ask ?_
      show m.loadEntries path = _
      rw [loadEntries, if_neg (by simp [hnul]), hlookup]
      dsimp only
      rw [hbytes]
      rfl
    obtain ⟨m', es, hsame, htold⟩ := htold { m with editor := { m.editor with
      entries := m.editor.entries ++ History.entries bytes } }
    rw [hnul, FileSystem.contains, hlookup] at hexists
    exact ⟨m', _, hask.bind (hexists.bind (hread.bind htold)).handle, hsame.files, hsame.cwd,
      hsame.available.trans havailable, hsame.entries⟩
  · obtain ⟨m', es, hsame, htold⟩ := htold m
    rw [hnul, habsent] at hexists
    exact ⟨m', _, hask.bind (hexists.bind htold).handle, hsame.files, hsame.cwd,
      hsame.available.trans havailable, hsame.entries.trans (List.append_nil _).symm⟩

theorem cwd_cutEntries (m : Machine S) (path : String) : (m.cutEntries path).cwd = m.cwd := by
  unfold cutEntries
  split
  · rfl
  · dsimp only
    split
    · rfl
    · split <;> rfl

/-- The file of typed lines is cut to those that are kept. -/
theorem cutEntries_cuts {ls : List Bytes} (hplain : ∀ l ∈ ls, l ≠ [] ∧ History.newline ∉ l)
    (hstored : m.files.Stored m.cwd path place d name (some (History.render ls))) :
    (m.cutEntries path).files.Stored m.cwd path place d name
      (some (History.render (History.kept m.editor.limit ls))) := by
  have hbytes := hstored.fileBytes?
  rw [cutEntries, hbytes]
  dsimp only
  rw [History.keepLast_render hplain]
  unfold History.kept
  by_cases hlimit : m.editor.limit < 0
  · rw [if_pos hlimit, if_pos (by simp [hlimit])]
    exact hstored
  · rw [if_neg hlimit]
    split
    · next hlength =>
      -- what is as long as all of it is all of it
      have hall := (History.render_rtake_suffix m.editor.limit.toNat ls).eq_of_length
        (by simpa [hlimit] using hlength)
      rwa [hall]
    · obtain ⟨files, hreplace, hstored'⟩ :=
        hstored.replaceFile (History.render (ls.rtake m.editor.limit.toNat))
      rw [hreplace]
      exact hstored'

/-- **Saving** writes the lines that are kept. -/
theorem saveHistory_saves (hsize : IsLimit size) (hnul : hasNul path = false)
    (hstored : m.files.Stored m.cwd path place d name content)
    (havailable : m.editor.available = true)
    (hplain : ∀ l ∈ m.editor.entries, l ≠ [] ∧ History.newline ∉ l) :
    ∃ m' es, RunsTo h.kernel (saveHistory path size) s m (.returned ()) m' es ∧
      m'.cwd = m.cwd ∧ m'.files.Stored m.cwd path place d name
        (some (History.render (History.kept size m.editor.entries))) := by
  have hask : RunsTo h.kernel editorAvailable s m (.returned m.editor.available) m _ := .ask rfl
  rw [havailable] at hask
  obtain ⟨files, hsave, hstored'⟩ := hstored.saveFile (History.render m.editor.entries)
  have hlimit : RunsTo h.kernel (limitHistory size) s m (.returned ())
      { m with editor := { m.editor with limit := size } } _ := .ask (if_pos hsize)
  let written : Machine S := { m with editor := { m.editor with limit := size }, files }
  have hwrite : RunsTo h.kernel (writeHistory path) s
      { m with editor := { m.editor with limit := size } } (.returned ())
      (written.cutEntries path) [⟨.writeHistory path, .returned ()⟩] := by
    refine .ask ?_
    show saveEntries _ path = _
    rw [saveEntries, if_neg (by simp [hnul])]
    dsimp only
    rw [hsave]
    rfl
  exact ⟨_, _, hask.bind (hlimit.bind hwrite).handle, cwd_cutEntries written path,
    cutEntries_cuts (m := written) hplain hstored'⟩

/-- A process that has just started on some files, with a line editor. -/
structure HasStarted (m : Machine S) (files : FileSystem) (cwd : Path) : Prop where
  files : m.files = files
  cwd : m.cwd = cwd
  available : m.editor.available = true
  entries : m.editor.entries = []

/-- **Typed lines survive.** A process that loads the file of typed lines, adds some and saves them
leaves a file from which the next process loads just the last of the lines that there were and that
were added, as many as are kept. If that process adds none, it leaves the file as it is when it saves
them again. -/
theorem typedLines_survive {S' : Type} (h : Host S) (h' : Host S') (s s' : Session) {m : Machine S}
    {path : String} {size : Int} {content : Option Bytes} {original added : List Bytes}
    {files : FileSystem} {cwd : Path} (hsize : IsLimit size) (hnul : hasNul path = false)
    (hstart : HasStarted m files cwd) (hsavable : files.Savable cwd path content)
    (hcontent : content = some (History.render original) ∨ content = none ∧ original = [])
    (hplain : ∀ l ∈ original ++ added, History.IsPlain l) (hmark : ¬History.IsMarked original)
    (hmark' : ¬History.IsMarked (History.kept size (original ++ added))) :
    ∃ m₁ es₁ m₂ es₂, RunsTo h.kernel (loadHistory path size) s m (.returned ()) m₁ es₁ ∧
      m₁.editor.entries = original ∧
      RunsTo h.kernel (saveHistory path size) s
        { m₁ with editor := { m₁.editor with entries := m₁.editor.entries ++ added } } (.returned ())
        m₂ es₂ ∧
      m₂.files.fileBytes? cwd path =
        some (History.render (History.kept size (original ++ added))) ∧
      ∀ m₃ : Machine S', HasStarted m₃ m₂.files cwd → ∃ m₄ es₄ m₅ es₅,
        RunsTo h'.kernel (loadHistory path size) s' m₃ (.returned ()) m₄ es₄ ∧
        m₄.editor.entries = History.kept size (original ++ added) ∧
        RunsTo h'.kernel (saveHistory path size) s' m₄ (.returned ()) m₅ es₅ ∧
        m₅.files.fileBytes? cwd path = m₂.files.fileBytes? cwd path := by
  obtain ⟨rfl, rfl, havailable, hfresh⟩ := hstart
  obtain ⟨place, d, name, hstored⟩ := hsavable.stored
  have hwritten : ∀ ls : List Bytes, (∀ l ∈ ls, History.IsPlain l) →
      ∀ l ∈ ls, l ≠ [] ∧ History.newline ∉ l := fun ls hls l hl =>
    ⟨(hls l hl).ne_nil, (hls l hl).newline⟩
  have hplain' : ∀ l ∈ History.kept size (original ++ added), History.IsPlain l := fun l hl =>
    hplain l (History.mem_of_mem_kept hl)
  -- the first process loads the lines that there are
  obtain ⟨m₁, es₁, hload, hfiles, hcwd, havailable₁, hentries⟩ :=
    loadHistory_loads h (s := s) hsize hnul hstored havailable
  have horiginal : m₁.editor.entries = original := by
    have hread : ∀ l ∈ original, History.IsPlain l := fun l hl =>
      hplain l (List.mem_append_left _ hl)
    rw [hentries, hfresh, List.nil_append]
    rcases hcontent with rfl | ⟨rfl, rfl⟩
    · exact History.entries_render hread hmark
    · rfl
  rw [← hfiles, ← hcwd] at hstored
  -- it saves them with those that were added
  obtain ⟨m₂, es₂, hsave, hcwd₂, hstored₂⟩ := saveHistory_saves h (s := s)
    (m := { m₁ with editor := { m₁.editor with entries := m₁.editor.entries ++ added } })
    hsize hnul hstored havailable₁ (by rw [horiginal]; exact hwritten _ hplain)
  rw [horiginal] at hstored₂
  have hbytes₂ := hstored₂.fileBytes?
  rw [hcwd] at hbytes₂
  refine ⟨m₁, es₁, m₂, es₂, hload, horiginal, hsave, hbytes₂, fun m₃ hnext => ?_⟩
  -- the next process loads what was kept
  have hstored₃ : m₃.files.Stored m₃.cwd path place d name
      (some (History.render (History.kept size (original ++ added)))) := by
    rw [hnext.files, hnext.cwd, ← hcwd]
    exact hstored₂
  obtain ⟨m₄, es₄, hload', hfiles₄, hcwd₄, havailable₄, hentries₄⟩ :=
    loadHistory_loads h' (s := s') hsize hnul hstored₃ hnext.available
  have hkept : m₄.editor.entries = History.kept size (original ++ added) := by
    rw [hentries₄, hnext.entries, List.nil_append]
    exact History.entries_render hplain' hmark'
  rw [← hfiles₄, ← hcwd₄] at hstored₃
  -- and saves just that again
  obtain ⟨m₅, es₅, hsave', -, hstored₅⟩ := saveHistory_saves h' (s := s') hsize hnul hstored₃
    havailable₄ (by rw [hkept]; exact hwritten _ hplain')
  rw [hkept, History.kept_kept, hcwd₄, hnext.cwd] at hstored₅
  exact ⟨m₄, es₄, m₅, es₅, hload', hkept, hsave', hstored₅.fileBytes?.trans hbytes₂.symm⟩

/-- A root directory with one file. -/
def typedFiles (bytes : Bytes) : FileSystem := ⟨#[.directory root [("h", 1)], .file bytes false]⟩

/-- With two lines to be kept, the second of two lines and a third that was added are loaded next. -/
theorem typedLines_survive_of_two :
    ∃ m₁ es₁ m₂ es₂, RunsTo lingeringHost.kernel (loadHistory "/h" 2) rootSession
        { files := typedFiles [97, 10, 98, 10] } (.returned ()) m₁ es₁ ∧
      m₁.editor.entries = [[97], [98]] ∧
      RunsTo lingeringHost.kernel (saveHistory "/h" 2) rootSession
        { m₁ with editor := { m₁.editor with entries := m₁.editor.entries ++ [[99]] } } (.returned ())
        m₂ es₂ ∧
      m₂.files.fileBytes? ⟨.root, []⟩ "/h" = some [98, 10, 99, 10] ∧
      ∃ m₄ es₄, RunsTo lingeringHost.kernel (loadHistory "/h" 2) rootSession { files := m₂.files }
        (.returned ()) m₄ es₄ ∧ m₄.editor.entries = [[98], [99]] := by
  have hlink : (typedFiles [97, 10, 98, 10]).linkText? ⟨.root, []⟩ "/h" = none := by cbv
  have hsavable :
      (typedFiles [97, 10, 98, 10]).Savable ⟨.root, []⟩ "/h" (some [97, 10, 98, 10]) := by
    refine ⟨⟨.found 1, by cbv⟩, by cbv, fun hnone => (by cases hnone), fun target htarget => ?_, ?_, ?_⟩
    · rw [hlink] at htarget
      cases htarget
    · rw [hlink]
      exact ⟨0, "h-00000.tmp", by cbv⟩
    · intro i parent entries hnode
      rcases i with _ | _ | i
      · cases hnode
        rfl
      · cases hnode
      · cases hnode
  have hplain : ∀ l ∈ [[97], [98]] ++ [[99]], History.IsPlain l := by
    intro l hl
    simp only [List.cons_append, List.nil_append, List.mem_cons, List.not_mem_nil, or_false] at hl
    rcases hl with rfl | rfl | rfl <;> exact ⟨by decide, by decide, by decide, by decide⟩
  have hsize : IsLimit 2 := ⟨by decide, by decide⟩
  have hstart : HasStarted ({ files := typedFiles [97, 10, 98, 10] } : Machine Scripted) _
    ⟨.root, []⟩ := ⟨rfl, rfl, rfl, rfl⟩
  have hmark : ¬History.IsMarked [[97], [98]] := by
    rintro ⟨l, hl, hmark⟩
    cases hl
    cases hmark
  have hmark' : ¬History.IsMarked (History.kept 2 ([[97], [98]] ++ [[99]])) := by
    rintro ⟨l, hl, hmark⟩
    cases hl
    cases hmark
  obtain ⟨m₁, es₁, m₂, es₂, hload, hentries, hsave, hbytes, hnext⟩ :=
    typedLines_survive lingeringHost lingeringHost rootSession rootSession hsize (by decide) hstart
      hsavable (.inl rfl) hplain hmark hmark'
  obtain ⟨m₄, es₄, m₅, es₅, hload', hentries', -⟩ :=
    hnext { files := m₂.files } ⟨rfl, rfl, rfl, rfl⟩
  exact ⟨m₁, es₁, m₂, es₂, hload, hentries, hsave, hbytes, m₄, es₄, hload', hentries'⟩

/-- What a process loads after another one has loaded some lines, added some and saved them. -/
def reloaded (files : FileSystem) (path : String) (size : Int) (added : List Bytes) : List Bytes :=
  let k := (lingeringHost : Host Scripted).kernel
  let m := (loadHistory path size k ⟨rootSession, { files }⟩).2.outside
  let m := { m with editor := { m.editor with entries := m.editor.entries ++ added } }
  let m := (saveHistory path size k ⟨rootSession, m⟩).2.outside
  (loadHistory path size k ⟨rootSession, { files := m.files }⟩).2.outside.editor.entries

/-- A file, and a link to it in the same directory. -/
def linkedFiles : FileSystem := ⟨#[.directory root [("d", 1)], .directory root [("h", 2), ("e", 3)],
  .link "e", .file [97, 10] false]⟩

/-- A line that ends in a carriage return, one with a NUL in it and one that is taken for a time mark
do not survive, and what is saved under a link that is not absolute is not found there. -/
theorem typedLines_lost :
    (reloaded (typedFiles (History.render [[97, 13]])) "/h" 9 [] = [[97]] ∧
      History.kept 9 ([[97, 13]] ++ []) = [[97, 13]]) ∧
    (reloaded (typedFiles []) "/h" 9 [[97, 0, 98]] = [[97]] ∧
      History.kept 9 ([] ++ [[97, 0, 98]]) = [[97, 0, 98]]) ∧
    (reloaded (typedFiles []) "/h" 9 [[35, 49]] = [] ∧
      History.kept 9 ([] ++ [[35, 49]]) = [[35, 49]]) ∧
    (linkedFiles.saveFile ⟨.root, []⟩ "/d/h" [98, 10]).map (·.fileBytes? ⟨.root, []⟩ "/d/h") =
      .ok (some [97, 10]) := by
  refine ⟨⟨?_, rfl⟩, ⟨?_, rfl⟩, ⟨?_, rfl⟩, ?_⟩
  · cbv
  · cbv
  · cbv
  · -- the new file gets the link's text for its name, seen from the root
    have htext : linkedFiles.linkText? ⟨.root, []⟩ "/d/h" = some "e" := by cbv
    have hbytes : linkedFiles.fileBytes? ⟨.root, []⟩ "/d/h" = some [97, 10] := by cbv
    have hbeside : "e" ++ besideEnding = "e-00000.tmp" := by decide
    have hroot : Path.startsAtRoot "e" = false ∧ Path.startsAtRoot "e-00000.tmp" = false := by
      constructor <;> cbv
    simp only [saveFile, hbytes, Option.isSome_some, if_true, replaceFile, htext, Option.getD_some,
      hbeside, openWriting, rename, remove, lookup, holder, find, hroot.1, hroot.2,
      Bool.false_eq_true, if_false]
    cbv

end Host

end LineShell
