import Mathlib
import LineShell.Host.Answer

namespace LineShell.Host

open Text (Bytes)

/-!
# Files behind their buffers

What a file of the interpreter holds, and what waits in its buffer.

* `Opening.AtEnd` — an open file whose next bytes go behind all others;
* `Machine.Appending` — an open file, and what is there, behind which all that is written goes;
* `Machine.Behind` — an open file of the interpreter: its node, the bytes that are there, and those
  that wait to be put behind them;
* `Machine.writeOpening_atEnd` — what is written to an open file comes to stand behind all else;
* `Machine.Behind.write`, `Machine.Behind.flush`, `Machine.Behind.close` — no byte is lost between a
  write and the file.
-/

variable {S : Type}

/-- The next bytes go behind those that are there. -/
def Opening.AtEnd (x : Opening) (content : Bytes) : Prop :=
  x.append = true ∨ x.offset = content.length

namespace Machine

variable {m m₁ : Machine S} {o : Nat} {x : Opening} {node : Inode} {content bytes waiting : Bytes}
  {id : FileId}

/-- Behind the end nothing is written over. -/
theorem overwrite_length (content bytes : Bytes) :
    overwrite content content.length bytes = content ++ bytes := by
  unfold overwrite
  rw [List.take_length, Nat.sub_self, List.replicate_zero, List.append_nil,
    List.drop_eq_nil_of_le (Nat.le_add_right _ _), List.append_nil]

theorem node?_of_content? {fs : FileSystem} {i : Inode} (h : fs.content? i = some content) :
    ∃ executable, fs.node? i = some (.file content executable) := by
  unfold FileSystem.content? at h
  split at h
  · cases h
    exact ⟨_, ‹_›⟩
  · cases h

/-- What is written to an open file that is at its end. -/
def appended (m : Machine S) (o : Nat) (x : Opening) (content bytes : Bytes) : Machine S :=
  { m with
    files := m.files.setContent x.node (content ++ bytes)
    openings := m.openings.modify o fun x => { x with offset := content.length + bytes.length } }

/-- **Writing to a file** puts the bytes behind those that are there, and leaves off behind them. -/
theorem writeOpening_atEnd (hx : m.openings[o]? = some x) (hcontent : m.files.content? x.node = some content)
    (hend : x.AtEnd content) (bytes : Bytes) :
    m.writeOpening o bytes = .ok (m.appended o x content bytes) := by
  obtain ⟨executable, hnode⟩ := node?_of_content? hcontent
  have hoffset : (if x.append = true then content.length else x.offset) = content.length := by
    split
    · rfl
    · exact hend.resolve_left ‹_›
  unfold writeOpening
  rw [hx]
  simp only [hnode, hoffset, overwrite_length]
  rfl

theorem appended_opening (hx : m.openings[o]? = some x) :
    (m.appended o x content bytes).openings[o]? =
      some { x with offset := content.length + bytes.length } := by
  rw [appended, Array.getElem?_modify, if_pos rfl, hx]
  rfl

/-- An open file: what is there, behind which the next bytes go. -/
structure Appending (m : Machine S) (o : Nat) (node : Inode) (content : Bytes) : Prop where
  opening : ∃ x, m.openings[o]? = some x ∧ x.node = node ∧ x.AtEnd content
  content : m.files.content? node = some content

/-- An open file of the interpreter: where its next bytes go is the end, and some wait in its
buffer. -/
structure Behind (m : Machine S) (id : FileId) (o : Nat) (node : Inode) (content waiting : Bytes) :
    Prop extends m.Appending o node content where
  handle : ∃ handle, m.handles[id]? = some handle ∧ handle.closed = false ∧ handle.opening = o ∧
    handle.pending = waiting

/-- Only files, open files and what waits for them have changed, and of the files only one. -/
structure Filing (node : Inode) (m m₁ : Machine S) : Prop where
  rest : m₁ = { m with files := m₁.files, openings := m₁.openings, handles := m₁.handles }
  others : ∀ i, i ≠ node → m₁.files.node? i = m.files.node? i

namespace Filing

theorem refl (node : Inode) (m : Machine S) : Filing node m m := ⟨rfl, fun _ _ => rfl⟩

theorem trans {m₂ : Machine S} (h : Filing node m m₁) (h' : Filing node m₁ m₂) : Filing node m m₂ := by
  refine ⟨?_, fun i hi => (h'.others i hi).trans (h.others i hi)⟩
  rw [h'.rest, h.rest]

theorem modifyHandle (m : Machine S) (id : FileId) (f : Handle → Handle) :
    Filing node m (m.modifyHandle id f) := ⟨rfl, fun _ _ => rfl⟩

theorem appended (m : Machine S) (o : Nat) (x : Opening) (content bytes : Bytes) :
    Filing x.node m (m.appended o x content bytes) := by
  refine ⟨rfl, fun i hi => ?_⟩
  unfold Machine.appended FileSystem.node? FileSystem.setContent
  rw [Array.getElem?_modify, if_neg (Ne.symm hi)]

end Filing

/-- Bytes are written behind those that are there. -/
theorem Appending.put (h : m.Appending o node content) (bytes : Bytes) :
    ∃ m₁, m.writeOpening o bytes = .ok m₁ ∧ m₁.Appending o node (content ++ bytes) ∧
      m₁.handles = m.handles ∧ Filing node m m₁ := by
  obtain ⟨x, hx, rfl, hend⟩ := h.opening
  refine ⟨_, writeOpening_atEnd hx h.content hend bytes,
    ⟨⟨_, appended_opening hx, rfl, .inr ?_⟩, ?_⟩, rfl, .appended m o x content bytes⟩
  · exact List.length_append.symm
  · exact FileSystem.content?_setContent h.content _

/-- Bytes go from a buffer to their file. -/
theorem Behind.put (h : m.Behind id o node content waiting) (bytes : Bytes) :
    ∃ m₁, m.writeOpening o bytes = .ok m₁ ∧ m₁.Behind id o node (content ++ bytes) waiting ∧
      Filing node m m₁ := by
  obtain ⟨m₁, hwrite, happending, hhandles, hfiling⟩ := h.toAppending.put bytes
  refine ⟨m₁, hwrite, ⟨happending, ?_⟩, hfiling⟩
  rw [hhandles]
  exact h.handle

/-- What waits in a buffer is changed. -/
theorem Behind.setPending (h : m.Behind id o node content waiting) {f : Handle → Handle}
    {waiting' : Bytes} (hf : ∀ handle : Handle, handle.pending = waiting →
      f handle = { handle with pending := waiting' }) :
    (m.modifyHandle id f).Behind id o node content waiting' := by
  obtain ⟨handle, hhandle, hclosed, hopening, hpending⟩ := h.handle
  refine ⟨⟨h.opening, h.content⟩,
    ⟨f handle, Machine.handles_modifyHandle_self hhandle f, ?_, ?_, ?_⟩⟩
  all_goals rw [hf handle hpending]
  · exact hclosed
  · exact hopening

/-- **Flushing** puts what waits behind what is there. -/
theorem Behind.flush (h : m.Behind id o node content waiting) :
    ∃ m₁, m.flushHandle id = (.returned (), m₁) ∧ m₁.Behind id o node (content ++ waiting) [] ∧
      Filing node m m₁ := by
  obtain ⟨handle, hhandle, hclosed, hopening, hpending⟩ := h.handle
  unfold flushHandle
  rw [hhandle]
  simp only [hclosed, Bool.false_eq_true, if_false, hpending, hopening]
  cases waiting with
  | nil =>
    refine ⟨m, rfl, ?_, .refl node m⟩
    rw [List.append_nil]
    exact h
  | cons b waiting =>
    obtain ⟨m₁, hwrite, hput, hfiling⟩ := h.put (b :: waiting)
    simp only [List.isEmpty_cons, Bool.false_eq_true, if_false, hwrite]
    exact ⟨_, rfl, hput.setPending fun _ _ => rfl, hfiling.trans (.modifyHandle m₁ id _)⟩

/-- **Writing** puts bytes behind those that wait, or behind those that are there. -/
theorem Behind.write (h : m.Behind id o node content waiting) (bytes : Bytes) :
    ∃ m₁ content' waiting', m.writeHandle id bytes = (.returned (), m₁) ∧
      m₁.Behind id o node content' waiting' ∧
      content' ++ waiting' = content ++ waiting ++ bytes ∧ Filing node m m₁ := by
  obtain ⟨handle, hhandle, hclosed, hopening, hpending⟩ := h.handle
  unfold writeHandle
  rw [hhandle]
  simp only [hclosed, Bool.false_eq_true, if_false, hpending, hopening]
  split
  · -- there is room in the buffer
    refine ⟨_, content, waiting ++ bytes, rfl, h.setPending fun handle hwaiting => ?_,
      (List.append_assoc ..).symm, .modifyHandle m id _⟩
    rw [hwaiting]
  · -- the buffer is emptied first
    obtain ⟨m₁, hflush, h₁, hfiling⟩ := h.flush
    rw [hflush]
    dsimp only
    split
    · exact ⟨_, _, bytes, rfl, h₁.setPending fun _ _ => rfl, rfl,
        hfiling.trans (.modifyHandle m₁ id _)⟩
    · -- what is longer than the buffer goes to the file at once
      obtain ⟨m₂, hwrite, h₂, hfiling'⟩ := h₁.put bytes
      rw [hwrite]
      exact ⟨m₂, _, [], rfl, h₂, List.append_nil _, hfiling.trans hfiling'⟩

/-- **Closing** puts what waits behind what is there, and ends it. -/
theorem Behind.close (h : m.Behind id o node content waiting) :
    ∃ m₁, m.closeHandle id = (.returned (), m₁) ∧
      m₁.files.content? node = some (content ++ waiting) ∧ Filing node m m₁ := by
  obtain ⟨m₁, hflush, h₁, hfiling⟩ := h.flush
  obtain ⟨handle, hhandle, hclosed, -, -⟩ := h.handle
  unfold closeHandle
  rw [hhandle]
  simp only [hclosed, Bool.false_eq_true, if_false, hflush]
  exact ⟨_, rfl, h₁.content, hfiling.trans (.modifyHandle m₁ id _)⟩

end Machine

end LineShell.Host
