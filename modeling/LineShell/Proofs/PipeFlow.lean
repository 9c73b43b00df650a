import LineShell.Host.Machine
import LineShell.Proofs.Flow

namespace LineShell

open Text (Bytes)

/-!
# What flows through pipes and relays

* `Pipe.Grew`, `Pipe.Shrank` — a pipe after a write, and after a read;
* `Pipe.grew_of_write`, `Pipe.shrank_of_read`, `Pipe.shrank_of_readLine` — no byte is lost, added
  or moved by either side;
* `Pipe.Fed`, `Pipe.Drawn` — all that a writer, and all that a reader may do to a pipe;
* `Host.Conveys` — between its two pipes a relay loses nothing, until it ends or is broken off.
-/

namespace Pipe

/-- The pipe has taken some bytes more. -/
structure Grew (p q : Pipe) (part : Bytes) : Prop where
  buffer : q.buffer = p.buffer ++ part
  received : q.received = p.received ++ part
  writerOpen : q.writerOpen = p.writerOpen
  readerOpen : q.readerOpen = p.readerOpen
  quota : p.quota = none → q.quota = none
  ending : q.ending = p.ending

/-- The pipe has given some bytes away. -/
structure Shrank (p q : Pipe) (part : Bytes) : Prop where
  buffer : p.buffer = part ++ q.buffer
  received : q.received = p.received
  writerOpen : q.writerOpen = p.writerOpen
  readerOpen : q.readerOpen = p.readerOpen
  quota : p.quota = none → q.quota = none
  ending : q.ending = p.ending

variable {p q : Pipe} {bytes : Bytes}

/-- What becomes of a write to a pipe that takes any number of writes. -/
theorem grew_of_write {count : Nat} (h : p.write bytes = .took count q) :
    p.Grew q (bytes.take count) ∧ count ≤ bytes.length := by
  unfold write at h
  split at h
  · cases h
  · split at h
    · cases h
    · simp only at h
      split at h
      · cases h
      · cases h
        refine ⟨⟨rfl, by simp [received], rfl, rfl, fun hq => by simp [hq], rfl⟩, ?_⟩
        unfold room
        split
        · exact Nat.le_refl _
        · exact Nat.min_le_left _ _

theorem readerOpen_of_write {count : Nat} (h : p.write bytes = .took count q) :
    p.readerOpen = true := by
  unfold write at h
  split at h
  · cases h
  · rename_i hr
    simpa using hr

theorem readerOpen_of_broken (h : p.write bytes = .broken) : p.readerOpen = false := by
  unfold write at h
  split at h
  · rename_i hr
    simpa using hr
  · split at h
    · cases h
    · simp only at h
      split at h <;> cases h

theorem write_ne_refused (hq : p.quota = none) (f : Fault) : p.write bytes ≠ .refused f := by
  intro h
  unfold write at h
  split at h
  · cases h
  · rw [hq] at h
    split at h
    · rename_i h0
      cases h0
    · simp only at h
      split at h <;> cases h

theorem shrank_of_read {limit : Option Nat} (h : p.read limit = .gave bytes q) :
    p.Shrank q bytes := by
  have hbuffer := buffer_of_read h
  unfold read at h
  split at h
  · split at h <;> cases h
  · simp only at h
    cases h
    exact ⟨hbuffer, rfl, rfl, rfl, id, rfl⟩

/-- A read of at least one byte brings one. -/
theorem ne_nil_of_read {limit : Option Nat} (h : p.read limit = .gave bytes q)
    (hlimit : limit ≠ some 0) : bytes ≠ [] := by
  unfold read at h
  split at h
  · split at h <;> cases h
  · rename_i hne
    simp only at h
    cases h
    have hbuffer : p.buffer ≠ [] := by simpa using hne
    intro htake
    -- a part of the buffer is empty if it has no length, or if the buffer is
    rcases List.take_eq_nil_iff.1 htake with h0 | hnil
    · cases limit with
      | none => exact hbuffer (List.length_eq_zero_iff.1 h0)
      | some n => exact hlimit (congrArg some h0)
    · exact hbuffer hnil

theorem ended_of_read {limit : Option Nat} {fault : Option Fault} (h : p.read limit = .ended fault) :
    p.buffer = [] ∧ p.writerOpen = false ∧ p.ending = fault := by
  unfold read at h
  split at h
  · rename_i hbuffer
    split at h
    · cases h
    · rename_i hopen
      cases h
      exact ⟨by simpa using hbuffer, by simpa using hopen, rfl⟩
  · simp only at h
    cases h

theorem shrank_of_readLine (h : p.readLine = .gave bytes q) : p.Shrank q bytes := by
  unfold readLine at h
  split at h
  · simp only at h
    cases h
    exact ⟨(firstLine_append _).symm, rfl, rfl, rfl, id, rfl⟩
  · split at h <;> cases h

/-- A line has at least one byte. -/
theorem ne_nil_of_readLine (h : p.readLine = .gave bytes q) : bytes ≠ [] := by
  unfold readLine at h
  split at h
  · rename_i hline
    simp only at h
    cases h
    have hbuffer : p.buffer ≠ [] := by
      rintro hnil
      simp [hnil] at hline
    unfold firstLine
    split
    · exact hbuffer
    · simp
  · split at h <;> cases h

theorem ended_of_readLine {fault : Option Fault} (h : p.readLine = .ended fault) :
    p.buffer = [] ∧ p.writerOpen = false ∧ p.ending = fault := by
  unfold readLine at h
  split at h
  · simp only at h
    cases h
  · rename_i hline
    split at h
    · cases h
    · rename_i hopen
      cases h
      simp only [Bool.or_eq_true, Bool.and_eq_true, Bool.not_eq_true', not_or, not_and] at hline
      have hclosed : p.writerOpen = false := by simpa using hopen
      exact ⟨by simpa using hline.2 hclosed, hclosed, rfl⟩

/-! ### Writers and readers -/

/-- All that a writer may do to a pipe. -/
inductive Fed : Pipe → Pipe → Prop
  | same (p : Pipe) : Fed p p
  | wrote {p q : Pipe} {part : Bytes} (hopen : p.writerOpen = true) (h : p.Grew q part) : Fed p q
  | closed (p : Pipe) : Fed p p.closeWriter

/-- All that a reader may do to a pipe. -/
inductive Drawn : Pipe → Pipe → Prop
  | same (p : Pipe) : Drawn p p
  | read {p q : Pipe} {part : Bytes} (h : p.Shrank q part) : Drawn p q
  | closed (p : Pipe) : Drawn p p.closeReader

theorem Fed.readerOpen (h : Fed p q) : q.readerOpen = p.readerOpen := by
  cases h with
  | same => rfl
  | wrote _ h => exact h.readerOpen
  | closed => rfl

theorem Fed.quota (h : Fed p q) (hq : p.quota = none) : q.quota = none := by
  cases h with
  | same => exact hq
  | wrote _ h => exact h.quota hq
  | closed => exact hq

theorem Fed.buffered {bytes : Bytes} (h : Fed p q) (hp : p.received = bytes ++ p.buffer) :
    q.received = bytes ++ q.buffer := by
  cases h with
  | same => exact hp
  | wrote _ h => rw [h.received, hp, h.buffer, List.append_assoc]
  | closed => exact hp

theorem Drawn.received (h : Drawn p q) : q.received = p.received := by
  cases h with
  | same => rfl
  | read h => exact h.received
  | closed => rfl

theorem Drawn.writerOpen (h : Drawn p q) : q.writerOpen = p.writerOpen := by
  cases h with
  | same => rfl
  | read h => exact h.writerOpen
  | closed => rfl

theorem Drawn.quota (h : Drawn p q) (hq : p.quota = none) : q.quota = none := by
  cases h with
  | same => exact hq
  | read h => exact h.quota hq
  | closed => exact hq

theorem Drawn.ending (h : Drawn p q) : q.ending = p.ending := by
  cases h with
  | same => rfl
  | read h => exact h.ending
  | closed => rfl

theorem Drawn.readerOpen (h : Drawn p q) (hr : p.readerOpen = false) : q.readerOpen = false := by
  cases h with
  | same => exact hr
  | read h => exact h.readerOpen.trans hr
  | closed => rfl

/-- A pipe as it is when it has just been made. -/
def IsFresh (p : Pipe) : Prop := p = { capacity := p.capacity }

instance (p : Pipe) : Decidable p.IsFresh := inferInstanceAs (Decidable (p = _))

end Pipe

namespace Host

/-! ### Relays -/

/-- A fault has ended the relay. -/
def RelayTask.Faulty (r : RelayTask) : Prop := r.done = true ∧ (r.fault ≠ none ∨ r.death ≠ none)

/-- All that the writer of the one pipe had to write has come to the other one. -/
def Whole (o i : Pipe) (complete : Prop) : Prop :=
  o.writerOpen = false ∧ i.received = o.received ∧ complete

/-- A relay from one pipe to another. While it goes on, what has come out of the one and is not yet
in the other is what it holds. When it has ended, a first part has arrived, and if that is not all,
then nobody reads it any more, or the relay has met a fault. -/
structure Conveys (r : RelayTask) (o i : Pipe) (complete : Prop) : Prop where
  flowing : r.done = false → i.writerOpen = true ∧ o.readerOpen = true ∧
    o.received = i.received ++ r.pending ++ o.buffer
  ended : r.done = true → i.writerOpen = false ∧ i.received <+: o.received ∧
    (r.Faulty ∨ i.readerOpen = false ∨ Whole o i complete)

namespace Conveys

variable {r : RelayTask} {o o' i i' : Pipe} {part : Bytes} {complete complete' : Prop}

theorem received_prefix (h : Conveys r o i complete) : i.received <+: o.received := by
  cases hd : r.done with
  | false =>
    rw [(h.flowing hd).2.2, List.append_assoc]
    exact List.prefix_append _ _
  | true => exact (h.ended hd).2.1

theorem mono (h : Conveys r o i complete) (hc : complete → complete') : Conveys r o i complete' where
  flowing := h.flowing
  ended hd := by
    obtain ⟨hw, hp, hend⟩ := h.ended hd
    refine ⟨hw, hp, hend.imp_right (Or.imp_right ?_)⟩
    rintro ⟨ho, hr, hcomplete⟩
    exact ⟨ho, hr, hc hcomplete⟩

/-! The other sides of the two pipes may do what they like. -/

theorem source_grew (h : Conveys r o i complete) (hg : o.Grew o' part)
    (hopen : o.writerOpen = true) : Conveys r o' i complete' where
  flowing hd := by
    obtain ⟨hw, hr, hreceived⟩ := h.flowing hd
    refine ⟨hw, hg.readerOpen.trans hr, ?_⟩
    rw [hg.received, hreceived, hg.buffer]
    simp only [List.append_assoc]
  ended hd := by
    obtain ⟨hw, hp, hend⟩ := h.ended hd
    refine ⟨hw, ?_, hend.imp_right (Or.imp_right ?_)⟩
    · rw [hg.received]
      exact hp.trans (List.prefix_append _ _)
    · -- whoever still writes has not come to his end, so not all can have arrived
      rintro ⟨ho, -, -⟩
      rw [hopen] at ho
      cases ho

theorem source_closed (h : Conveys r o i complete) : Conveys r o.closeWriter i complete where
  flowing := h.flowing
  ended hd := by
    obtain ⟨hw, hp, hend⟩ := h.ended hd
    refine ⟨hw, hp, hend.imp_right (Or.imp_right ?_)⟩
    rintro ⟨-, hr, hcomplete⟩
    exact ⟨rfl, hr, hcomplete⟩

theorem sink_shrank (h : Conveys r o i complete) (hs : i.Shrank i' part) :
    Conveys r o i' complete where
  flowing hd := by
    obtain ⟨hw, hr, hreceived⟩ := h.flowing hd
    exact ⟨hs.writerOpen.trans hw, hr, by rw [hs.received, hreceived]⟩
  ended hd := by
    obtain ⟨hw, hp, hend⟩ := h.ended hd
    refine ⟨hs.writerOpen.trans hw, by rwa [hs.received], ?_⟩
    rcases hend with hf | hr | ⟨ho, hreceived, hcomplete⟩
    · exact .inl hf
    · exact .inr (.inl (hs.readerOpen.trans hr))
    · exact .inr (.inr ⟨ho, hs.received.trans hreceived, hcomplete⟩)

theorem sink_closed (h : Conveys r o i complete) : Conveys r o i.closeReader complete where
  flowing := h.flowing
  ended hd := by
    obtain ⟨hw, hp, -⟩ := h.ended hd
    exact ⟨hw, hp, .inr (.inl rfl)⟩

/-! Steps of the relay itself. -/

theorem pulled (h : Conveys r o i complete) (hd : r.done = false) (hpending : r.pending = [])
    (hs : o.Shrank o' part) {size : Nat} :
    Conveys { r with pending := part, size } o' i complete where
  flowing _ := by
    obtain ⟨hw, hr, hreceived⟩ := h.flowing hd
    refine ⟨hw, hs.readerOpen.trans hr, ?_⟩
    rw [hs.received, hreceived, hpending, hs.buffer]
    simp only [List.append_assoc, List.nil_append]
  ended hd' := by
    rw [show r.done = true from hd'] at hd
    cases hd

theorem pushed (h : Conveys r o i complete) (hd : r.done = false) {count copied : Nat}
    (hg : i.Grew i' (r.pending.take count)) :
    Conveys { r with pending := r.pending.drop count, copied } o i' complete where
  flowing _ := by
    obtain ⟨hw, hr, hreceived⟩ := h.flowing hd
    refine ⟨hg.writerOpen.trans hw, hr, ?_⟩
    -- the part that is taken and the part that stays make what the relay held
    have hpending := List.take_append_drop count r.pending
    rw [hg.received, hreceived]
    simp only [List.append_assoc]
    rw [← List.append_assoc (r.pending.take count), hpending]
  ended hd' := by
    rw [show r.done = true from hd'] at hd
    cases hd

/-- A relay ends with a fault, or with its sink broken, or when there is nothing left. -/
theorem finished (h : Conveys r o i complete) (hd : r.done = false) {r' : RelayTask}
    (hdone : r'.done = true) (hwhy : r'.Faulty ∨ i.readerOpen = false ∨
      (r.pending = [] ∧ o.buffer = [] ∧ o.writerOpen = false ∧ complete)) :
    Conveys r' o.closeReader i.closeWriter complete where
  flowing hd' := by
    rw [hdone] at hd'
    cases hd'
  ended _ := by
    refine ⟨rfl, h.received_prefix, hwhy.imp_right (Or.imp_right ?_)⟩
    rintro ⟨hpending, hbuffer, hw, hcomplete⟩
    -- the relay holds nothing and nothing waits at its source: all has arrived
    obtain ⟨-, -, hreceived⟩ := h.flowing hd
    rw [hpending, hbuffer, List.append_nil, List.append_nil] at hreceived
    exact ⟨hw, hreceived.symm, hcomplete⟩

end Conveys

end Host

end LineShell
