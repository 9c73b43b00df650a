import Mathlib.Logic.Relation
import LineShell.Host.Scripted
import LineShell.Proofs.Linking

namespace LineShell.Host

open Text (Bytes)

/-!
# What a relay copies

A relay on its own, between a pipe that holds all the bytes there will be and one that has room for
them.

* `chunks` — the pieces in which a pipe's bytes are read;
* `Pipe.refuses` — the fault that a pipe meets a write with, by the writes before it;
* `Between` — a relay at work between two pipes: one lemma for each step that it may take;
* `Copied` — what has been copied, and what ended it;
* `Between.copies` — a relay that can read takes finitely many steps, and then all is told;
* `relay_copies` — every relay closes both its pipes, and copies just if it can read.
-/

variable {S : Type}

/-! ### Chunks -/

/-- The pieces in which some bytes are read one after another, with a limit for each. -/
def chunks (limit : Option Nat) (bytes : Bytes) : List Bytes :=
  if bytes = [] ∨ limit = some 0 then []
  else bytes.take (limit.getD bytes.length) :: chunks limit (bytes.drop (limit.getD bytes.length))
termination_by bytes.length
decreasing_by
  rename_i h
  have hbytes := List.length_pos_iff.2 fun hnil => h (.inl hnil)
  cases limit with
  | none => simpa using hbytes
  | some n =>
    have hn : n ≠ 0 := fun hzero => h (.inr (congrArg some hzero))
    simp only [Option.getD_some, List.length_drop]
    omega

variable {limit : Option Nat} {bytes b : Bytes} {bs : List Bytes}

/-- The pieces are all there was, unless nothing is read at a time. -/
theorem flatten_chunks (hlimit : limit ≠ some 0) (bytes : Bytes) :
    (chunks limit bytes).flatten = bytes := by
  induction bytes using chunks.induct limit with
  | case1 bytes h =>
    rw [chunks, if_pos h]
    exact (h.resolve_right hlimit).symm
  | case2 bytes h ih =>
    rw [chunks, if_neg h, List.flatten_cons, ih, List.take_append_drop]

/-- Where there is a piece it is the first one, and the others are those of the bytes behind it. -/
theorem chunks_eq_cons (h : chunks limit bytes = b :: bs) : bytes ≠ [] ∧ b ≠ [] ∧
    b = bytes.take (limit.getD bytes.length) ∧
      bs = chunks limit (bytes.drop (limit.getD bytes.length)) := by
  rw [chunks] at h
  split at h
  · cases h
  · rename_i hsome
    obtain ⟨rfl, rfl⟩ := List.cons.inj h
    have hbytes : bytes ≠ [] := fun hnil => hsome (.inl hnil)
    refine ⟨hbytes, ?_, rfl, rfl⟩
    cases limit with
    | none => simpa using hbytes
    | some n =>
      have hn : n ≠ 0 := fun hzero => hsome (.inr (congrArg some hzero))
      simp [List.take_eq_nil_iff, hn, hbytes]

theorem chunks_eq_nil (hlimit : limit ≠ some 0) (h : chunks limit bytes = []) : bytes = [] := by
  rw [← flatten_chunks hlimit bytes, h]
  rfl

end LineShell.Host

namespace LineShell.Pipe

open Text (Bytes)
open Host (chunks)

variable {o i i' : Pipe} {limit : Option Nat} {bytes b : Bytes} {bs : List Bytes} {f : Fault}

/-! ### Reads and writes that need not wait -/

theorem read_end (hclosed : o.writerOpen = false) (hlimit : limit ≠ some 0)
    (h : chunks limit o.buffer = []) : o.read limit = .ended o.ending := by
  rw [read, Host.chunks_eq_nil hlimit h, hclosed]
  rfl

theorem read_chunk (h : chunks limit o.buffer = b :: bs) : b ≠ [] ∧ ∃ rest,
    o.read limit = .gave b { o with buffer := rest } ∧ chunks limit rest = bs := by
  obtain ⟨hbuffer, hb, rfl, rfl⟩ := Host.chunks_eq_cons h
  refine ⟨hb, _, ?_, rfl⟩
  rw [read, if_neg (by simpa using hbuffer)]

/-- The fault that a pipe meets a write with which comes behind so many others. -/
def refuses (i : Pipe) (k : Nat) : Option Fault :=
  if !i.readerOpen then some .brokenPipe
  else if i.quota.any (· ≤ k) then some i.refusal
  else none

theorem write_refused (h : i.refuses 0 = some f) (bytes : Bytes) :
    (i.write bytes = .broken ∧ f = .brokenPipe) ∨ i.write bytes = .refused f := by
  rw [refuses] at h
  split at h
  · cases h
    exact .inl ⟨by rw [write, if_pos ‹_›], rfl⟩
  · split at h
    · cases h
      have hquota : i.quota = some 0 := by
        cases hq : i.quota with
        | none => simp [hq] at *
        | some q =>
          have hle : i.quota.any (· ≤ 0) = true := ‹_›
          have hq0 : q ≤ 0 := by simpa [hq] using hle
          rw [Nat.le_zero.1 hq0]
      exact .inr (by rw [write, if_neg ‹_›, if_pos hquota])
    · cases h

/-- A write that is not refused goes in as a whole where there is room, and counts. -/
theorem write_accepted (hroom : i.capacity = none) (h : i.refuses 0 = none) : ∃ i',
    i.write bytes = .took bytes.length i' ∧ i'.accepted = bytes :: i.accepted ∧
      i'.capacity = none ∧ ∀ k, i'.refuses k = i.refuses (k + 1) := by
  rw [refuses] at h
  split at h
  · cases h
  · rename_i hreader
    split at h
    · cases h
    · rename_i hquota
      have hopen : i.quota ≠ some 0 := by
        intro hzero
        simp [hzero] at hquota
      refine ⟨{ i with
        buffer := i.buffer ++ bytes, accepted := bytes :: i.accepted
        quota := i.quota.map (· - 1) }, ?_, rfl, hroom, fun k => ?_⟩
      · rw [write, if_neg hreader, if_neg hopen, room, hroom]
        cases bytes <;> simp
      · simp only [refuses]
        cases hq : i.quota with
        | none => simp
        | some q =>
          have hq0 : q ≠ 0 := fun hzero => hopen (hq.trans (congrArg some hzero))
          have hle : q - 1 ≤ k ↔ q ≤ k + 1 := by omega
          simp [hle]

end LineShell.Pipe

namespace LineShell.Host.Machine

open Text (Bytes)

variable {S : Type} {m m' : Machine S} {j s : Nat} {r r' : RelayTask} {o o' i i' : Pipe}
  {b : Bytes} {bs : List Bytes} {f : Fault}

/-! ### The steps of a relay -/

/-- A relay is at work between two pipes. -/
structure Between (m : Machine S) (j : Nat) (r : RelayTask) (s : Nat) (o i : Pipe) : Prop where
  relay : m.relays[j]? = some r
  goes : r.done = false
  source : m.pipes[r.source]? = some o
  sink : r.sink = some s
  target : m.pipes[s]? = some i
  apart : s ≠ r.source

/-- Some steps of a relay, and of nobody else. -/
def Runs (j : Nat) : Machine S → Machine S → Prop :=
  Relation.ReflTransGen fun m m' => m.stepRelay j = some m'

/-- A relay has ended, by a fault if there is one, and has closed its pipes. -/
structure Finished (m' : Machine S) (j : Nat) (r : RelayTask) (s : Nat) (o i : Pipe)
    (fault : Option Fault) : Prop where
  relay : m'.relays[j]? = some { r with fault, done := true }
  source : m'.pipes[r.source]? = some o.closeReader
  target : m'.pipes[s]? = some i.closeWriter

/-- What a relay makes of a fault: that its sink takes no more is none. -/
def heard (f : Fault) : Option Fault := if f.isBrokenPipe then none else some f

namespace Between

theorem not_self (h : Between m j r s o i) : r.sink ≠ some r.source := by
  rw [h.sink]
  exact fun hsame => h.apart (Option.some.inj hsame)

/-- It goes on, and one of its pipes changes. -/
theorem modify (h : Between m j r s o i) {n : Nat} {p : Pipe} {f : RelayTask → RelayTask}
    (hends : (f r).ends = r.ends) (hgoes : (f r).done = false)
    (ho : ((m.modifyPipe n fun _ => p).pipes[r.source]?) = some o')
    (hi : ((m.modifyPipe n fun _ => p).pipes[s]?) = some i') :
    Between ((m.modifyPipe n fun _ => p).modifyRelay j f) j (f r) s o' i' := by
  have hsource : (f r).source = r.source := congrArg Ends.source hends
  refine ⟨relays_modifyRelay_self h.relay f, hgoes, ?_, (congrArg Ends.sink hends).trans h.sink,
    hi, ?_⟩
  · rw [hsource]
    exact ho
  · rw [hsource]
    exact h.apart

theorem step_eq (h : Between m j r s o i) : m.stepRelay j =
    if r.pending.isEmpty then m.pullRelay j r else m.pushRelay j r s := by
  simp [stepRelay, h.relay, h.goes, h.sink]

/-- It reads a chunk. -/
theorem pulls (h : Between m j r s o i) (hpending : r.pending = []) (hsize : isReadSize r.chunk = true)
    (hread : o.read (chunkLimit r.chunk) = .gave b o') (hb : b ≠ []) :
    ∃ m', m.stepRelay j = some m' ∧
      Between m' j { r with pending := b, size := b.length } s o' i := by
  let f (r : RelayTask) : RelayTask := { r with pending := b, size := b.length }
  have hstep : m.stepRelay j = some ((m.modifyPipe r.source fun _ => o').modifyRelay j f) := by
    simp [h.step_eq, hpending, pullRelay, hsize, h.source, hread, hb, f]
  refine ⟨_, hstep, h.modify (f := f) rfl h.goes (pipes_modifyPipe_self h.source _) ?_⟩
  exact (pipes_modifyPipe_ne (Ne.symm h.apart) _).trans h.target

/-- It writes the chunk that it has read. -/
theorem pushes (h : Between m j r s o i) (hpending : r.pending ≠ [])
    (hwrite : i.write r.pending = .took r.pending.length i') :
    ∃ m', m.stepRelay j = some m' ∧
      Between m' j { r with pending := [], copied := r.copied + r.size } s o i' := by
  let f (task : RelayTask) : RelayTask :=
    { task with pending := [], copied := task.copied + task.size }
  have hstep : m.stepRelay j = some ((m.modifyPipe s fun _ => i').modifyRelay j f) := by
    rw [h.step_eq, if_neg (by simpa using hpending), pushRelay, h.target, Option.map_some, hwrite]
    simp only [List.drop_length]
    rfl
  refine ⟨_, hstep, h.modify (f := f) rfl h.goes ?_ (pipes_modifyPipe_self h.target _)⟩
  exact (pipes_modifyPipe_ne h.apart _).trans h.source

/-- It ends. -/
theorem finishes (h : Between m j r s o i) (fault : Option Fault) :
    Finished (m.finishRelay j r fault) j r s o i fault := by
  have hover := finishRelay_over h.relay fault
  exact ⟨hover.1, hover.source h.source h.not_self, hover.sink h.sink h.apart h.target⟩

theorem fails (h : Between m j r s o i) (hf : f.isIo = true ∨ f.isInvalid = true) :
    Finished (m.failRelay j r f) j r s o i (heard f) := by
  rw [failRelay, heard]
  split
  · exact h.finishes none
  · rw [if_pos (by simpa using hf)]
    exact h.finishes (some f)

/-- It ends where its sink takes no more. -/
theorem refused (h : Between m j r s o i) (hpending : r.pending ≠ []) (hrefuses : i.refuses 0 = some f)
    (hf : f.isIo = true ∨ f.isInvalid = true) :
    ∃ m', m.stepRelay j = some m' ∧ Finished m' j r s o i (heard f) := by
  rw [h.step_eq, if_neg (by simpa using hpending), pushRelay, h.target, Option.map_some]
  rcases Pipe.write_refused hrefuses r.pending with ⟨hwrite, rfl⟩ | hwrite
  · rw [hwrite]
    exact ⟨_, rfl, h.fails hf⟩
  · rw [hwrite]
    exact ⟨_, rfl, h.fails hf⟩

/-- A relay that cannot be asked for so many bytes dies, and nobody hears of it. -/
theorem dies (h : Between m j r s o i) (hpending : r.pending = []) (hsize : isReadSize r.chunk = false) :
    ∃ m' r', m.stepRelay j = some m' ∧ m'.relays[j]? = some r' ∧ r'.done = true ∧
      m'.pipes[r.source]? = some o.closeReader ∧ m'.pipes[s]? = some i.closeWriter ∧
        r'.death ≠ none := by
  have hstep : m.stepRelay j = some (m.killRelay j r
      (.outOfRange "cannot fit 'int' into an index-sized integer")) := by
    rw [h.step_eq, if_pos (by simp [hpending]), pullRelay, hsize]
    rfl
  have hover := finishRelay_over h.relay none
  have hsource := hover.source h.source h.not_self
  have hsink := hover.sink h.sink h.apart h.target
  rw [hover.pipes] at hsource hsink
  exact ⟨_, _, hstep, relays_modifyRelay_self (endRelay_relays h.relay none) _, rfl, hsource, hsink,
    nofun⟩

end Between

/-! ### A whole run -/

/-- What a relay has copied: the chunks that were written, and the fault that it met then, if it was
not the end of its source. -/
structure Copied (o i : Pipe) (r r' : RelayTask) (i' : Pipe) (written : List Bytes)
    (cause : Option Fault) : Prop where
  /-- Each chunk is one write, behind whatever was written before. -/
  writes : i'.accepted = written.reverse ++ i.accepted
  copied : r'.copied = r.copied + written.flatten.length
  taken : ∀ k < written.length, i.refuses k = none
  /-- All chunks have been written, or the next one was refused. -/
  ended : (written = chunks (chunkLimit r.chunk) o.buffer ∧ cause = o.ending) ∨
    ∃ b rest f, chunks (chunkLimit r.chunk) o.buffer = written ++ b :: rest ∧
      i.refuses written.length = some f ∧ cause = some f
  death : r'.death = r.death

/-- Another chunk before those that have been copied. -/
theorem Copied.cons {o₁ i₁ : Pipe} {r₁ : RelayTask} {written : List Bytes}
    {cause : Option Fault} (h : Copied o₁ i₁ r₁ r' i' written cause) (hchunk : r₁.chunk = r.chunk)
    (hchunks : chunks (chunkLimit r.chunk) o.buffer = b :: chunks (chunkLimit r.chunk) o₁.buffer)
    (hending : o₁.ending = o.ending) (haccepted : i₁.accepted = b :: i.accepted)
    (hrefuses : ∀ k, i₁.refuses k = i.refuses (k + 1)) (htaken : i.refuses 0 = none)
    (hcopied : r₁.copied = r.copied + b.length) (hdeath : r₁.death = r.death) :
    Copied o i r r' i' (b :: written) cause := by
  refine ⟨?_, ?_, ?_, ?_, h.death.trans hdeath⟩
  · rw [h.writes, haccepted]
    simp
  · rw [h.copied, hcopied, List.flatten_cons, List.length_append]
    omega
  · intro k hk
    cases k with
    | zero => exact htaken
    | succ k =>
      rw [← hrefuses]
      exact h.taken k (by simpa using hk)
  · rcases h.ended with ⟨hall, hcause⟩ | ⟨b', rest, f, hall, hf, hcause⟩
    · exact .inl ⟨by rw [hchunks, hall, hchunk], hcause.trans hending⟩
    · refine .inr ⟨b', rest, f, ?_, (hrefuses _).symm.trans hf, hcause⟩
      rw [hchunks, ← hchunk, hall, List.cons_append]

/-- **A run of a relay.** A relay that can read takes finitely many steps. -/
theorem Between.copies (h : Between m j r s o i) (hpending : r.pending = [])
    (hlimit : chunkLimit r.chunk ≠ some 0) (hsize : isReadSize r.chunk = true)
    (hclosed : o.writerOpen = false) (hroom : i.capacity = none)
    (hending : ∀ f, o.ending = some f → f.isIo = true ∨ f.isInvalid = true)
    (hrefusal : ∀ k f, i.refuses k = some f → f.isIo = true ∨ f.isInvalid = true) :
    ∃ m' r' o' i' written cause, Runs j m m' ∧ r'.ends = r.ends ∧
      Finished m' j r' s o' i' (cause.bind heard) ∧ Copied o i r r' i' written cause := by
  induction hchunks : chunks (chunkLimit r.chunk) o.buffer generalizing m r o i with
  | nil =>
    -- the source is at its end
    have hread := Pipe.read_end hclosed hlimit hchunks
    obtain ⟨m', hstep, hfinished⟩ : ∃ m', m.stepRelay j = some m' ∧
        Finished m' j r s o i (o.ending.bind heard) := by
      rw [h.step_eq, if_pos (by simp [hpending])]
      simp only [pullRelay, hsize, h.source, hread, Option.map_some]
      cases hend : o.ending with
      | none => exact ⟨_, rfl, h.finishes none⟩
      | some f => exact ⟨_, rfl, h.fails (hending f hend)⟩
    exact ⟨m', r, o, i, [], _, .single hstep, rfl, hfinished, rfl, rfl, by simp,
      .inl ⟨hchunks.symm, rfl⟩, rfl⟩
  | cons b bs ih =>
    obtain ⟨hb, rest, hread, hrest⟩ := Pipe.read_chunk hchunks
    obtain ⟨m₁, hpull, h₁⟩ := h.pulls hpending hsize hread hb
    cases hrefuses : i.refuses 0 with
    | some f =>
      obtain ⟨m', hstep, hfinished⟩ := h₁.refused hb hrefuses (hrefusal 0 f hrefuses)
      exact ⟨m', { r with pending := b, size := b.length }, _, i, [], some f,
        .head hpull (.single hstep), rfl, hfinished, rfl, rfl, by simp,
        .inr ⟨b, bs, f, hchunks, hrefuses, rfl⟩, rfl⟩
    | none =>
      obtain ⟨i₁, hwrite, haccepted, hroom₁, hrefuses₁⟩ := Pipe.write_accepted hroom hrefuses
      obtain ⟨m₂, hpush, h₂⟩ := h₁.pushes hb hwrite
      obtain ⟨m', r', o', i', written, cause, hruns, hends, hfinished, hcopied⟩ :=
        ih h₂ rfl hlimit hsize hclosed hroom₁ hending
          (fun k f hf => hrefusal _ f ((hrefuses₁ k).symm.trans hf)) hrest
      refine ⟨m', r', o', i', b :: written, cause, .head hpull (.head hpush hruns), hends, hfinished,
        hcopied.cons rfl ?_ rfl haccepted hrefuses₁ hrefuses rfl rfl⟩
      rw [hchunks]
      exact congrArg (b :: ·) hrest.symm

/-- What has been copied is a first part of the source, and all of it if nothing is refused. -/
theorem Copied.bytes {written : List Bytes} {cause : Option Fault}
    (h : Copied o i r r' i' written cause) (hlimit : chunkLimit r.chunk ≠ some 0) :
    written.flatten <+: o.buffer ∧ ((∀ k, i.refuses k = none) → written.flatten = o.buffer) := by
  have hall := flatten_chunks hlimit o.buffer
  rcases h.ended with ⟨hwritten, -⟩ | ⟨b, rest, f, hchunks, hf, -⟩
  · rw [← hwritten] at hall
    exact ⟨hall ▸ List.prefix_rfl, fun _ => hall⟩
  · rw [hchunks, List.flatten_append] at hall
    refine ⟨⟨_, hall⟩, fun hnone => ?_⟩
    rw [hnone] at hf
    cases hf

/-- **A relay copies as far as it can, and closes both its pipes.** Take a relay that has just been
started. If it leads nowhere, it closes its source and reads nothing. Else it takes finitely many
steps, whatever is refused and whatever closing its sink meets, and then both its pipes are closed.
What it has written are chunks of its source from the front on, one at a time, it has counted their
bytes, and it tells of the fault that ended it unless its sink took no more — if its chunk is a number
of bytes that a read can be asked for, and otherwise it has died unheard of. -/
theorem relay_copies {S : Type} {m : Machine S} {j a : Nat} {chunk : Int} {o : Pipe}
    (hchunk : chunk ≠ 0) (ho : m.pipes[a]? = some o) (hclosed : o.writerOpen = false)
    (hending : ∀ f, o.ending = some f → f.isIo = true ∨ f.isInvalid = true) :
    (m.relays[j]? = some { source := a, sink := none, chunk } → ∃ m', Runs j m m' ∧
      m'.relays[j]? = some { source := a, sink := none, chunk, done := true } ∧
        m'.pipes[a]? = some o.closeReader) ∧
    ∀ b i, b ≠ a → m.relays[j]? = some { source := a, sink := some b, chunk } →
      m.pipes[b]? = some i → i.capacity = none →
      (∀ k f, i.refuses k = some f → f.isIo = true ∨ f.isInvalid = true) →
      ∃ m' r' o' i', Runs j m m' ∧ m'.relays[j]? = some r' ∧ r'.done = true ∧
        m'.pipes[a]? = some o' ∧ o'.readerOpen = false ∧
        m'.pipes[b]? = some i' ∧ i'.writerOpen = false ∧
        ((∃ written cause, Copied o i { source := a, sink := some b, chunk } r' i' written cause ∧
            r'.fault = cause.bind heard ∧ written.flatten <+: o.buffer ∧
            ((∀ k, i.refuses k = none) → written.flatten = o.buffer)) ↔
          isReadSize chunk = true) := by
  have hlimit := chunkLimit_ne_zero hchunk
  constructor
  · intro hr
    have hstep : m.stepRelay j =
        some (m.finishRelay j { source := a, sink := none, chunk } none) := by
      simp [stepRelay, hr]
    have hover := finishRelay_over hr none
    exact ⟨_, .single hstep, hover.1, hover.source ho (by simp)⟩
  · intro b i hne hr hi hroom hrefusal
    have h : Between m j { source := a, sink := some b, chunk } b o i :=
      ⟨hr, rfl, ho, rfl, hi, hne⟩
    cases hsize : isReadSize chunk with
    | false =>
      obtain ⟨m', r', hstep, hr', hdone, ho', hi', hdeath⟩ := h.dies rfl hsize
      refine ⟨m', r', _, _, .single hstep, hr', hdone, ho', rfl, hi', rfl, ?_, fun h => by cases h⟩
      rintro ⟨_, _, hcopied, -⟩
      exact absurd hcopied.death hdeath
    | true =>
      obtain ⟨m', r', o', i', written, cause, hruns, hends, hfinished, hcopied⟩ :=
        h.copies rfl hlimit hsize hclosed hroom hending hrefusal
      have hsource : r'.source = a := congrArg Ends.source hends
      refine ⟨m', _, _, _, hruns, hfinished.relay, rfl, hsource ▸ hfinished.source, rfl,
        hfinished.target, rfl, fun _ => rfl, fun _ => ⟨written, cause, ?_, rfl, hcopied.bytes hlimit⟩⟩
      exact ⟨hcopied.writes, hcopied.copied, hcopied.taken, hcopied.ended, hcopied.death⟩

/-- A pipe that holds three bytes, which are all there will be. -/
def threeBytes : Pipe := { buffer := [97, 98, 99], writerOpen := false }

/-- A pipe that takes so many writes, and cannot be closed without a fault. -/
def fragile (quota : Option Nat) : Pipe := { quota, refusal := .system 5 none, closeError := some 32 }

/-- A machine where a relay between these has just been started. -/
def relayMachine (chunk : Int) (quota : Option Nat) : Machine Scripted where
  pipes := #[threeBytes, fragile quota]
  relays := #[{ source := 0, sink := some 1, chunk }]

/-- A relay whose second write is refused has copied one chunk. -/
theorem relay_copies_refused : ∃ m' r' i', Runs 0 (relayMachine 2 (some 1)) m' ∧
    m'.relays[0]? = some r' ∧ r'.copied = 2 ∧ r'.fault = some (.system 5 none) ∧
      m'.pipes[1]? = some i' ∧ i'.accepted = [[97, 98]] ∧ i'.writerOpen = false := by
  have hchunks : chunks (chunkLimit 2) threeBytes.buffer = [[97, 98], [99]] := by
    simp [chunks, chunkLimit, threeBytes]
  have hsource : (relayMachine 2 (some 1)).pipes[0]? = some threeBytes := rfl
  have hrelay : (relayMachine 2 (some 1)).relays[0]? =
    some { source := 0, sink := some 1, chunk := 2 } := rfl
  have hrefusal : ∀ k f, (fragile (some 1)).refuses k = some f →
      f.isIo = true ∨ f.isInvalid = true := by
    rintro (_ | k) f hf <;> cases hf
    exact .inl rfl
  obtain ⟨m', r', -, i', hruns, hr', -, -, -, hi', hwriter, hcopies⟩ :=
    (relay_copies (by decide) hsource rfl nofun).2 1 (fragile (some 1)) (by decide) hrelay rfl rfl
      hrefusal
  obtain ⟨written, cause, hcopied, hfault, -⟩ := hcopies.2 (by decide)
  obtain ⟨rfl, rfl⟩ : written = [[97, 98]] ∧ cause = some (.system 5 none) := by
    rcases hcopied.ended with ⟨rfl, -⟩ | ⟨b, rest, f, hall, hf, rfl⟩
    · -- two chunks are more than the sink takes
      cases hcopied.taken 1 (by rw [hchunks]; decide)
    · rw [hchunks] at hall
      rcases written with _ | ⟨w, _ | ⟨w', ws⟩⟩
      · cases hf
      · cases hall
        cases hf
        exact ⟨rfl, rfl⟩
      · simp at hall
  exact ⟨m', r', i', hruns, hr', hcopied.copied, hfault, hi', hcopied.writes, hwriter⟩

/-- A chunk of 2 ^ 63 bytes is none that a read can be asked for: a relay that is told to dies with
nothing copied, and its sink is closed as if that were all. -/
theorem relay_dies_of_huge :
    ((relayMachine 9223372036854775808 none).stepRelay 0).map (fun m => (m.relays[0]?, m.pipes[1]?)) =
      some (some {
          source := 0, sink := some 1, chunk := 9223372036854775808, done := true
          death := some (.outOfRange "cannot fit 'int' into an index-sized integer") },
        some (fragile none).closeWriter) := by
  decide

end LineShell.Host.Machine
