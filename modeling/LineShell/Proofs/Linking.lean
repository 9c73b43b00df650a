import LineShell.Proofs.Seats

namespace LineShell.Host

open Text (Bytes)

/-!
# Relays between two processes

* `Complete` — what a process has written is all that it makes of what it has read;
* `Link` — a relay conveys the output of one process to another, which meets its end only behind
  all of it;
* `Link.source`, `Link.sink` — the processes at the two ends may do whatever processes at their
  seats do;
* `Machine.stepRelay_turned` — and so may the relay.
-/

variable {S : Type}

/-- What a process has written is all that it makes of what it has read. -/
def Complete (denote : List String → Flow → Flow) (p : Process S) (o : Pipe) : Prop :=
  ∀ x : Flow, x.Heard p.intake → (denote p.argv x).IsAll o.received

/-- A relay conveys the output of a process `p` to the input of a process `q`. It meets no fault if it
can read so much at a time as it is told to, and else it conveys nothing. -/
structure Link (denote : List String → Flow → Flow) (r : RelayTask) (p q : Process S) (o i : Pipe) :
    Prop where
  conveys : Conveys r o i (Complete denote p o)
  ended : .ok [] ∈ q.intake → r.done = true ∧ (r.Faulty ∨ Whole o i (Complete denote p o))
  sane : Machine.isReadSize r.chunk = true → r.fault = none ∧ r.death = none
  barren : Machine.isReadSize r.chunk = false → r.pending = [] ∧ i.received = []

variable {ps : Programs S} {denote : List String → Flow → Flow} {base : Nat} {a : Seat S}
  {p p' q q' : Process S} {o o' i i' : Pipe} {r r' : RelayTask}

theorem Complete.goes (h : Complete denote p o) (hg : p.Goes q) : Complete denote q o := by
  intro x hx
  have hargv : q.argv = p.argv := congrArg Identity.argv hg.identity
  rw [hargv]
  exact h x (hx.of_suffix hg.intake)

/-- A process that has ended, and could write all it had to, is complete. -/
theorem Works.complete (h : Works ps a p o) (hfits : a.Fits ps denote base p.identity)
    (hclosed : o.writerOpen = false) (hopen : o.readerOpen = true) : Complete denote p o := by
  obtain ⟨-, -, -, broken, shut, hran, hbroken, hstands⟩ := h
  cases hstands with
  | working _ _ hwriter =>
    rw [hwriter] at hclosed
    cases hclosed
  | ended _ _ _ _ hend =>
    cases broken with
    | true =>
      -- a write has failed, but there is a reader
      rw [hbroken rfl] at hopen
      cases hopen
    | false => exact fun x hx => hfits.computes.ends hran hend x hx

namespace Link

theorem whole_of_conveys (h : Link denote r p q o i) (hclosed : i.writerOpen = false)
    (hopen : i.readerOpen = true) :
    r.done = true ∧ (r.Faulty ∨ Whole o i (Complete denote p o)) := by
  have hdone : r.done = true := by
    cases hd : r.done with
    | true => rfl
    | false =>
      rw [(h.conveys.flowing hd).1] at hclosed
      cases hclosed
  refine ⟨hdone, ?_⟩
  rcases (h.conveys.ended hdone).2.2 with hf | hr | hwhole
  · exact .inl hf
  · rw [hr] at hopen
    cases hopen
  · exact .inr hwhole

/-- The process at the source goes on. -/
theorem source (h : Link denote r p q o i) (hg : p.Goes p') (hf : o.Fed o') :
    Link denote r p' q o' i := by
  have hgoes : Complete denote p o → Complete denote p' o := fun hc => hc.goes hg
  cases hf with
  | same => exact ⟨h.conveys.mono hgoes, fun hend => (h.ended hend).imp_right
      (Or.imp_right fun ⟨hw, hr, hc⟩ => ⟨hw, hr, hgoes hc⟩), h.sane, h.barren⟩
  | wrote hopen hgrew =>
    refine ⟨h.conveys.source_grew hgrew hopen, fun hend => (h.ended hend).imp_right (Or.imp_right ?_),
      h.sane, h.barren⟩
    -- what is not all yet has not been found to be all
    rintro ⟨hw, -, -⟩
    rw [hopen] at hw
    cases hw
  | closed => exact ⟨h.conveys.source_closed.mono hgoes, fun hend => (h.ended hend).imp_right
      (Or.imp_right fun ⟨_, hr, hc⟩ => ⟨rfl, hr, hgoes hc⟩), h.sane, h.barren⟩

/-- The process at the sink goes on. -/
theorem sink (h : Link denote r p q o i) (ht : Takes q i q' i') : Link denote r p q' o i' := by
  have hbarren : Machine.isReadSize r.chunk = false → r.pending = [] ∧ i'.received = [] := by
    rw [ht.drawn.received]
    exact h.barren
  cases ht with
  | keeps hintake => exact ⟨h.conveys, fun hend => h.ended (hintake ▸ hend), h.sane, hbarren⟩
  | gets hs hintake =>
    refine ⟨h.conveys.sink_shrank hs, fun hend => ?_, h.sane, hbarren⟩
    -- what has been got is not the end, so if there is one it was met before
    rw [hintake] at hend
    rcases List.mem_cons.1 hend with hnow | hend
    · cases hnow
    · refine (h.ended hend).imp_right (Or.imp_right ?_)
      rintro ⟨hw, hr, hc⟩
      exact ⟨hw, hs.received.trans hr, hc⟩
  | ends hbuffer hclosed hopen hintake =>
    exact ⟨h.conveys, fun _ => h.whole_of_conveys hclosed hopen, h.sane, hbarren⟩
  | quits hintake =>
    exact ⟨h.conveys.sink_closed, fun hend => h.ended (hintake ▸ hend), h.sane, hbarren⟩

/-- The relay itself goes on. -/
theorem turned (h : Link denote r p q o i) (hd : r.done = false) (ho : o.Drawn o')
    (hc : Conveys r' o' i' (Complete denote p o))
    (hsane : Machine.isReadSize r'.chunk = true → r'.fault = none ∧ r'.death = none)
    (hbarren : Machine.isReadSize r'.chunk = false → r'.pending = [] ∧ i'.received = []) :
    Link denote r' p q o' i' := by
  refine ⟨hc.mono fun hcomplete => ?_, fun hend => ?_, hsane, hbarren⟩
  · rw [Complete, ho.received]
    exact hcomplete
  · rw [(h.ended hend).1] at hd
    cases hd

end Link

/-! ### Steps of relays -/

/-- What of a relay stays the same as long as it lives. -/
structure Ends where
  source : Nat
  sink : Option Nat
  chunk : Int

/-- What of a relay stays the same as long as it lives. -/
def RelayTask.ends (r : RelayTask) : Ends := ⟨r.source, r.sink, r.chunk⟩

/-- The pipe is one of the relay's. -/
def RelayTask.Touches (r : RelayTask) (i : Nat) : Prop := i = r.source ∨ r.sink = some i

namespace Machine

variable {m m₁ : Machine S} {j : Nat}

/-- A relay has gone on, and nothing else has changed but its pipes. -/
def RelayOf (j : Nat) (r : RelayTask) (m m₁ : Machine S) : Prop :=
  Kept (fun _ => False) (· = j) r.Touches m m₁ ∧
    ∃ r', m₁.relays[j]? = some r' ∧ r'.ends = r.ends

namespace RelayOf

theorem refl (hr : m.relays[j]? = some r) : RelayOf j r m m := ⟨.refl m, r, hr, rfl⟩

theorem modifyPipe (h : RelayOf j r m m₁) {s : Nat} (hs : r.Touches s) (f : Pipe → Pipe) :
    RelayOf j r m (m₁.modifyPipe s f) := ⟨h.1.modifyPipe hs f, h.2⟩

theorem modifyRelay (h : RelayOf j r m m₁) {f : RelayTask → RelayTask}
    (hf : ∀ r', (f r').ends = r'.ends) : RelayOf j r m (m₁.modifyRelay j f) := by
  obtain ⟨hkept, r', hr', hends⟩ := h
  exact ⟨hkept.modifyRelay rfl f, f r', Machine.relays_modifyRelay_self hr' f, (hf r').trans hends⟩

theorem log (h : RelayOf j r m m₁) (record : Record) : RelayOf j r m (m₁.log record) := by
  have hnet := log_net m₁ record
  obtain ⟨hkept, r', hr', hends⟩ := h
  exact ⟨hkept.trans (.of_net hnet), r', (congrArg (·.relays[j]?) hnet).trans hr', hends⟩

end RelayOf

theorem endRelay_relayOf (hr : m.relays[j]? = some r) (fault : Option Fault) :
    RelayOf j r m (m.endRelay j r fault) := by
  refine RelayOf.modifyRelay (.modifyPipe ?_ (.inl rfl) _) fun _ => rfl
  cases hs : r.sink with
  | none => exact .refl hr
  | some s => exact (RelayOf.refl hr).modifyPipe (.inr hs) _

theorem finishRelay_relayOf (hr : m.relays[j]? = some r) (fault : Option Fault) :
    RelayOf j r m (m.finishRelay j r fault) :=
  (endRelay_relayOf hr fault).log _

theorem failRelay_relayOf (hr : m.relays[j]? = some r) (f : Fault) :
    RelayOf j r m (m.failRelay j r f) := by
  unfold failRelay
  split
  · exact finishRelay_relayOf hr none
  · split
    · exact finishRelay_relayOf hr (some f)
    · exact (endRelay_relayOf hr none).modifyRelay fun _ => rfl

/-- **Frame.** A step of a relay touches but that relay and its pipes. -/
theorem stepRelay_relayOf (h : m.stepRelay j = some m₁) :
    ∃ r, m.relays[j]? = some r ∧ r.done = false ∧ RelayOf j r m m₁ := by
  unfold stepRelay at h
  cases hr : m.relays[j]? with
  | none => simp [hr] at h
  | some r =>
    simp only [hr, Bind.bind, Option.bind] at h
    cases hd : r.done with
    | true => simp [hd] at h
    | false =>
      refine ⟨r, rfl, hd, ?_⟩
      simp only [hd, Bool.false_eq_true, if_false] at h
      split at h
      · cases h
        exact finishRelay_relayOf hr none
      · rename_i s hs
        split at h
        · unfold pullRelay at h
          split at h
          · cases h
            exact failRelay_relayOf hr _
          · split at h
            · cases h
              exact finishRelay_relayOf hr none
            · cases h
              exact finishRelay_relayOf hr none
            · cases h
              exact failRelay_relayOf hr _
            · split at h <;> cases h
              exact finishRelay_relayOf hr none
            · split at h <;> cases h
              · exact finishRelay_relayOf hr none
              · exact ((RelayOf.refl hr).modifyPipe (.inl rfl) _).modifyRelay fun _ => rfl
        · unfold pushRelay at h
          split at h <;> cases h
          · exact failRelay_relayOf hr _
          · exact failRelay_relayOf hr _
          · exact failRelay_relayOf hr _
          · exact ((RelayOf.refl hr).modifyPipe (.inr hs) _).modifyRelay fun _ => rfl

/-- A relay asks for some bytes, unless it is told to ask for none. -/
theorem chunkLimit_ne_zero {chunk : Int} (h : chunk ≠ 0) : chunkLimit chunk ≠ some 0 := by
  unfold chunkLimit
  split
  · nofun
  · intro h0
    have := Option.some.inj h0
    omega

/-! What becomes of the pipes of a relay. -/

/-- A relay has ended, and closed its pipes at its ends. -/
structure Over (j : Nat) (r r' : RelayTask) (m m₁ : Machine S) : Prop where
  relay : m₁.relays[j]? = some r'
  done : r'.done = true
  pipes : m₁.pipes = (m.endRelay j r none).pipes
  chunk : r'.chunk = r.chunk
  pending : r'.pending = r.pending

theorem endRelay_relays (hr : m.relays[j]? = some r) (fault : Option Fault) :
    (m.endRelay j r fault).relays[j]? = some { r with fault, done := true } := by
  refine relays_modifyRelay_self (m := Machine.modifyPipe _ r.source Pipe.closeReader) ?_ _
  cases r.sink <;> exact hr

theorem finishRelay_over (hr : m.relays[j]? = some r) (fault : Option Fault) :
    Over j r { r with fault, done := true } m (m.finishRelay j r fault) := by
  have hnet := log_net (m.endRelay j r fault)
    ⟨.debug, .execution, "relay finished after " ++ toString r.copied ++ " bytes"⟩
  exact ⟨(congrArg (·.relays[j]?) hnet).trans (endRelay_relays hr fault), rfl,
    congrArg (·.pipes) hnet, rfl, rfl⟩

/-- A relay that meets a fault ends. Only that its sink takes no more is no fault of it. -/
theorem failRelay_over (hr : m.relays[j]? = some r) (f : Fault) :
    ∃ r', Over j r r' m (m.failRelay j r f) ∧ (f.isBrokenPipe = false → r'.Faulty) ∧
      (f.isBrokenPipe = true → r'.fault = none ∧ r'.death = r.death) := by
  unfold failRelay
  cases hbroken : f.isBrokenPipe with
  | true => exact ⟨_, finishRelay_over hr none, nofun, fun _ => ⟨rfl, rfl⟩⟩
  | false =>
    rw [if_neg Bool.false_ne_true]
    split
    · exact ⟨_, finishRelay_over hr (some f), fun _ => ⟨rfl, .inl nofun⟩, nofun⟩
    · exact ⟨_, ⟨relays_modifyRelay_self (endRelay_relays hr none) _, rfl, rfl, rfl, rfl⟩,
        fun _ => ⟨rfl, .inr nofun⟩, nofun⟩

theorem Over.source (h : Over j r r' m m₁) (ho : m.pipes[r.source]? = some o)
    (hne : r.sink ≠ some r.source) : m₁.pipes[r.source]? = some o.closeReader := by
  rw [h.pipes]
  refine pipes_modifyPipe_self ?_ _
  cases hs : r.sink with
  | none => exact ho
  | some s => exact (pipes_modifyPipe_ne (fun heq => hne (hs.trans (congrArg some heq))) _).trans ho

theorem Over.sink {s : Nat} (h : Over j r r' m m₁) (hs : r.sink = some s) (hne : s ≠ r.source)
    (hi : m.pipes[s]? = some i) : m₁.pipes[s]? = some i.closeWriter := by
  rw [h.pipes]
  simp only [endRelay, hs]
  exact (pipes_modifyPipe_ne (Ne.symm hne) _).trans (pipes_modifyPipe_self hi _)

/-- What comes of a step of a relay, and of its pipes. -/
def Turned (denote : List String → Flow → Flow) (j : Nat) (r : RelayTask) (s : Nat)
    (p q : Process S) (o i : Pipe) (m₁ : Machine S) : Prop :=
  ∃ r' o' i', m₁.relays[j]? = some r' ∧ m₁.pipes[r.source]? = some o' ∧
    m₁.pipes[s]? = some i' ∧ o.Drawn o' ∧ i.Fed i' ∧ Link denote r' p q o' i'

section

variable {s : Nat} (hr : m.relays[j]? = some r) (hs : r.sink = some s) (hne : s ≠ r.source)
  (ho : m.pipes[r.source]? = some o) (hi : m.pipes[s]? = some i)
  (hlink : Link denote r p q o i) (hd : r.done = false)

include hs hne ho hi hlink hd

/-- A relay ends with a fault, or with its sink broken, or when there is nothing left. -/
theorem Over.turned (h : Over j r r' m m₁) (hwhy : r'.Faulty ∨ i.readerOpen = false ∨
    (r.pending = [] ∧ o.buffer = [] ∧ o.writerOpen = false ∧ Complete denote p o))
    (hsane : isReadSize r.chunk = true → r'.fault = none ∧ r'.death = none) :
    Turned denote j r s p q o i m₁ := by
  have hsource : r.sink ≠ some r.source := by
    rw [hs]
    exact fun heq => hne (Option.some.inj heq)
  refine ⟨r', _, _, h.relay, h.source ho hsource, h.sink hs hne hi, .closed o, .closed i,
    hlink.turned hd (.closed o) (hlink.conveys.finished hd h.done hwhy) ?_ ?_⟩
  · rw [h.chunk]
    exact hsane
  · rw [h.chunk, h.pending]
    exact hlink.barren

include hr

theorem pullRelay_turned (hchunk : 1 ≤ r.chunk) (hending : o.ending = none)
    (hcomplete : o.writerOpen = false → o.readerOpen = true → Complete denote p o)
    (hpending : r.pending = []) (h : m.pullRelay j r = some m₁) :
    Turned denote j r s p q o i m₁ := by
  -- a relay asks for a byte at least, so that no bytes mean the end
  have hlimit : chunkLimit r.chunk ≠ some 0 := chunkLimit_ne_zero (by omega)
  unfold pullRelay at h
  cases hsize : isReadSize r.chunk with
  | false =>
    rw [hsize] at h
    cases h
    obtain ⟨r', hover, hfaulty, -⟩ := failRelay_over hr
      (.outOfRange "cannot fit 'int' into an index-sized integer")
    refine hover.turned hs hne ho hi hlink hd (.inl (hfaulty rfl)) fun hsane => ?_
    rw [hsize] at hsane
    cases hsane
  | true =>
    rw [hsize] at h
    have hsane := hlink.sane hsize
    -- at the end of the source all of it has gone on
    have hend : ∀ fault, o.read (chunkLimit r.chunk) = .ended fault →
        r.pending = [] ∧ o.buffer = [] ∧ o.writerOpen = false ∧ Complete denote p o := by
      intro fault hread
      obtain ⟨hbuffer, hclosed, -⟩ := Pipe.ended_of_read hread
      exact ⟨hpending, hbuffer, hclosed, hcomplete hclosed (hlink.conveys.flowing hd).2.1⟩
    simp only [ho, Option.map_some, Bool.not_true, Bool.false_eq_true, if_false] at h
    cases hread : o.read (chunkLimit r.chunk) with
    | blocked =>
      simp only [hread] at h
      split at h
      · omega
      · cases h
    | ended fault =>
      cases fault with
      | none =>
        simp only [hread, Option.some.injEq] at h
        rw [← h]
        exact (finishRelay_over hr none).turned hs hne ho hi hlink hd (.inr (.inr (hend _ hread)))
          fun _ => ⟨rfl, hsane.2⟩
      | some f =>
        have hfault := (Pipe.ended_of_read hread).2.2
        rw [hending] at hfault
        cases hfault
    | gave bytes o' =>
      have hshrank := Pipe.shrank_of_read hread
      have hnonempty := Pipe.ne_nil_of_read hread hlimit
      simp only [hread, List.isEmpty_eq_false_iff.2 hnonempty, Bool.false_eq_true, if_false,
        Option.some.injEq] at h
      rw [← h]
      exact ⟨_, o', i, relays_modifyRelay_self hr _, pipes_modifyPipe_self ho _,
        (pipes_modifyPipe_ne (Ne.symm hne) _).trans hi, .read hshrank, .same i,
        hlink.turned hd (.read hshrank) (hlink.conveys.pulled hd hpending hshrank)
          (fun _ => hsane) fun hbad => Bool.noConfusion (hsize.symm.trans hbad)⟩

theorem pushRelay_turned (hquota : i.quota = none) (h : m.pushRelay j r s = some m₁) :
    Turned denote j r s p q o i m₁ := by
  simp only [pushRelay, hi, Option.map_some] at h
  cases hwrite : i.write r.pending with
  | blocked => simp [hwrite] at h
  | broken =>
    simp only [hwrite, Option.some.injEq] at h
    rw [← h]
    obtain ⟨r', hover, -, hspared⟩ := failRelay_over hr .brokenPipe
    obtain ⟨hfault, hdeath⟩ := hspared rfl
    exact hover.turned hs hne ho hi hlink hd (.inr (.inl (Pipe.readerOpen_of_broken hwrite)))
      fun hsize => ⟨hfault, hdeath.trans (hlink.sane hsize).2⟩
  | refused f => exact absurd hwrite (Pipe.write_ne_refused hquota f)
  | took count i' =>
    simp only [hwrite, Option.some.injEq] at h
    rw [← h]
    obtain ⟨hgrew, -⟩ := Pipe.grew_of_write hwrite
    refine ⟨_, o, i', relays_modifyRelay_self hr _, (pipes_modifyPipe_ne hne _).trans ho,
      pipes_modifyPipe_self hi _, .same o, .wrote (hlink.conveys.flowing hd).1 hgrew,
      hlink.turned hd (.same o) (hlink.conveys.pushed hd hgrew) hlink.sane fun hsize => ?_⟩
    -- who holds nothing hands nothing on
    obtain ⟨hpending, hempty⟩ := hlink.barren hsize
    show r.pending.drop count = [] ∧ i'.received = []
    rw [hgrew.received, hempty, hpending, List.drop_nil, List.take_nil]
    exact ⟨rfl, rfl⟩

end

/-- **A step of a relay.** A relay between two processes keeps linking them. -/
theorem stepRelay_turned {s : Nat} (hr : m.relays[j]? = some r) (hs : r.sink = some s)
    (hne : s ≠ r.source) (hchunk : 1 ≤ r.chunk) (ho : m.pipes[r.source]? = some o)
    (hi : m.pipes[s]? = some i) (hending : o.ending = none) (hquota : i.quota = none)
    (hlink : Link denote r p q o i)
    (hcomplete : o.writerOpen = false → o.readerOpen = true → Complete denote p o)
    (h : m.stepRelay j = some m₁) : Turned denote j r s p q o i m₁ := by
  simp only [stepRelay, hr, Bind.bind, Option.bind, hs] at h
  cases hd : r.done with
  | true => simp [hd] at h
  | false =>
    simp only [hd, Bool.false_eq_true, if_false] at h
    split at h
    · rename_i hpending
      exact pullRelay_turned hr hs hne ho hi hlink hd hchunk hending hcomplete
        (List.isEmpty_iff.1 hpending) h
    · exact pushRelay_turned hr hs hne ho hi hlink hd hquota h

/-- A relay to nowhere closes its source. -/
theorem stepRelay_source (hr : m.relays[j]? = some r) (hs : r.sink = none)
    (ho : m.pipes[r.source]? = some o) (h : m.stepRelay j = some m₁) :
    ∃ o', m₁.pipes[r.source]? = some o' ∧ o.Drawn o' := by
  simp only [stepRelay, hr, Bind.bind, Option.bind, hs] at h
  split at h
  · cases h
  · cases h
    exact ⟨_, (finishRelay_over hr none).source ho (by rw [hs]; nofun), .closed o⟩

end Machine

end LineShell.Host
