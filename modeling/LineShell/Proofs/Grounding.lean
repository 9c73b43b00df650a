import LineShell.Proofs.Plays

namespace LineShell.Host

open Text (Bytes)

/-!
# Machines on which pipelines can be started

* `Machine.Grounded` — nobody on a machine has pipes that are not there;
* `Machine.Grounded.sound` — before a pipeline is started, nothing can be wrong with it;
* `Machine.Grounded.of_plays` — whatever the interpreter asks and whoever moves, a machine stays
  grounded.
-/

variable {S : Type} {ps : Programs S} {m m₁ m' : Machine S} {es : Trace}

namespace Machine

/-- Nobody on a machine has pipes that are not there, and numbers of processes are not used again. -/
structure Grounded (m : Machine S) : Prop where
  inherited : ∀ j, m.inherited.1 = .pipe j ∨ m.inherited.2.1 = .pipe j ∨ m.inherited.2.2 = .pipe j →
    j < m.pipes.size
  process : ∀ {k : Nat} {p : Process S}, m.processes[k]? = some p →
    p.pid < m.nextPid ∧ p.Foreign m.pipes.size
  relay : ∀ {n : Nat} {r : RelayTask}, m.relays[n]? = some r →
    r.source < m.pipes.size ∧ ∀ s, r.sink = some s → s < m.pipes.size

theorem grounded_empty : ({} : Machine S).Grounded where
  inherited j h := by rcases h with h | h | h <;> cases h
  process h := by simp at h
  relay h := by simp at h

namespace Grounded

/-- Before a pipeline is started there is nothing that could go wrong with it. -/
theorem sound (h : m.Grounded) (ps : Programs S) (denote : List String → Flow → Flow) :
    Sound ps denote m.pipes.size (fun _ => []) m := by
  have howns : ∀ {k : Nat} {who : Identity}, m.layout.processes[k]? = some who →
      who.pid < m.nextPid ∧ ∀ j, who.Owns j → j < m.pipes.size := by
    intro k who hwho
    obtain ⟨p, hp, rfl⟩ := Machine.of_layout_process hwho
    obtain ⟨hpid, hforeign⟩ := h.process hp
    exact ⟨hpid, fun j hj => hforeign j (.inl hj)⟩
  have hends : ∀ {n : Nat} {e : Ends}, m.layout.relays[n]? = some e →
      e.source < m.pipes.size ∧ ∀ s, e.sink = some s → s < m.pipes.size := by
    intro n e he
    obtain ⟨r, hr, rfl⟩ := Machine.of_layout_relay he
    exact h.relay hr
  -- no pipe is there from the size on, so nobody can have one
  have hno : ∀ {j : Nat}, j < m.pipes.size → m.pipes.size ≤ j → False := by
    intro j hj hle
    omega
  constructor
  · exact {
      base_le := Nat.le_refl _
      inherited := fun j hj => h.inherited j (hj.imp_right .inr)
      pid_lt := fun hwho => (howns hwho).1
      pid_inj := fun hwho _ _ j hj hbase => (hno ((howns hwho).2 j (.inr hj)) hbase).elim
      own_lt := fun hwho => (howns hwho).2
      own_inj := fun hwho _ j hbase hj _ => (hno ((howns hwho).2 j hj) hbase).elim
      relays := fun he => .inl (hends he)
      source_inj := fun he _ hbase _ => (hno (hends he).1 hbase).elim
      sink_inj := fun he _ s hbase hs _ => (hno ((hends he).2 s hs) hbase).elim }
  · exact fun hp => .inl (h.process hp).2
  · exact fun hr hbase _ _ _ _ _ _ _ => (hno (h.relay hr).1 hbase).elim
  · exact fun hp hj hbase _ _ => (hno ((h.process hp).2 _ (.inl (.inl hj))) hbase).elim
  · exact fun hp hj hbase _ _ => (hno ((h.process hp).2 _ (.inl (.inr hj))) hbase).elim

/-! ### Whatever happens -/

/-- Where nobody has come, nobody has got pipes that he did not have. -/
theorem of_later (h : m.Grounded) (hlater : Later m m₁) : m₁.Grounded := by
  have hsize : m₁.pipes.size = m.pipes.size := congrArg Layout.room hlater.layout
  have hpid : m₁.nextPid = m.nextPid := congrArg Layout.nextPid hlater.layout
  constructor
  · intro j hj
    have hinherited : m₁.inherited = m.inherited := congrArg Layout.inherited hlater.layout
    rw [hinherited] at hj
    rw [hsize]
    exact h.inherited j hj
  · intro k q hq
    have hwho : m.layout.processes[k]? = some q.identity := hlater.layout ▸ layout_process hq
    obtain ⟨p, hp, -⟩ := of_layout_process hwho
    obtain ⟨q', hq', hgoes⟩ := hlater.process hp
    cases hq.symm.trans hq'
    obtain ⟨hlt, hforeign⟩ := h.process hp
    have hpid' : q.pid = p.pid := congrArg Identity.pid hgoes.identity
    rw [hpid, hpid', hsize]
    exact ⟨hlt, hforeign.goes hgoes⟩
  · intro n r hr
    have hends : m.layout.relays[n]? = some r.ends := hlater.layout ▸ layout_relay hr
    obtain ⟨r', hr', heq⟩ := of_layout_relay hends
    have hrelay := h.relay hr'
    have hsource : r'.source = r.source := congrArg Ends.source heq
    have hsink : r'.sink = r.sink := congrArg Ends.sink heq
    rw [hsource, hsink] at hrelay
    rw [hsize]
    exact hrelay

theorem of_net (h : m.Grounded) (hnet : m₁.net = m.net) : m₁.Grounded := h.of_later (.of_net hnet)

/-- A process finds only pipes that are there. -/
theorem lt_of_process? (h : m.Grounded) {pid : ProcessId} {p : Process S}
    (hp : m.process? pid = some p) {j : Nat} (hj : p.identity.Owns j) : j < m.pipes.size := by
  obtain ⟨k, -, hk⟩ := Option.bind_eq_some_iff.1 hp
  exact (h.process hk).2 j (.inl hj)

/-- A relay more, between pipes of two processes. -/
theorem addRelay (h : m.Grounded) (writer : ProcessId) (reader : Option ProcessId) (chunk : Int) :
    (m.addRelay writer reader chunk).2.Grounded := by
  unfold Machine.addRelay
  split
  · exact h
  · rename_i source hsource
    refine ⟨h.inherited, h.process, fun {n r} hr => ?_⟩
    rcases getElem?_push_cases hr with hold | ⟨-, rfl⟩
    · exact h.relay hold
    · obtain ⟨p, hp, hout⟩ := Option.bind_eq_some_iff.1 hsource
      refine ⟨h.lt_of_process? hp (.inr hout), fun s hs => ?_⟩
      obtain ⟨pid, -, hs⟩ := Option.bind_eq_some_iff.1 hs
      obtain ⟨q, hq, hin⟩ := Option.bind_eq_some_iff.1 hs
      exact h.lt_of_process? hq (.inl hin)

/-- One pipe more, perhaps. -/
theorem addPipe (h : m.Grounded) (stream : Stream) (pipe : Pipe) :
    (m.addPipe stream pipe).2.Grounded ∧
      m.pipes.size ≤ (m.addPipe stream pipe).2.pipes.size ∧
      ∀ j, (m.addPipe stream pipe).1 = some j → j < (m.addPipe stream pipe).2.pipes.size := by
  unfold Machine.addPipe
  split
  · have hlt : m.pipes.size < (m.pipes.push pipe).size := by
      rw [Array.size_push]
      exact Nat.lt_succ_self _
    refine ⟨⟨fun j hj => ?_, fun hp => ?_, fun hr => ?_⟩, Nat.le_of_lt hlt, ?_⟩
    · exact Nat.lt_trans (h.inherited j hj) hlt
    · exact ⟨(h.process hp).1, fun j hj => Nat.lt_trans ((h.process hp).2 j hj) hlt⟩
    · obtain ⟨hsource, hsink⟩ := h.relay hr
      exact ⟨Nat.lt_trans hsource hlt, fun s hs => Nat.lt_trans (hsink s hs) hlt⟩
    · rintro j ⟨⟩
      exact hlt
  · exact ⟨h, Nat.le_refl _, nofun⟩

theorem eq_of_channel (m : Machine S) {stream : Stream} {c : Channel} {pipe : Option Nat} {j : Nat}
    (h : m.channel stream c pipe = .pipe j) : c = .pipe j ∨ pipe = some j := by
  unfold Machine.channel at h
  split at h
  · exact .inr (congrArg some (Channel.pipe.inj h))
  · split at h <;> cases h
  · exact .inl h
  · cases h

/-- One process more, whose pipes are there. -/
theorem pushProcess (h : m.Grounded) {p : Process S} (hpid : p.pid = m.nextPid)
    (hforeign : p.Foreign m.pipes.size) : Grounded { m with
      nextPid := m.nextPid + 1, processes := m.processes.push p } := by
  refine ⟨h.inherited, fun {k q} hq => ?_, h.relay⟩
  rcases getElem?_push_cases hq with hold | ⟨-, rfl⟩
  · exact ⟨Int.lt_trans (h.process hold).1 (Int.lt_succ _), (h.process hold).2⟩
  · exact ⟨hpid ▸ Int.lt_succ _, hforeign⟩

/-- A process is started. Its pipes are new, or those that all processes inherit. -/
theorem addProcess (h : m.Grounded) (argv : List String) (cwd : Path) (streams : Streams)
    (launch : Launch S) : (m.addProcess argv cwd streams launch).2.Grounded := by
  obtain ⟨h₁, -, hin⟩ := h.addPipe streams.stdin launch.input
  obtain ⟨h₂, hle, hout⟩ := h₁.addPipe streams.stdout launch.output
  refine h₂.pushProcess rfl ?_
  have hin : ∀ j, _ = some j → j < _ := fun j hj => Nat.lt_of_lt_of_le (hin j hj) hle
  rintro j ((hj | hj) | ⟨fd, hfd⟩)
  · exact hin j hj
  · exact hout j hj
  · simp only [List.mem_cons, Prod.mk.injEq, List.not_mem_nil, or_false] at hfd
    rcases hfd with ⟨-, hfd⟩ | ⟨-, hfd⟩ | ⟨-, hfd⟩
    · exact (eq_of_channel _ hfd.symm).elim (fun hc => h₂.inherited j (.inl hc)) (hin j)
    · exact (eq_of_channel _ hfd.symm).elim (fun hc => h₂.inherited j (.inr (.inl hc))) (hout j)
    · exact (eq_of_channel _ hfd.symm).elim (fun hc => h₂.inherited j (.inr (.inr hc))) nofun

/-- Whatever comes of a request. -/
theorem of_answer (h : m.Grounded) (host : Host S)
    (hquiet : ∀ s pid number next, host.programs.next s ≠ .signal pid number next) (r : Request) :
    (host.answer r m).2.Grounded := by
  cases hstart : r.isStart with
  | false => exact h.of_later (.of_answer host hquiet hstart m)
  | true =>
    cases r with
    | spawn argv cwd streams =>
      rcases host.answer_spawn (m := m) rfl with ⟨f, -, hnet⟩ | ⟨launch, -, heq⟩
      · exact h.of_net hnet
      · have hmachine := congrArg Prod.snd heq
        exact hmachine ▸ h.addProcess argv cwd streams launch
    | startRelay writer reader chunk => exact h.addRelay writer reader chunk
    | _ => cases hstart

/-- **A machine stays grounded**, whatever the interpreter asks of it and whoever moves. -/
theorem of_plays (h : m.Grounded)
    (hquiet : ∀ s pid number next, ps.next s ≠ .signal pid number next)
    (hplays : Plays ps m es m') : m'.Grounded := by
  induction es generalizing m with
  | nil => exact h.of_later (.of_moves hquiet hplays)
  | cons e es ih =>
    obtain ⟨m₁, m₂, host, hmoves, rfl, hanswer, hrest⟩ := hplays
    have h₁ := h.of_later (.of_moves hquiet hmoves)
    have h₂ := h₁.of_answer host hquiet e.request
    rw [hanswer] at h₂
    exact ih h₂ hrest

end Grounded

end Machine

end LineShell.Host
