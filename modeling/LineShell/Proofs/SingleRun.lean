import LineShell.Proofs.FileUse
import LineShell.Proofs.Waited

namespace LineShell

/-!
# Single commands that are waited for

What a line of one command asks a host for once its files are open.

* `Shell.Attended` — its process is started, its files are closed, and the process is waited for;
* `Shell.attempt_attends` — on a host it is so, whenever the run returns.
-/

variable {σ : Type} {s s' : Session}

namespace Request

/-- Whether a request says something or closes a file. -/
def isTidying : Request → Bool
  | .log _ | .report _ | .relayFault _ | .closeFile _ => true
  | _ => false

theorem isTidying_of_isClose {r : Request} (h : r.isClose = true) : r.isTidying = true := by
  cases r <;> first | rfl | cases h

theorem isTidying_of_isSaying {r : Request} (h : r.isSaying = true) : r.isTidying = true := by
  cases r <;> first | rfl | cases h

theorem isAside_of_isTidying {r : Request} (h : r.isTidying = true) : r.isAside = true := by
  cases r <;> first | rfl | cases h

end Request

theorem Trace.aside_of_isTidying {es : Trace} (h : es.Only Request.isTidying) : es.Aside :=
  h.mono fun _ => Request.isAside_of_isTidying

/-- What holds of a run that goes on where others have left a trace. -/
theorem Ensures.run_after {α : Type} {k : Kernel σ} {x : Shell (σ × Trace) α} {Q : Post α}
    (h : Ensures k x s Q) {out out' : σ} {t es : Trace} {o : Outcome α}
    (hrun : x k.traced ⟨s, (out, t)⟩ = (o, ⟨s', (out', es)⟩)) :
    ∃ es', es = t ++ es' ∧ k.Follows out es' out' ∧ Q o s' es' := by
  obtain ⟨o₁, s₁, out₁, es₁, h₁, hf, hq⟩ := h out t
  cases h₁.symm.trans hrun
  exact ⟨es₁, rfl, hf, hq⟩

namespace Shell

variable {line : CommandLine} {plan : Plan} {ids : List FileId} {before rest : Trace}
  {out : Outcome ProcessId}

/-! ### Before and after -/

/-- The attempt to start the process of a line of one command. -/
def attemptOf (s : Session) (plan : Plan) (out : Outcome ProcessId) : Event :=
  ⟨.spawn (Platform.direct.arguments plan.command.argv) s.cwd (stageStreams false .none plan true), out⟩

/-- A process that was started is waited for. -/
def Answered : Outcome ProcessId → Trace → Prop
  | .returned pid, rest => ∃ closed code, ∃ said : Trace,
      rest = closed ++ ⟨.wait pid, .returned code⟩ :: said ∧
        closed.Only Request.isTidying ∧ said.Only Request.isTidying
  | _, rest => rest.Only Request.isTidying

/-- What is asked for around the attempt to start the process of a foreground line of one command. -/
structure Attended (ids : List FileId) (before : Trace) (out : Outcome ProcessId) (rest : Trace) :
    Prop where
  before : before.Only Request.isTidying
  answered : Answered out rest
  closed : ∀ id ∈ ids, rest.any (·.request.closes id) = true

/-- What comes after the files have been closed. -/
theorem afterStart_answers {k : Kernel σ} (hfg : line.background = false)
    (started : Except Fault (Option ProcessId)) : Ensures k (afterStart line started) s fun o _ es =>
      ∀ r, o = .returned r → es.Calm → match started with
        | .ok (some pid) => ∃ code, ∃ said : Trace, es = ⟨.wait pid, .returned code⟩ :: said ∧
            said.Only Request.isTidying
        | _ => es.Only Request.isTidying := by
  rcases started with f | _ | pid
  · have hrest : Asks k Request.isTidying (afterStart line (.error f)) := by
      simp only [afterStart]
      split
      · exact (Asks.ask rfl).bind fun _ => .pure _
      · exact .raise f
    exact (hrest s).mono fun _ _ _ h _ _ _ => h.2
  · exact .pure fun _ _ _ => Trace.only_nil _
  · have hblocks : line.blocks = true := by simp [CommandLine.blocks, hfg]
    simp only [afterStart, hblocks, if_true]
    refine (awaitSingle_awaits line.first pid).mono fun o s' es h r ho hcalm => ?_
    obtain ⟨code, said, rfl, hsaid⟩ := h r ho hcalm
    exact ⟨code, said, rfl, hsaid.mono fun _ => Request.isTidying_of_isSaying⟩

namespace Attended

/-- What has been started, if anything. -/
theorem spawns (h : Attended ids before out rest) :
    (before ++ attemptOf s plan out :: rest).spawns = (attemptOf s plan out).spawned?.toList := by
  have hrest : rest.spawns = [] := by
    cases out with
    | returned pid =>
      obtain ⟨closed, code, said, rfl, hclosed, hsaid⟩ := h.answered
      have hwait : Trace.Only (fun r => !r.isSpawn) (⟨.wait pid, .returned code⟩ :: said) :=
        Trace.only_cons.2 ⟨rfl, hsaid.mono fun r hr => by cases r <;> first | rfl | cases hr⟩
      rw [Trace.spawns_append, Trace.spawns_of_aside (Trace.aside_of_isTidying hclosed)]
      exact Trace.spawns_of_no_spawn hwait
    | _ => exact Trace.spawns_of_aside (Trace.aside_of_isTidying h.answered)
  rw [Trace.spawns_append, Trace.spawns_of_aside (Trace.aside_of_isTidying h.before)]
  cases out with
  | returned pid => exact congrArg (some pid :: ·) hrest
  | raised f => exact congrArg (none :: ·) hrest
  | never => exact hrest

end Attended

end Shell

namespace Host

open Shell

variable {S : Type} {m m₁ m' : Machine S} {ids : List FileId} {line : CommandLine} {s : Session}

theorem Machine.Unwritten.of_handles (h : m.Unwritten ids) (hhandles : m₁.handles = m.handles) :
    m₁.Unwritten ids := by
  unfold Machine.Unwritten
  rw [hhandles]
  exact h

/-- On a host an attempt to start a process comes to an end, and no file is written meanwhile. -/
theorem start_runs (h : Host S) (hm : m.Unwritten ids) (command : Command) (streams : Streams) :
    ∃ o out m' before said, RunsTo h.kernel (start command streams) s m o m'
        (before ++ ⟨.spawn (Platform.direct.arguments command.argv) s.cwd streams, out⟩ :: said) ∧
      Trace.Only Request.isTidying before ∧ Trace.Only Request.isTidying said ∧ m'.Unwritten ids ∧
        ((∃ pid, out = .returned pid ∧ o = .returned (some pid)) ∨
          ∃ f, out = .raised f ∧ (o = .returned none ∨ o = .raised f)) := by
  -- what is said is said whatever becomes of it, and no file is concerned
  have hlog : ∀ (m : Machine S) text, RunsTo h.kernel (debug .execution text) s m (.returned ())
      (m.log ⟨.debug, .execution, text⟩) _ := fun m text => .ask rfl
  have hreport : ∀ (m : Machine S) text, RunsTo h.kernel (report text) s m (.returned ())
      (m.writeErr (Text.encode (text ++ "\n"))) _ := fun m text => .ask rfl
  have htidy : ∀ r : Record, Trace.Only Request.isTidying [⟨.log r, .returned ()⟩] :=
    fun r => Trace.only_cons.2 ⟨rfl, Trace.only_nil _⟩
  have hlogged : ∀ {m : Machine S} r, m.Unwritten ids → (m.log r).Unwritten ids :=
    fun r hm => hm.of_handles (congrArg Disk.handles (Machine.disk_log _ r))
  have hbefore := hlog m ("spawn " ++ Text.quotedList (Platform.direct.arguments command.argv) ++
    " in " ++ s.cwd.toString)
  generalize hmid : m.log _ = m₁ at hbefore
  have hm₁ : m₁.Unwritten ids := hmid ▸ hlogged _ hm
  obtain ⟨out, m₂, hspawn⟩ : ∃ out m₂,
      h.spawn m₁ (Platform.direct.arguments command.argv) s.cwd streams = (out, m₂) := ⟨_, _, rfl⟩
  have hdisk := (disk_spawn h m₁ (Platform.direct.arguments command.argv) s.cwd streams).1
  rw [hspawn] at hdisk
  have hm₂ := hm₁.of_handles (congrArg Disk.handles hdisk)
  have hask : RunsTo h.kernel (Shell.spawn (Platform.direct.arguments command.argv) s.cwd streams) s m₁
      out m₂ [⟨.spawn (Platform.direct.arguments command.argv) s.cwd streams, out⟩] := .ask hspawn
  rcases h.answer_spawn hspawn with ⟨f, rfl, -⟩ | ⟨launch, -, heq⟩
  · cases hio : f.isIo with
    | true =>
      have hrun : RunsTo h.kernel (start command streams) s m (.returned none) _ _ :=
        .session_bind (hbefore.bind (hask.attempt_raised.bind (by
          simp only [hio, if_true]
          exact (hreport m₂ _).bind .pure)))
      exact ⟨_, _, _, _, _, hrun, htidy _, Trace.only_cons.2 ⟨rfl, Trace.only_nil _⟩,
        hm₂.of_handles rfl, .inr ⟨f, rfl, .inl rfl⟩⟩
    | false =>
      have hrun : RunsTo h.kernel (start command streams) s m (.raised f) _ _ :=
        .session_bind (hbefore.bind (hask.attempt_raised.bind (by
          simp only [hio, Bool.false_eq_true, if_false]
          exact .raise)))
      exact ⟨_, _, _, _, _, hrun, htidy _, Trace.only_nil _, hm₂, .inr ⟨f, rfl, .inr rfl⟩⟩
  · cases heq
    have hrun : RunsTo h.kernel (start command streams) s m (.returned (some _)) _ _ :=
      .session_bind (hbefore.bind (hask.attempt.bind ((hlog _ _).bind .pure)))
    exact ⟨_, _, _, _, _, hrun, htidy _, htidy _, hlogged _ hm₂, .inl ⟨_, rfl, rfl⟩⟩

/-- **A foreground line of one command** on a host, from the opening of its files on. -/
theorem attempt_attends (h : Host S) (hfg : line.background = false) {files : StageFiles}
    (hm : m.Unwritten files.ids) {t es : Trace} {r : Result} {s' : Session}
    (hrun : ((closing files.ids (start line.first
      (files.streams (line.wiring 0) false false))).attempt >>= afterStart line) h.kernel.traced
        ⟨s, (m, t)⟩ = (.returned r, ⟨s', (m', es)⟩))
    (hcalm : es.Calm) : ∃ before out rest,
      es = t ++ (before ++ attemptOf s ⟨line.first, line.wiring 0, files⟩ out :: rest) ∧
        Attended files.ids before out rest ∧
        h.kernel.Follows m
          (before ++ attemptOf s ⟨line.first, line.wiring 0, files⟩ out :: rest) m' := by
  obtain ⟨o, out, m₁, before, said, hstart, hbefore, hsaid, hm₁, hout⟩ :=
    start_runs (s := s) h hm line.first (files.streams (line.wiring 0) false false)
  obtain ⟨m₂, closed, hclose, -, -⟩ := closeAll_runs (s := s) h hm₁
  obtain ⟨-, honly, -⟩ := hclose.ensured (closeAll_ensures files.ids)
  have hcloses := hclose.ensured (closeAll_closes files.ids) none rfl
  -- what has been started is what there is to be waited for
  obtain ⟨started, hattempt, hstarted⟩ : ∃ started,
      RunsTo h.kernel (closing files.ids (start line.first
        (files.streams (line.wiring 0) false false))).attempt s m (.returned started) m₂
          (before ++ attemptOf s ⟨line.first, line.wiring 0, files⟩ out :: said ++ closed) ∧
        ((∃ pid, out = .returned pid ∧ started = .ok (some pid)) ∨
          ∃ f, out = .raised f ∧ ∀ pid, started ≠ .ok (some pid)) := by
    rcases hout with ⟨pid, rfl, rfl⟩ | ⟨f, rfl, rfl | rfl⟩
    · exact ⟨_, (hstart.closing nofun hclose).attempt, .inl ⟨pid, rfl, rfl⟩⟩
    · exact ⟨_, (hstart.closing nofun hclose).attempt, .inr ⟨f, rfl, nofun⟩⟩
    · exact ⟨_, (hstart.closing nofun hclose).attempt_raised, .inr ⟨f, rfl, nofun⟩⟩
  obtain ⟨es', rfl, hfollows, -⟩ := (runSingle_tries line files).run_after hrun
  rw [bind_run, hattempt t] at hrun
  obtain ⟨after, hes, -, hanswers⟩ := (afterStart_answers hfg started).run_after hrun
  rw [List.append_assoc, List.append_cancel_left_eq] at hes
  have hafter := hanswers r rfl (Trace.calm_append.1 (hes ▸ (Trace.calm_append.1 hcalm).2)).2
  have htidy : Trace.Only Request.isTidying (said ++ closed) :=
    Trace.only_append.2 ⟨hsaid, honly.mono fun _ => Request.isTidying_of_isClose⟩
  have hsplit : es' = before ++ attemptOf s ⟨line.first, line.wiring 0, files⟩ out ::
      (said ++ closed ++ after) := by
    rw [hes, List.append_assoc, List.append_assoc, List.append_assoc]
    rfl
  refine ⟨before, out, said ++ closed ++ after, congrArg (t ++ ·) hsplit,
    ⟨hbefore, ?_, fun id hid => ?_⟩, hsplit ▸ hfollows⟩
  · rcases hstarted with ⟨pid, rfl, rfl⟩ | ⟨f, rfl, hnone⟩
    · obtain ⟨code, told, rfl, htold⟩ := hafter
      exact ⟨_, code, told, rfl, htidy, htold⟩
    · refine Trace.only_append.2 ⟨htidy, ?_⟩
      rcases started with f | _ | pid
      · exact hafter
      · exact hafter
      · exact absurd rfl (hnone pid)
  · rw [List.any_append, List.any_append, hcloses id hid, Bool.or_true, Bool.true_or]

end Host

end LineShell
