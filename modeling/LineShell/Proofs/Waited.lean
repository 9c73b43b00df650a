import LineShell.Proofs.LastOutput

namespace LineShell.Host

/-!
# Processes that have been waited for

A wait that returns leaves a process with nothing open.

* `Machine.Unseen` — a process that the interpreter has not seen exit, and `Unseen.moves`: it stays so,
  whoever moves;
* `Unseen.waited` — waiting for such a process takes all its descriptors from it.
-/

variable {S : Type} {ps : Programs S} {m m₁ : Machine S} {p q : Process S} {k a : Nat}

namespace Machine

/-- The interpreter has not seen a process exit. -/
def Unseen (m : Machine S) (k : Nat) : Prop := ∃ p, m.processes[k]? = some p ∧ p.observed = none

namespace Unseen

theorem of_processes (h : m.Unseen k) (hprocesses : m₁.processes = m.processes) : m₁.Unseen k := by
  unfold Unseen
  rw [hprocesses]
  exact h

theorem step (h : m.Unseen k) (hquiet : ∀ s pid number next, ps.next s ≠ .signal pid number next)
    (hstep : m.stepActor ps a = some m₁) : m₁.Unseen k := by
  obtain ⟨p, hp, hunseen⟩ := h
  unfold stepActor at hstep
  split at hstep
  · obtain ⟨p', hp', hkept, q, hq, -⟩ := stepProcess_stepOf hquiet hstep
    by_cases ha : k = a
    · subst ha
      cases hp.symm.trans hp'
      refine ⟨q, hq, ?_⟩
      unfold stepProcess at hstep
      simp only [hp, Bind.bind, Option.bind] at hstep
      split at hstep
      · exact (act_leads (hquiet _) hp hstep hq).2.trans hunseen
      · split at hstep
        · cases hstep
          rw [of_modifyProcess hp hq]
          exact hunseen
        · cases hstep
      · cases hstep
    · exact ⟨p, (hkept.process k ha).trans hp, hunseen⟩
  · obtain ⟨r, -, -, hkept, -⟩ := stepRelay_relayOf hstep
    exact ⟨p, (hkept.process k id).trans hp, hunseen⟩

theorem moves (h : m.Unseen k) (hquiet : ∀ s pid number next, ps.next s ≠ .signal pid number next)
    (hmoves : Moves ps m m₁) : m₁.Unseen k := by
  induction hmoves with
  | refl => exact h
  | step _ hstep ih => exact ih.step hquiet hstep
  | pass _ turn clock ih => exact ih

/-- What concerns no process does not tell the interpreter anything about one. -/
theorem aside (h : m.Unseen k) (hquiet : ∀ s pid number next, ps.next s ≠ .signal pid number next)
    {es : Trace} {m' : Machine S} (hes : es.Aside) (hplays : Plays ps m es m') : m'.Unseen k := by
  induction es generalizing m with
  | nil => exact h.moves hquiet hplays
  | cons e es ih =>
    obtain ⟨m₁, m₂, host, hmoves, rfl, hanswer, hrest⟩ := hplays
    obtain ⟨hkind, hread⟩ := apart_of_aside hes e (.head _)
    have hnet := host.answer_net hkind hread m₁
    rw [hanswer] at hnet
    exact ih ((h.moves hquiet hmoves).of_processes (congrArg Net.processes hnet))
      (fun e he => hes e (.tail _ he)) hrest

/-- **Waiting.** A process that has been waited for has nothing open. -/
theorem waited (h : m.Unseen k) {host : Host S}
    (hquiet : ∀ s pid number next, host.programs.next s ≠ .signal pid number next) {pid : ProcessId}
    (hk : m.indexOf? pid = some k) {code : Int}
    (hanswer : host.answer (.wait pid) m = (.returned code, m₁)) :
    ∃ q, m₁.processes[k]? = some q ∧ q.descriptors = [] := by
  obtain ⟨p, hp, hunseen⟩ := h
  have hwait : host.awaitExit m pid = (.returned code, m₁) := hanswer
  have hprocess : m.process? pid = some p := by
    unfold process?
    rw [hk]
    exact hp
  unfold awaitExit at hwait
  simp only [hk, hprocess, hunseen] at hwait
  split at hwait
  · cases hwait
  · split at hwait <;> cases hwait
    rename_i m₂ hrun
    -- it has exited, and everything is taken from it
    obtain ⟨hmoves, -⟩ := host.runUntil_moves hrun
    obtain ⟨p₂, hp₂, -⟩ := (Later.of_moves hquiet hmoves).process hp
    obtain ⟨q, hq, -⟩ := (Later.retire m₂ k (.exited code)).process hp₂
    refine ⟨{ q with observed := some code }, processes_modifyProcess_self hq _, ?_⟩
    rw [of_retire m₂ _ hp₂ hq]

end Unseen

end Machine

end LineShell.Host
