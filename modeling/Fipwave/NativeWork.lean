import Fipwave.BridgeRuns

/-!
# Native work that is overtaken is inert

A method of the qualification notes the two counters it begins with. Once one
of them has advanced the session of that method is over, and each move that
would have an effect asks for counters that are current. So whatever the
method still does when one of its waits ends, the evidence, the session and
what the browser is sent stay as they are.
-/

namespace Fipwave.NativeWork

open Relation FwavProtocol QualificationSession BridgePorts BridgeReport BridgeTrial
  BridgeMethods BridgeServer AsyncMethod TrialMoves PortMoves BridgeMoves TransitionRun

/-- A counter has advanced since the actor began. -/
def Overtaken (a : Actor) (t : Trial) : Prop :=
  ∃ tag, t.begun a = some tag ∧ tag ≠ (t.generation, t.operationGeneration)

/-- Nothing of the qualification has changed that anybody could tell, and no message with an
effect was sent. -/
structure Inert (b b' : Bridge) : Prop where
  /-- No result is added. -/
  results : b'.trial.results = b.trial.results
  /-- No case is completed. -/
  completion : b'.trial.completion = b.trial.completion
  /-- Nothing is acknowledged. -/
  acknowledgements : b'.trial.acknowledgements = b.trial.acknowledgements
  /-- The session only looks at the clock: no stage ends and no fallback is activated. -/
  session : Looked b.trial.session b'.trial.session
  /-- No sound is forwarded and no result is sent. -/
  discreet : Discreet b.ports b'.ports

section Moves

variable {options : BridgeServerOptions} {a : Actor} {b b' b'' : Bridge}

theorem Inert.refl (b : Bridge) : Inert b b := ⟨rfl, rfl, rfl, .refl _, .refl _⟩

theorem Inert.trans (h : Inert b b') (h' : Inert b' b'') : Inert b b'' := by
  refine ⟨h'.results.trans h.results, h'.completion.trans h.completion,
    h'.acknowledgements.trans h.acknowledgements, ?_, h.discreet.trans h'.discreet⟩
  have hfirst := h.session
  have hsecond := h'.session
  unfold Looked at hfirst hsecond ⊢
  rw [hsecond, hfirst]

/-- Only an agent can be overtaken. -/
theorem Overtaken.agent {t : Trial} (h : Overtaken a t) (hp : Poised t) : isAgent a = true := by
  obtain ⟨tag, htag, -⟩ := h
  exact hp.agents a (by rw [htag]; simp)

/-- What is overtaken was begun. -/
theorem Overtaken.not_none {t : Trial} (h : Overtaken a t) : t.begun a ≠ none := by
  obtain ⟨tag, htag, -⟩ := h
  rw [htag]
  simp

/-- What is overtaken is not fresh. -/
theorem Overtaken.not_fresh {t : Trial} (h : Overtaken a t) : ¬Fresh a t := by
  obtain ⟨tag, htag, hne⟩ := h
  exact fun hfresh => hne (hfresh tag htag)

/-- Who is overtaken stays overtaken. -/
theorem Overtaken.move {t t' : Trial} (h : Overtaken a t) (hp : Poised t)
    (hmove : TrialMove options.trial False a t t') : Overtaken a t' := by
  obtain ⟨tag, htag, hne⟩ := h
  obtain ⟨-, hgeneration, hoperation, -⟩ := hp.engaged a tag htag
  refine ⟨tag, hmove.begun_some htag, fun heq => hne ?_⟩
  have hle := hmove.generation_le
  have hle' := hmove.operation_le
  obtain ⟨g, o⟩ := tag
  simp only [Prod.mk.injEq] at heq hgeneration hoperation ⊢
  omega

/-- A move of an actor that is overtaken on the qualification. -/
theorem inert_trialMove {t : Trial} (h : TrialMove options.trial False a b.trial t)
    (hover : Overtaken a b.trial) (hb : Standing b) : Inert b { b with trial := t } := by
  have hnone := hover.not_none
  have hfresh := hover.not_fresh
  have henvironment : a ≠ .environment := by
    rintro rfl
    cases hover.agent hb.poised
  cases h with
  | incidental => exact ⟨rfl, rfl, rfl, .refl _, .refl _⟩
  | look h => exact ⟨rfl, rfl, rfl, h, .refl _⟩
  | chain expired h => exact ⟨rfl, rfl, rfl, .refl _, .refl _⟩
  | begins hagent h => exact absurd h hnone
  | start nowMs hagent h => exact absurd h hnone
  | fall h hcurrent => exact absurd hcurrent hfresh
  | overtake hover h => exact absurd h hnone
  | quietFails h hbegun => exact absurd hbegun hnone
  | reset h hbegun => exact absurd hbegun hnone
  | progress h hcurrent => exact absurd hcurrent hfresh
  | complete caseId record h hcurrent => exact absurd hcurrent hfresh
  | acknowledge hagent hpending hcompletion hactor hdurable hcurrent =>
    exact absurd hcurrent hfresh
  | note k hagent hdurable hcurrent => exact absurd hcurrent hfresh
  | recordNative hcodec hcurrent => exact absurd hcurrent hfresh
  | recordBrowser hbegun => exact absurd hbegun hnone
  | duplicate hbegun => exact absurd hbegun hnone
  | skip ha => exact absurd ha henvironment
  | hand ha => exact absurd ha henvironment
  | conclude succeeded ha => exact absurd ha henvironment

/-- A move of an actor that is overtaken has no effect. -/
theorem inert_move (h : Move options False a b b') (hover : Overtaken a b.trial) (hb : Standing b) :
    Inert b b' ∧ Overtaken a b'.trial := by
  have hagent := hover.agent hb.poised
  cases h with
  | ports h =>
    refine ⟨⟨rfl, rfl, rfl, .refl _, ?_⟩, hover⟩
    rcases h.discreet_or with hdiscreet | ⟨-, ha | ha⟩
    · exact hdiscreet
    · rw [ha] at hagent
      cases hagent
    · rw [ha] at hagent
      cases hagent
  | trial h => exact ⟨inert_trialMove h hover hb, hover.move hb.poised h⟩
  | reads => exact ⟨⟨rfl, rfl, rfl, .refl _, .refl _⟩, hover⟩
  | plays encoded hfresh => exact absurd hfresh hover.not_fresh
  | results socket epoch direction cold k hkind hagent hfresh => exact absurd hfresh hover.not_fresh
  | answers socket epoch k hkind hagent hnone => exact absurd hnone hover.not_none

/-- An overtaken actor stays overtaken, and all its further moves are inert. -/
theorem inert_moves (h : ReflTransGen (Move options False a) b b') (hover : Overtaken a b.trial)
    (hb : Standing b) : Inert b b' ∧ Overtaken a b'.trial := by
  induction h with
  | refl => exact ⟨.refl b, hover⟩
  | tail hmoves hmove ih =>
    obtain ⟨hinert, hover'⟩ := inert_move hmove ih.2 (standing_of_moves hmoves hb)
    exact ⟨ih.1.trans hinert, hover'⟩

end Moves

/-- When a wait of a method ends after one of the counters it began with has advanced, in any
state of any run and however the wait ends, the rest of the method up to its next wait adds no
result, completes and acknowledges no case, activates no fallback, forwards no sound and sends no
result. -/
theorem overtaken_inert (options : BridgeServerOptions) (events : List Event) (index : ℕ)
    (reply : Reply) (a : Actor) (tag : ℕ × ℕ) :
    let w := run (step options) (createBridgeServer options) events
    w.processes[index]?.map (·.part) = some a → w.state.trial.begun a = some tag →
      tag ≠ (w.state.trial.generation, w.state.trial.operationGeneration) →
      Inert w.state (step options w (.resume index reply)).state := by
  intro w hpart hbegun hovertaken
  have hsound : Sound options False w := sound_run events
  have hactor : actorOf w (.resume index reply) = a := by
    simp [actorOf, hpart]
  have hmoves := (moves_resume index reply False.elim hsound).1
  rw [hactor] at hmoves
  exact (inert_moves hmoves ⟨tag, hbegun, hovertaken⟩ hsound.standing).1

/-- The operator starts the qualification and resets the bridge while the first report of the
start is not written yet. -/
def benchOvertaken : List Event := [.operatorStart 0, .operatorReset 0, .beginWrite 1]

/-- The start goes on when its report is skipped, and has no effect. -/
theorem overtaken_inert_bench :
    let options := benchOptions [] (fun _ => none)
    let w := run (step options) (createBridgeServer options) benchOvertaken
    w.processes[0]?.map (·.part) = some (.operatorStart 0) ∧
      w.state.trial.begun (.operatorStart 0) = some (1, 1) ∧
      (1, 1) ≠ (w.state.trial.generation, w.state.trial.operationGeneration) ∧
      admits w.state (.write 1) .resolved = true ∧
      Inert w.state (step options w (.resume 0 .resolved)).state := by
  refine ⟨by decide +kernel, by decide +kernel, by decide +kernel, by decide +kernel, ?_⟩
  exact overtaken_inert (benchOptions [] (fun _ => none)) benchOvertaken 0 .resolved
    (.operatorStart 0) (1, 1) (by decide +kernel) (by decide +kernel) (by decide +kernel)

end Fipwave.NativeWork
