import Fipwave.BridgeMoves

/-!
# The methods of a bridge keep their contracts

Every method that waits keeps its contract: its sections are moves of its
actor. Almost all of them are calm. A method that comes back from a wait finds
what it left, and looks at the counters before it goes on; so whoever plays
sound, records, completes or acknowledges has current counters, and whoever
acknowledges waited for a report that was written.
-/

namespace Fipwave.BridgeMoves

open Relation FwavProtocol QualificationSession BridgePorts BridgeReport BridgeTrial
  BridgeMethods BridgeServer AsyncMethod TrialMoves PortMoves
open CyrinxWorker (CyrinxResult)

/-- The sections of a method are calm. -/
def Calmly {α : Type} (options : BridgeServerOptions) (prompt : Prop) (a : Actor) (P : Bridge → Prop)
    (f : BridgeM α) (Q : α → Bridge → Prop) : Prop :=
  Meets (calmContract options prompt a) (fun b => Standing b ∧ P b) f (fun v b => Standing b ∧ Q v b)
    (fun _ b => Standing b)

/-- The sections of a method are moves. -/
def Safely {α : Type} (options : BridgeServerOptions) (prompt : Prop) (a : Actor) (P : Bridge → Prop)
    (f : BridgeM α) (Q : α → Bridge → Prop) : Prop :=
  Meets (contract options prompt a) (fun b => Standing b ∧ P b) f (fun v b => Standing b ∧ Q v b)
    (fun _ b => Standing b)

section Rules

variable {options : BridgeServerOptions} {prompt : Prop} {a : Actor} {α β : Type}
  {P P' R : Bridge → Prop} {Q Q' : α → Bridge → Prop} {S : β → Bridge → Prop} {f : BridgeM α}

/-- Calm sections follow one another: the second method begins where the first one ends. -/
theorem Calmly.bind {g : α → BridgeM β} (hf : Calmly options prompt a P f Q)
    (hg : ∀ value, Calmly options prompt a (Q value) (g value) S) : Calmly options prompt a P (f >>= g) S :=
  Meets.bind hf hg

/-- Sections that are moves follow one another in the same way. -/
theorem Safely.bind {g : α → BridgeM β} (hf : Safely options prompt a P f Q)
    (hg : ∀ value, Safely options prompt a (Q value) (g value) S) : Safely options prompt a P (f >>= g) S :=
  Meets.bind hf hg

/-- More may be asked of the start of a method and less of its end. -/
theorem Calmly.weaken (h : Calmly options prompt a P f Q) (hP : ∀ b, P' b → P b)
    (hQ : ∀ value b, Q value b → Q' value b) : Calmly options prompt a P' f Q' :=
  Meets.weaken h (fun _ hb => ⟨hb.1, hP _ hb.2⟩) (fun _ _ hb => ⟨hb.1, hQ _ _ hb.2⟩)
    (fun _ _ hb => hb)

/-- The same, for sections that are moves. -/
theorem Safely.weaken (h : Safely options prompt a P f Q) (hP : ∀ b, P' b → P b)
    (hQ : ∀ value b, Q value b → Q' value b) : Safely options prompt a P' f Q' :=
  Meets.weaken h (fun _ hb => ⟨hb.1, hP _ hb.2⟩) (fun _ _ hb => ⟨hb.1, hQ _ _ hb.2⟩)
    (fun _ _ hb => hb)

/-- What two proofs say of the outcomes of one calm method holds together. -/
theorem Calmly.and (h : Calmly options prompt a P f Q) (h' : Calmly options prompt a P' f Q') :
    Calmly options prompt a (fun b => P b ∧ P' b) f (fun value b => Q value b ∧ Q' value b) :=
  (Meets.and h h').weaken (fun _ hb => ⟨⟨hb.1, hb.2.1⟩, hb.1, hb.2.2⟩)
    (fun _ _ hb => ⟨hb.1.1, hb.1.2, hb.2.2⟩) (fun _ _ hb => hb)

/-- A calm method leaves what is kept. -/
theorem Calmly.keep (h : Calmly options prompt a P f Q) (hR : Kept options prompt a R) :
    Calmly options prompt a (fun b => P b ∧ R b) f (fun value b => Q value b ∧ R b) := by
  have hframe := Meets.frame (C := calmContract options prompt a) (R := fun b => Standing b ∧ R b) h
    (fun b b' hcalm => ⟨hcalm, fun hb =>
      ⟨standing_of_moves hcalm.moves hb.1, hR.calm _ _ hcalm hb.1 hb.2⟩⟩)
    (fun b b' hrely => ⟨hrely, hR.rely hrely⟩) (fun _ _ _ h => h) (fun _ h => h)
  exact hframe.weaken (fun b hb => ⟨⟨hb.1, hb.2.1⟩, hb.1, hb.2.2⟩)
    (fun value b hb => ⟨hb.2.1, hb.1.2, hb.2.2⟩) (fun _ b hb => hb.1)

/-- A calm method as one section after another of its actor; what is kept stays. -/
theorem Calmly.safely (h : Calmly options prompt a P f Q) (hR : Kept options prompt a R) :
    Safely options prompt a (fun b => P b ∧ R b) f (fun value b => Q value b ∧ R b) := by
  have hframe := Meets.frame (C := contract options prompt a) (R := fun b => Standing b ∧ R b) h
    (fun b b' hcalm => ⟨hcalm.moves, fun hb =>
      ⟨standing_of_moves hcalm.moves hb.1, hR.calm _ _ hcalm hb.1 hb.2⟩⟩)
    (fun b b' hrely => ⟨hrely, hR.rely hrely⟩) (fun _ _ _ h => h) (fun _ h => h)
  exact hframe.weaken (fun b hb => ⟨⟨hb.1, hb.2.1⟩, hb.1, hb.2.2⟩)
    (fun value b hb => ⟨hb.2.1, hb.1.2, hb.2.2⟩) (fun _ b hb => hb.1)

/-- Handing on a value takes no section of its own. -/
theorem calmly_pure (value : α) (h : ∀ b, P b → Q value b) :
    Calmly options prompt a P (pure value) Q :=
  meets_pure value (fun b hb => ⟨hb.1, h b hb.2⟩)

/-- Handing on a value makes no move. -/
theorem safely_pure (value : α) (h : ∀ b, P b → Q value b) :
    Safely options prompt a P (pure value) Q :=
  meets_pure value (fun b hb => ⟨hb.1, h b hb.2⟩)

/-- A method that throws promises nothing of its end. -/
theorem calmly_raise (error : Refusal) : Calmly options prompt a P (raise error) Q :=
  meets_raise error (fun _ hb => hb.1)

/-- A method that throws makes no move. -/
theorem safely_raise (error : Refusal) : Safely options prompt a P (raise error) Q :=
  meets_raise error (fun _ hb => hb.1)

/-- A result is handed on or thrown, and nothing changes in either case. -/
theorem calmly_orThrow (result : Except Refusal α) (h : ∀ value b, P b → Q value b) :
    Calmly options prompt a P (orThrow result) Q := by
  cases result with
  | ok value => exact calmly_pure value (h value)
  | error error => exact calmly_raise error

/-- A method that looks at the bridge. -/
theorem calmly_current {g : Bridge → BridgeM α}
    (h : ∀ b₀, P b₀ → Calmly options prompt a (fun b => b = b₀) (g b₀) Q) :
    Calmly options prompt a P (current >>= g) Q := by
  intro b hb
  exact h b hb.2 b ⟨hb.1, rfl⟩

/-- A method may read the bridge it finds and go on by what it has read. -/
theorem safely_current {g : Bridge → BridgeM α}
    (h : ∀ b₀, P b₀ → Safely options prompt a (fun b => b = b₀) (g b₀) Q) :
    Safely options prompt a P (current >>= g) Q := by
  intro b hb
  exact h b hb.2 b ⟨hb.1, rfl⟩

/-- A change is calm if it is made of calm moves at once. -/
theorem calmly_change {g : Bridge → Bridge} {Q : Unit → Bridge → Prop}
    (h : ∀ b, Standing b → P b → Calm options prompt a b (g b) ∧ Q () (g b)) :
    Calmly options prompt a P (change g) Q :=
  meets_change (fun b hb =>
    ⟨(h b hb.1 hb.2).1, standing_of_moves (h b hb.1 hb.2).1.moves hb.1, (h b hb.1 hb.2).2⟩)

/-- A change is safe if it is made of moves at once. -/
theorem safely_change {g : Bridge → Bridge} {Q : Unit → Bridge → Prop}
    (h : ∀ b, Standing b → P b → ReflTransGen (Move options prompt a) b (g b) ∧ Q () (g b)) :
    Safely options prompt a P (change g) Q :=
  meets_change (fun b hb =>
    ⟨(h b hb.1 hb.2).1, standing_of_moves (h b hb.1 hb.2).1 hb.1, (h b hb.1 hb.2).2⟩)

/-- A move on the ports is a safe method. -/
theorem safely_onPorts {g : Ports → Ports} {Q : Unit → Bridge → Prop}
    (h : ∀ b, Standing b → P b → PortMove options.ports a b.ports (g b.ports) ∧
      Q () { b with ports := g b.ports }) : Safely options prompt a P (onPorts g) Q :=
  safely_change (fun b hb hP => ⟨.single (.ports (h b hb hP).1), (h b hb hP).2⟩)

/-- A quiet change of the qualification is a calm method. -/
theorem calmly_onTrial {g : Trial → Trial} {Q : Unit → Bridge → Prop}
    (h : ∀ b, Standing b → P b → Quietly options.trial prompt a b.trial (g b.trial) ∧
      Q () { b with trial := g b.trial }) : Calmly options prompt a P (onTrial g) Q :=
  calmly_change (fun b hb hP => ⟨calm_of_trial (h b hb hP).1, (h b hb hP).2⟩)

/-- Moves on the qualification make a safe method. -/
theorem safely_onTrial {g : Trial → Trial} {Q : Unit → Bridge → Prop}
    (h : ∀ b, Standing b → P b → Moves options.trial prompt a b.trial (g b.trial) ∧
      Q () { b with trial := g b.trial }) : Safely options prompt a P (onTrial g) Q :=
  safely_change (fun b hb hP => ⟨moves_of_trial (h b hb hP).1, (h b hb hP).2⟩)

/-- A question to the trial is calm if the trial answers it by calm moves. -/
theorem calmly_askTrial {g : Trial → α × Trial}
    (h : ∀ b, Standing b → P b → Quietly options.trial prompt a b.trial (g b.trial).2 ∧
      Q (g b.trial).1 { b with trial := (g b.trial).2 }) : Calmly options prompt a P (askTrial g) Q := by
  intro b hb
  obtain ⟨hquiet, hQ⟩ := h b hb.1 hb.2
  have hcalm : Calm options prompt a b _ := calm_of_trial hquiet
  exact ⟨hcalm, standing_of_moves hcalm.moves hb.1, hQ⟩

/-- A question to the trial is safe if the trial answers it by moves. -/
theorem safely_askTrial {g : Trial → α × Trial}
    (h : ∀ b, Standing b → P b → Moves options.trial prompt a b.trial (g b.trial).2 ∧
      Q (g b.trial).1 { b with trial := (g b.trial).2 }) : Safely options prompt a P (askTrial g) Q := by
  intro b hb
  obtain ⟨hmoves, hQ⟩ := h b hb.1 hb.2
  have hmoves : ReflTransGen (Move options prompt a) b _ := moves_of_trial hmoves
  exact ⟨hmoves, standing_of_moves hmoves hb.1, hQ⟩

/-- An attempt is calm if the trial makes calm moves, also when it throws in the end. -/
theorem calmly_attemptTrial {g : Trial → Except (Refusal × Trial) (α × Trial)}
    (h : ∀ b, Standing b → P b → Quietly options.trial prompt a b.trial (leftTrial (g b.trial)) ∧
      ∀ r, g b.trial = .ok r → Q r.1 { b with trial := r.2 }) :
    Calmly options prompt a P (attemptTrial g) Q := by
  intro b hb
  obtain ⟨hquiet, hQ⟩ := h b hb.1 hb.2
  have hcalm : Calm options prompt a b _ := calm_of_trial hquiet
  have hstanding := standing_of_moves hcalm.moves hb.1
  unfold attemptTrial
  split
  · next answer trial heq =>
    rw [heq] at hcalm hstanding
    exact ⟨hcalm, hstanding, hQ _ heq⟩
  · next error trial heq =>
    rw [heq] at hcalm hstanding
    exact ⟨hcalm, hstanding⟩

/-- An attempt is safe if the trial makes moves, also when it throws in the end. -/
theorem safely_attemptTrial {g : Trial → Except (Refusal × Trial) (α × Trial)}
    (h : ∀ b, Standing b → P b → Moves options.trial prompt a b.trial (leftTrial (g b.trial)) ∧
      ∀ r, g b.trial = .ok r → Q r.1 { b with trial := r.2 }) :
    Safely options prompt a P (attemptTrial g) Q := by
  intro b hb
  obtain ⟨hmoves, hQ⟩ := h b hb.1 hb.2
  have hmoves : ReflTransGen (Move options prompt a) b _ := moves_of_trial hmoves
  have hstanding := standing_of_moves hmoves hb.1
  unfold attemptTrial
  split
  · next answer trial heq =>
    rw [heq] at hmoves hstanding
    exact ⟨hmoves, hstanding, hQ _ heq⟩
  · next error trial heq =>
    rw [heq] at hmoves hstanding
    exact ⟨hmoves, hstanding⟩

/-- A wait: what is kept is found again. -/
theorem calmly_await {on : Awaited} {Q : Reply → Bridge → Prop} (hR : Kept options prompt a R)
    (h : ∀ b reply, Standing b → R b → (contract options prompt a).admits b on reply → Q reply b) :
    Calmly options prompt a R (await on) Q := by
  refine meets_await (fun _ _ => trivial) ?_
  intro b b' reply hb hrely hadmits
  have hb' := hR.rely hrely hb
  exact ⟨hb'.1, h b' reply hb'.1 hb'.2 hadmits⟩

/-- What a method throws may be handled by a calm handler; nothing is known of the bridge then. -/
theorem calmly_catching {g : Refusal → BridgeM α} (hf : Calmly options prompt a P f Q)
    (hg : ∀ error, Calmly options prompt a (fun _ => True) (g error) Q) :
    Calmly options prompt a P (catching f g) Q :=
  Meets.catching hf (fun error => Meets.weaken (hg error) (fun _ hb => ⟨hb, trivial⟩)
    (fun _ _ hb => hb) (fun _ _ hb => hb))

end Rules

section CalmMethods

variable {prompt : Prop} {a : Actor} (options : BridgeServerOptions)

/-- Reading the clock changes nothing else. -/
theorem calmly_clock {R : Ports → Trial → Prop} :
    Calmly options prompt a (fun b => R b.ports b.trial) (clock options)
      (fun _ b => R b.ports b.trial) := by
  intro b hb
  have hcalm : Calm options prompt a b _ := calm_reads b
  exact ⟨hcalm, standing_of_moves hcalm.moves hb.1, hb.2⟩

/-- While a method gives way, what others keep is kept. -/
theorem calmly_turn {R : Bridge → Prop} (hR : Kept options prompt a R) :
    Calmly options prompt a R turn (fun _ => R) :=
  (calmly_await hR (Q := fun _ => R) (fun _ _ _ hb _ => hb)).bind
    (fun _ => calmly_pure () (fun _ hb => hb))

/-- What a method waits for after it had a report built. -/
def AwaitsReport (fact : CaseFact) (on : Awaited) (b : Bridge) : Prop :=
  ∃ index, on = index.elim .turn .write ∧ Awaits options.trial fact index b.trial

/-- A report that is waited for is still on its way after others have acted. -/
theorem kept_awaits (fact : CaseFact) (index : Option ℕ) :
    Kept options prompt a (fun b => Awaits options.trial fact index b.trial) := by
  have hkeeps : ∀ {b b' : Bridge}, (∀ (n : ℕ) (task : WriteTask), b.trial.writes[n]? = some task →
      ∃ task', b'.trial.writes[n]? = some task' ∧ Keeps task task') →
      Awaits options.trial fact index b.trial → Awaits options.trial fact index b'.trial := by
    intro b b' hkeeps h
    cases index with
    | none => exact h
    | some n =>
      obtain ⟨hmark, task, htask, hbuilt, hshows⟩ := h
      obtain ⟨task', htask', hsame, -, -, hreport, -⟩ := hkeeps n task htask
      exact ⟨hmark, task', htask', hsame ▸ hbuilt, hreport ▸ hshows⟩
  exact ⟨fun _ _ h _ => hkeeps (fun _ _ => keeps_of_moves h.moves),
    fun _ _ h _ => hkeeps (fun _ _ => h.keeps)⟩

/-- Whatever a report is waited for by stays true while others act. -/
theorem kept_awaitsReport (fact : CaseFact) (on : Awaited) :
    Kept options prompt a (AwaitsReport options fact on) :=
  ⟨fun _ _ h hb ⟨index, hon, hawaits⟩ =>
      ⟨index, hon, (kept_awaits options fact index).calm _ _ h hb hawaits⟩,
    fun _ _ h hb ⟨index, hon, hawaits⟩ =>
      ⟨index, hon, (kept_awaits options fact index).others _ _ h hb hawaits⟩⟩

/-- The generation a report is expected to be for is the current one, and a fact is on record. -/
def Expects (expectedGeneration : Option ℕ) (fact : CaseFact) (t : Trial) : Prop :=
  expectedGeneration.all (· = t.generation) ∧ Recorded options.trial fact t

/-- No case is told of by the fact of no case. -/
theorem recorded_blankFact (t : Trial) : Recorded options.trial (blankFact 0 0) t :=
  ⟨Nat.zero_le _, Nat.zero_le _, records_blankFact 0 0 t⟩

/-- Building a report leaves it queued, or written if there is nothing to write, with the fact it is
about. -/
theorem calmly_persist (expectedGeneration : Option ℕ) (fact : CaseFact) :
    Calmly options prompt a (fun b => Expects options expectedGeneration fact b.trial)
      (persist options expectedGeneration) (AwaitsReport options fact) := by
  refine (calmly_clock options (R := fun _ t => Expects options expectedGeneration fact t)).bind
    (fun nowMs => calmly_current (fun b₀ hexpects => ?_))
  refine Calmly.bind (Q := fun index b => Awaits options.trial fact index b.trial)
    (calmly_askTrial (fun b hb heq => ?_))
    (fun index => calmly_pure _ (fun b hb => ⟨index, rfl, hb⟩))
  subst heq
  exact persist_spec expectedGeneration b.ports.epoch b.ports.discontinuities nowMs hb.poised
    hexpects.1 hexpects.2

/-- Once the wait for a report is over its fact has settled, written or given up. -/
theorem calmly_awaitWrite (fact : CaseFact) (on : Awaited) :
    Calmly options prompt a (AwaitsReport options fact on) (awaitWrite on)
      (fun _ b => SettledSince options.trial fact b.trial) := by
  refine (calmly_await (kept_awaitsReport options fact on)
    (Q := fun reply b => reply ≠ .rejected → SettledSince options.trial fact b.trial) ?_).bind ?_
  · rintro b reply hb ⟨index, hon, hawaits⟩ ⟨hadmits, -⟩ hreply hconfig hauthority
    cases index with
    | none => exact absurd hawaits (not_or.mpr ⟨hconfig, hauthority⟩)
    | some n =>
      obtain ⟨hmark, task, htask, hbuilt, hshows⟩ := hawaits
      refine ⟨n, task, htask, hmark, hbuilt, hshows, ?_⟩
      subst hon
      cases reply with
      | resolved => simpa [admits, htask] using hadmits
      | rejected => exact absurd rfl hreply
      | aborted => simp [admits] at hadmits
      | playback => simp [admits] at hadmits
      | result => simp [admits] at hadmits
  · intro reply
    cases reply with
    | rejected => exact calmly_raise _
    | _ => exact calmly_pure () (fun _ hb => hb (by simp))

/-- A report that was awaited has settled. -/
theorem calmly_awaitPersist (expectedGeneration : Option ℕ) (fact : CaseFact) :
    Calmly options prompt a (fun b => Expects options expectedGeneration fact b.trial)
      (awaitPersist options expectedGeneration)
      (fun _ b => SettledSince options.trial fact b.trial) :=
  (calmly_persist options expectedGeneration fact).bind (calmly_awaitWrite options fact)

/-- A report that is about no case is built and waited for. -/
theorem calmly_awaitPersist_none :
    Calmly options prompt a (fun _ => True) (awaitPersist options none) (fun _ _ => True) :=
  (calmly_awaitPersist options none (blankFact 0 0)).weaken
    (fun b _ => ⟨rfl, recorded_blankFact options b.trial⟩) (fun _ _ _ => trivial)

/-- A report for whatever generation is current is built and waited for. -/
theorem calmly_awaitPersistNow :
    Calmly options prompt a (fun _ => True) (awaitPersistNow options) (fun _ _ => True) := by
  refine calmly_current (fun b₀ _ => ?_)
  refine (calmly_awaitPersist options (some b₀.trial.generation) (blankFact 0 0)).weaken ?_
    (fun _ _ _ => trivial)
  rintro b rfl
  exact ⟨by simp, recorded_blankFact options b.trial⟩

/-- The state of the session is shown once the report about it was written. -/
theorem calmly_broadcastSession :
    Calmly options prompt a (fun _ => True) (broadcastSession options) (fun _ _ => True) := by
  refine (calmly_clock options (R := fun _ _ => True)).bind
    (fun nowMs => calmly_current (fun b₀ _ => ?_))
  refine Calmly.bind (Q := fun _ _ => True)
    (calmly_askTrial (fun b _ _ => ⟨quietly_sessionSnapshot _ _ _, trivial⟩)) (fun published => ?_)
  cases published with
  | none => exact calmly_pure () (fun _ _ => trivial)
  | some published =>
    exact calmly_change (fun b _ _ => ⟨calm_broadcast b rfl, trivial⟩)

/-- Only the first to fall back begins Quiet, tells the clients and has it reported. -/
theorem calmly_transitionFallback (pre : Bool) :
    Calmly options prompt a (fun _ => True) (transitionFallback options pre) (fun _ _ => True) :=
  (calmly_clock options (R := fun _ _ => True)).bind (fun nowMs =>
    calmly_attemptTrial (fun _ hb _ =>
      ⟨quietly_transitionCurrentFallback pre nowMs hb.poised, fun _ _ => trivial⟩))

/-- Having a change reported and published is calm. -/
theorem calmly_reportAndPublish :
    Calmly options prompt a (fun _ => True)
      (do
        awaitPersistNow options
        broadcastSession options)
      (fun _ _ => True) :=
  (calmly_awaitPersistNow options).bind (fun _ => calmly_broadcastSession options)

/-- The session falls back if it still can, and the transition follows. -/
theorem calmly_activateCurrentFallback (pre : Bool) :
    Calmly options prompt a (fun _ => True) (activateCurrentFallback options pre) (fun _ _ => True) := by
  refine (calmly_transitionFallback options pre).bind (fun fell => ?_)
  cases fell with
  | true => exact calmly_reportAndPublish options
  | false => exact calmly_pure () (fun _ _ => trivial)

/-- A caller that goes on to call the session, under Cyrinx, does so before the deadline, where
everybody is prompt. -/
theorem calmly_expireCyrinxAt (nowMs : ℕ) (next : Awaited) :
    Calmly options prompt a (fun b => next = .sessionCall → b.trial.session.codec ≠ .idle)
      (expireCyrinxAt options nowMs next)
      (fun expired b => expired = false → next = .sessionCall → prompt →
        (expire nowMs b.trial.session).1 = false) := by
  have hkept : Kept options prompt a
      (fun b => next = .sessionCall → OnTime nowMs b.trial.session) :=
    kept_session (P := fun c => next = .sessionCall → OnTime nowMs c)
      (fun _ _ hw hchange htime hcall => hchange.onTime hw (htime hcall))
  refine Calmly.bind (Q := fun expired b => expired = false → next = .sessionCall →
    OnTime nowMs b.trial.session) (calmly_askTrial (fun b hb hcodec => ?_)) (fun expired => ?_)
  · obtain ⟨hanswer, hsession⟩ := session_settleExpiry nowMs b.trial
    refine ⟨quietly_settleExpiry nowMs hb.poised, fun hopen hcall => ?_⟩
    rw [hanswer] at hopen
    rcases fallsOrLooks_expire nowMs b.trial.session with ⟨hfell, -⟩ | ⟨-, hlook⟩
    · rw [hopen] at hfell
      cases hfell
    · dsimp only
      rw [hsession]
      exact (Change.looked hlook).onTime hb.poised.wellFormed
        (onTime_of_expire hb.poised.wellFormed (hcodec hcall) hopen)
  · cases expired with
    | true =>
      exact ((calmly_awaitPersistNow options).weaken (fun _ _ => trivial) (fun _ _ hb => hb)).bind
        (fun _ => (calmly_broadcastSession options).bind
          (fun _ => (calmly_turn options kept_true).bind
            (fun _ => calmly_pure true (fun _ _ hopen => by cases hopen))))
    | false =>
      refine Calmly.bind (Q := fun _ b => next = .sessionCall → prompt →
        (expire nowMs b.trial.session).1 = false) ((calmly_await hkept ?_).weaken
          (fun _ hb => hb rfl) (fun _ _ hb => hb)) (fun _ => calmly_pure false (fun _ hb _ => hb))
      intro b reply hb htime hadmits hcall hprompt
      exact (htime hcall).expire hb.poised.wellFormed (hadmits.2 hprompt hcall)

/-- Before anything but a call of the session nothing is asked of the time. -/
theorem calmly_expireCyrinxAt_turn (nowMs : ℕ) :
    Calmly options prompt a (fun _ => True) (expireCyrinxAt options nowMs .turn) (fun _ _ => True) :=
  (calmly_expireCyrinxAt options nowMs .turn).weaken (fun _ _ h => by cases h)
    (fun _ _ _ => trivial)

/-- The session is asked whether its deadline has passed, and the transition follows. -/
theorem calmly_expireCyrinx :
    Calmly options prompt a (fun _ => True) (expireCyrinx options) (fun _ _ => True) :=
  (calmly_clock options (R := fun _ _ => True)).bind (calmly_expireCyrinxAt_turn options)

/-- The session is made to expire, and the transition follows. -/
theorem calmly_forceExpireCyrinx :
    Calmly options prompt a (fun _ => True) (forceExpireCyrinx options) (fun _ _ => True) := by
  refine (calmly_clock options (R := fun _ _ => True)).bind (fun nowMs => ?_)
  refine Calmly.bind (Q := fun _ _ => True)
    (calmly_askTrial (fun b hb _ => ⟨quietly_forceExpire nowMs hb.poised, trivial⟩))
    (fun expired => ?_)
  cases expired with
  | true => exact calmly_reportAndPublish options
  | false => exact calmly_pure () (fun _ _ => trivial)

/-- The summary asks about the deadline before it is read. -/
theorem calmly_cyrinxSummary :
    Calmly options prompt a (fun _ => True) (cyrinxSummary options) (fun _ _ => True) := by
  refine (calmly_clock options (R := fun _ _ => True)).bind (fun nowMs => ?_)
  refine Calmly.bind (Q := fun _ _ => True)
    (calmly_onTrial (fun b _ _ => ⟨quietly_look (looked_lookAt nowMs _), trivial⟩))
    (fun _ => calmly_current (fun b₀ _ => ?_))
  cases b₀.trial.session.deadlineAtMs with
  | none => exact calmly_raise _
  | some deadlineAtMs => exact calmly_pure _ (fun _ _ => trivial)

/-- The result of a stage is reported if the stage is still the current one. -/
theorem calmly_reportStage (operation : ℕ) :
    Calmly options prompt a (fun _ => True) (reportStage options operation) (fun _ _ => True) := by
  refine (calmly_awaitPersist_none options).bind (fun _ => calmly_current (fun b₀ _ => ?_))
  split
  · exact calmly_pure false (fun _ _ => trivial)
  · refine (calmly_clock options (R := fun _ _ => True)).weaken (fun _ _ => trivial)
      (fun _ _ h => h) |>.bind (fun persistedAt => ?_)
    refine (calmly_expireCyrinxAt_turn options persistedAt).bind (fun expired => ?_)
    cases expired with
    | true => exact calmly_pure false (fun _ _ => trivial)
    | false =>
      refine calmly_current (fun b₁ _ => ?_)
      split
      · exact calmly_pure false (fun _ _ => trivial)
      · exact ((calmly_broadcastSession options).weaken (fun _ _ => trivial) (fun _ _ h => h)).bind
          (fun _ => calmly_pure true (fun _ _ => trivial))

/-- The work of an operation is waited for, and its result thrown away once the operation is
over. -/
theorem calmly_waitForCyrinxOperation (work : Awaited) (operation : ℕ) :
    Calmly options prompt a (fun _ => True) (waitForCyrinxOperation work operation) (fun _ _ => True) := by
  refine calmly_current (fun b₀ _ => Calmly.weaken (P := fun _ => True) ?_ (fun _ _ => trivial)
    (fun _ _ h => h))
  split
  · exact (calmly_turn options kept_true).bind (fun _ => calmly_pure true (fun _ _ => trivial))
  · refine (calmly_await kept_true (Q := fun _ _ => True) (fun _ _ _ _ _ => trivial)).bind
      (fun reply => ?_)
    cases reply with
    | rejected => exact calmly_raise _
    | aborted => exact calmly_pure true (fun _ _ => trivial)
    | _ => exact calmly_pure false (fun _ _ => trivial)

/-- A native operation is the current one under its number and under Cyrinx. -/
theorem sameOperation_iff {operation : ℕ} {b : Bridge} : sameOperation operation b = true ↔
    operation = b.trial.operationGeneration ∧ b.trial.session.codec = .cyrinx := by
  simp only [sameOperation, Bool.and_eq_true, decide_eq_true_eq]

/-- The counters of a method are current in their generation, operation and codec. -/
theorem sameGeneration_iff {generation operation : ℕ} {b : Bridge} :
    sameGeneration generation operation b = true ↔ generation = b.trial.generation ∧
      operation = b.trial.operationGeneration ∧ b.trial.session.codec = .cyrinx := by
  simp only [sameGeneration, Bool.and_eq_true, decide_eq_true_eq, sameOperation_iff]

/-- What completes a stage lets the session go on, or throws. -/
def Completes (complete : ℕ → CyrinxQualificationSession → SessionOutcome Unit) : Prop :=
  ∀ nowMs c, (∃ fault, complete nowMs c = .error fault ∧ FellOrLooked nowMs c fault.state) ∨
    ∃ r, complete nowMs c = .ok r ∧ Progressed c r.2

/-- A stage waits for its work, completes it in the session and has it reported. -/
theorem calmly_runStage (work : Awaited) (operation : ℕ)
    {complete : ℕ → CyrinxQualificationSession → SessionOutcome Unit}
    (hcomplete : Completes complete) :
    Calmly options prompt a (fun _ => True) (runStage options work operation complete)
      (fun _ _ => True) := by
  refine (calmly_waitForCyrinxOperation options work operation).bind
    (fun aborted => calmly_current (fun b₀ _ => ?_))
  split
  · exact calmly_pure false (fun _ _ => trivial)
  · next hcurrent =>
    have hcodec : b₀.trial.session.codec ≠ .idle := by
      rw [Bool.or_eq_true, not_or, Bool.not_eq_true', Bool.not_eq_false, sameOperation_iff]
        at hcurrent
      rw [hcurrent.2.2]
      simp
    refine ((calmly_clock options (R := fun _ t => t.session.codec ≠ .idle)).weaken
      (by rintro b rfl; exact hcodec) (fun _ _ hb => hb)).bind (fun completedAt => ?_)
    refine ((calmly_expireCyrinxAt options completedAt .sessionCall).weaken (fun _ hb _ => hb)
      (fun _ _ hb => hb)).bind (fun expired => ?_)
    cases expired with
    | true => exact calmly_pure false (fun _ _ => trivial)
    | false =>
      exact Calmly.bind (Q := fun _ _ => True)
        (calmly_attemptTrial (fun b hb htime =>
          ⟨quietly_sessionMethod hb.poised (htime rfl rfl) (hcomplete completedAt _),
            fun _ _ => trivial⟩))
        (fun _ => calmly_reportStage options operation)

/-- Work that fails makes the session fall back if it is still the current work. -/
theorem calmly_fallBackIf (isCurrent : Bridge → Bool) :
    Calmly options prompt a (fun _ => True) (fallBackIf options isCurrent) (fun _ _ => True) := by
  refine calmly_current (fun b₀ _ => Calmly.weaken (P := fun _ => True) ?_ (fun _ _ => trivial)
    (fun _ _ h => h))
  split
  · exact calmly_activateCurrentFallback options false
  · exact calmly_pure () (fun _ _ => trivial)

/-- The build comes before the digital stage, and a failure of either falls back. -/
theorem calmly_runStages (operation : ℕ) :
    Calmly options prompt a (fun _ => True) (runStages options operation) (fun _ _ => True) := by
  refine (calmly_runStage options _ operation completeBuild_cases).bind (fun going => ?_)
  cases going with
  | true =>
    exact (calmly_runStage options _ operation completeDigital_cases).bind
      (fun _ => calmly_pure () (fun _ _ => trivial))
  | false => exact calmly_pure () (fun _ _ => trivial)

/-- The counters an actor began with are those it has captured, and they are current. -/
theorem fresh_of_same {a : Actor} {generation operation : ℕ} {b : Bridge}
    (hbegun : b.trial.begun a = some (generation, operation))
    (hsame : sameGeneration generation operation b = true) : Fresh a b.trial := by
  intro tag htag
  rw [hbegun] at htag
  cases htag
  obtain ⟨hgeneration, hoperation, -⟩ := sameGeneration_iff.mp hsame
  rw [hgeneration, hoperation]

/-- A method that is still current, at a time: its counters are, and where everybody is prompt the
session is before its deadline if it is called next. -/
def Current (prompt : Prop) (next : Awaited) (generation operation : ℕ) (at_ : Option ℕ)
    (b : Bridge) : Prop :=
  ∀ nowMs, at_ = some nowMs → sameGeneration generation operation b = true ∧
    (next = .sessionCall → prompt → (expire nowMs b.trial.session).1 = false)

/-- A method that goes on after a wait is current, or it throws. -/
theorem calmly_stillCurrent (generation operation : ℕ) (next : Awaited) :
    Calmly options prompt a (fun _ => True) (stillCurrent options generation operation next)
      (Current prompt next generation operation) := by
  refine calmly_current (fun b₀ _ => ?_)
  split
  · exact calmly_pure none (fun _ _ => nofun)
  · next hstarted =>
    have hcodec : b₀.trial.session.codec ≠ .idle := by
      rw [Bool.not_eq_true', Bool.not_eq_false, sameGeneration_iff] at hstarted
      rw [hstarted.2.2]
      simp
    refine ((calmly_clock options (R := fun _ t => t.session.codec ≠ .idle)).weaken
      (by rintro b rfl; exact hcodec) (fun _ _ hb => hb)).bind (fun nowMs => ?_)
    refine ((calmly_expireCyrinxAt options nowMs next).weaken (fun _ hb _ => hb)
      (fun _ _ hb => hb)).bind (fun expired => ?_)
    cases expired with
    | true => exact calmly_pure none (fun _ _ => nofun)
    | false =>
      refine calmly_current (fun b₁ htime => ?_)
      split
      · exact calmly_pure none (fun _ _ => nofun)
      · next hsame =>
        refine calmly_pure (some nowMs) ?_
        rintro b rfl time htimes
        cases htimes
        rw [Bool.not_eq_true', Bool.not_eq_false] at hsame
        exact ⟨hsame, htime rfl⟩

/-- Sound is played by an actor whose counters are current. -/
theorem calmly_forwardPlayback (encoded : ByteWords.Bytes) :
    Calmly options prompt a (fun b => Fresh a b.trial) (forwardPlayback encoded) (fun _ _ => True) := by
  unfold forwardPlayback
  split
  · exact calmly_raise _
  · split
    · exact calmly_raise _
    · refine calmly_current (fun b₀ hfresh => ?_)
      split
      · exact calmly_raise _
      · refine calmly_change (fun b _ heq => ⟨?_, trivial⟩)
        subst heq
        exact ⟨.single (.plays encoded hfresh), rfl, fun _ _ h => .inl h,
          fun k => underway_broadcast k _ _, rfl, rfl⟩

/-- The playback of a case begins in the worker, or is refused. -/
theorem calmly_playCase (mode : CyrinxInstructionAction) (playback : Option ByteWords.Bytes) :
    Calmly options prompt a (fun b => Fresh a b.trial) (playCase mode playback) (fun _ _ => True) := by
  unfold playCase
  split
  · exact calmly_raise _
  · exact calmly_forwardPlayback options _
  · exact calmly_raise _
  · exact calmly_pure () (fun _ _ => trivial)

/-- A case begins after its report was written and while it is current. -/
theorem calmly_beginCase (mode : CyrinxInstructionAction) (generation operation : ℕ) :
    Calmly options prompt a (fun b => b.trial.begun a = some (generation, operation))
      (beginCase options mode generation operation) (fun _ _ => True) := by
  have hkept : Kept options prompt a _ := kept_begun (some (generation, operation))
  refine (calmly_await hkept (fun _ _ _ hb _ => hb)).bind (fun reply => ?_)
  cases reply with
  | playback playback =>
    refine calmly_current (fun b₀ hbegun => ?_)
    split
    · exact calmly_pure () (fun _ _ => trivial)
    · have hexpire : Calmly options prompt a (fun b => b = b₀) (expireCyrinx options)
          (fun _ b => b.trial.begun a = some (generation, operation)) :=
        ((calmly_expireCyrinx options).keep hkept).weaken
          (by rintro b rfl; exact ⟨trivial, hbegun⟩) (fun _ _ h => h.2)
      refine hexpire.bind (fun expired => ?_)
      cases expired with
      | true => exact calmly_pure () (fun _ _ => trivial)
      | false =>
        refine calmly_current (fun b₁ hbegun => ?_)
        split
        · exact calmly_pure () (fun _ _ => trivial)
        · next hsame =>
          rw [Bool.not_eq_true', Bool.not_eq_false] at hsame
          refine (calmly_playCase options mode playback).weaken ?_ (fun _ _ h => h)
          rintro b rfl
          exact fresh_of_same hbegun hsame
  | _ => exact calmly_raise _

/-- The time a case needs to settle is waited for. -/
theorem calmly_waitForCyrinxSettle (delayMs : ℕ) :
    Calmly options prompt a (fun _ => True) (waitForCyrinxSettle delayMs) (fun _ _ => True) := by
  unfold waitForCyrinxSettle
  split
  · exact (calmly_turn options kept_true).bind (fun _ => calmly_pure true (fun _ _ => trivial))
  · refine calmly_current (fun b₀ _ => Calmly.weaken (P := fun _ => True) ?_ (fun _ _ => trivial)
      (fun _ _ h => h))
    refine Calmly.bind (Q := fun _ _ => True)
      (calmly_onTrial (fun b _ _ => ⟨quietly_incidental _ _ _ _ _ _ _, trivial⟩)) (fun _ => ?_)
    refine (calmly_await kept_true (Q := fun _ _ => True) (fun _ _ _ _ _ => trivial)).bind
      (fun reply => ?_)
    refine Calmly.bind (Q := fun _ _ => True)
      (calmly_onTrial (fun b _ _ => ⟨quietly_incidental _ _ _ _ _ _ _, trivial⟩)) (fun _ => ?_)
    cases reply with
    | rejected => exact calmly_raise _
    | aborted => exact calmly_pure false (fun _ _ => trivial)
    | _ => exact calmly_pure true (fun _ _ => trivial)

/-- The rest of that time is read from the session, which may expire of it. -/
theorem quietly_caseSettleRemaining {t : Trial} (mode : CyrinxInstructionAction) (nowMs : ℕ) :
    Quietly options.trial prompt a t (leftTrial (sessionMethod (caseSettleRemaining mode nowMs) t)) := by
  unfold sessionMethod
  rcases caseSettleRemaining_cases mode nowMs t.session with ⟨fault, heq, hstate⟩ | ⟨remaining, heq⟩
  · rw [heq]
    exact quietly_look (hstate ▸ .refl t.session)
  · rw [heq]
    exact quietly_look (.refl t.session)

/-- A case that has not settled yet is waited for, and is current afterwards. -/
theorem calmly_settleCase (mode : CyrinxInstructionAction) (generation operation : ℕ) :
    Calmly options prompt a (fun _ => True) (settleCase options mode generation operation)
      (fun _ _ => True) := by
  refine calmly_catching ?_ (fun _ => (calmly_fallBackIf options _).bind
    (fun _ => calmly_pure false (fun _ _ => trivial)))
  refine (calmly_clock options (R := fun _ _ => True)).bind (fun nowMs => ?_)
  exact Calmly.bind (Q := fun _ _ => True)
    (calmly_attemptTrial (fun b _ _ => ⟨quietly_caseSettleRemaining options mode nowMs,
      fun _ _ => trivial⟩)) (calmly_waitForCyrinxSettle options)

end CalmMethods

section Agents

variable {prompt : Prop} {a : Actor} (options : BridgeServerOptions) (hagent : isAgent a = true)

/-- A calm method, as a method of moves. -/
theorem Calmly.toSafely {α : Type} {options : BridgeServerOptions} {P : Bridge → Prop}
    {Q : α → Bridge → Prop} {f : BridgeM α} (h : Calmly options prompt a P f Q) :
    Safely options prompt a P f Q :=
  (h.safely kept_true).weaken (fun _ hb => ⟨hb, trivial⟩) (fun _ _ hb => hb.1)

include hagent

/-- A method that begins is on record with the counters it begins with. -/
theorem safely_noteBegin (P : Trial → Prop) (hP : ∀ t, P (noteBegin a t) ↔ P t) :
    Safely options prompt a
      (fun b => b.trial.begun a = none ∧ b.trial.session.codec ≠ .idle ∧ P b.trial)
      (onTrial (noteBegin a)) (fun _ b => P b.trial ∧
        b.trial.begun a = some (b.trial.generation, b.trial.operationGeneration)) :=
  safely_onTrial (fun b _ ⟨hnone, hcodec, hrest⟩ =>
    ⟨.single (.begins hagent hnone hcodec), (hP _).mpr hrest, by simp [noteBegin]⟩)

/-- The start of Cyrinx begins an operation for its actor, which had none. -/
theorem safely_startCyrinx (hstarter : mayStart a = true) :
    Safely options prompt a (fun b => b.trial.begun a = none) (startCyrinx options a)
      (fun _ _ => True) := by
  unfold startCyrinx
  split
  · exact safely_raise _
  · refine ((calmly_clock options (R := fun _ t => t.begun a = none)).toSafely).bind
      (fun nowMs => ?_)
    refine Safely.bind (Q := fun _ _ => True) (safely_askTrial (fun b hb hnone =>
      ⟨moves_startTrial nowMs hb.poised hagent hnone hstarter, trivial⟩)) (fun started => ?_)
    refine Calmly.toSafely ?_
    cases started with
    | false =>
      exact (calmly_expireCyrinx options).bind (fun _ => calmly_cyrinxSummary options)
    | true =>
      refine calmly_current (fun b₀ _ => Calmly.weaken (P := fun _ => True) ?_ (fun _ _ => trivial)
        (fun _ _ h => h))
      refine (calmly_reportStage options _).bind (fun going => ?_)
      cases going with
      | true =>
        exact (calmly_catching (calmly_runStages options _)
          (fun _ => calmly_fallBackIf options _)).bind (fun _ => calmly_cyrinxSummary options)
      | false => exact calmly_cyrinxSummary options

/-- An instruction begins the case it names, once the case before has settled. The actor notes its
begin before anything is awaited. -/
theorem safely_acceptCyrinxInstruction (payload : List (String × Json)) :
    Safely options prompt a (fun b => b.trial.begun a = none)
      (acceptCyrinxInstruction options a payload) (fun _ _ => True) := by
  refine safely_current (fun b₀ hnone => ?_)
  split
  · exact safely_raise _
  · next hcodec =>
    rw [not_or, not_not] at hcodec
    have hstarted : b₀.trial.session.codec ≠ .idle := by
      rw [hcodec.1]
      simp
    refine Safely.bind (Q := fun _ b => b.trial.session.codec ≠ .idle ∧ b.trial.begun a ≠ none) ?_
      (fun _ => Calmly.toSafely ?_)
    · refine (safely_noteBegin options hagent (fun t => t.session.codec ≠ .idle)
        (fun _ => Iff.rfl)).weaken ?_ ?_
      · rintro b rfl
        exact ⟨hnone, hstarted, hstarted⟩
      · intro _ b hb
        rw [hb.2]
        exact ⟨hb.1, by simp⟩
    refine (calmly_clock options (R := fun _ t => t.session.codec ≠ .idle ∧
      t.begun a ≠ none)).bind (fun acceptedAt => ?_)
    refine Calmly.bind (((calmly_expireCyrinxAt options acceptedAt .sessionCall).keep
      kept_begun_ne).weaken
      (fun _ hb => ⟨fun _ => hb.1, hb.2⟩) (fun _ _ hb => hb)) (fun expired => ?_)
    cases expired with
    | true => exact calmly_pure () (fun _ _ => trivial)
    | false =>
      refine (calmly_orThrow _ (Q := fun _ b => (prompt →
        (expire acceptedAt b.trial.session).1 = false) ∧ b.trial.begun a ≠ none)
        (fun _ _ hb => ⟨hb.1 rfl rfl, hb.2⟩)).bind (fun request => ?_)
      refine Calmly.bind (Q := fun _ b => b.trial.begun a =
        some (b.trial.generation, b.trial.operationGeneration)) ?_ (fun accepted => ?_)
      · refine calmly_attemptTrial (fun b hb ⟨htime, hbegun⟩ => ?_)
        have hcases := acceptInstruction_cases options.trial.corpus (role options.trial) request.1
          request.2 acceptedAt b.trial.session hb.poised.wellFormed
        refine ⟨quietly_sessionMethod hb.poised htime hcases, fun r hr => ?_⟩
        obtain ⟨tag, htag⟩ := Option.ne_none_iff_exists'.mp hbegun
        rcases hcases with ⟨fault, heq, -⟩ | ⟨answer, heq, hprogress⟩
        · rw [sessionMethod, heq] at hr
          cases hr
        · rw [sessionMethod, heq] at hr
          cases hr
          exact htag.trans (congrArg some (hb.poised.fresh hprogress.underWay tag htag))
      · refine calmly_current (fun b₁ hbegun => ?_)
        refine calmly_catching ((calmly_beginCase options _ _ _).weaken ?_ (fun _ _ h => h))
          (fun _ => calmly_fallBackIf options _)
        rintro b rfl
        exact hbegun

/-- Acknowledge a completion after its report was awaited; the report of another fact stays. -/
theorem safely_acknowledge (completion : Completion) (fact : CaseFact) (operation : ℕ) :
    Safely options prompt a
      (fun b => sameGeneration completion.generation operation b = true ∧
        b.trial.begun a = some (completion.generation, operation) ∧
        (SettledSince options.trial completion.toCaseFact b.trial ∧
          SettledSince options.trial fact b.trial) ∧
        (Holds a completion b.trial ∨ Over b.trial.session))
      (attemptTrial acknowledgeTrial)
      (fun _ b => b.trial.begun a = some (completion.generation, operation) ∧
        completion.generation = b.trial.generation ∧
        operation = b.trial.operationGeneration ∧ SettledSince options.trial fact b.trial) := by
  refine safely_attemptTrial (fun b hb ⟨hsame, hbegun, ⟨hsettled, hother⟩, hholds⟩ => ?_)
  have hfresh := fresh_of_same hbegun hsame
  rw [sameGeneration_iff] at hsame
  have hdurable := durable_of_settledSince hsettled hb.poised hsame.1
  rcases acknowledgeTrial_cases completion hagent hb.poised hholds hfresh hdurable with
    ⟨refusal, heq⟩ | ⟨t, heq, hmoves, hbegun', hgeneration, hoperation, hwrites⟩
  · rw [heq]
    exact ⟨ReflTransGen.refl, fun r hr => by cases hr⟩
  · rw [heq]
    refine ⟨hmoves, fun r hr => ?_⟩
    cases hr
    refine ⟨hbegun' ▸ hbegun, hsame.1.trans hgeneration.symm, hsame.2.1.trans hoperation.symm, ?_⟩
    unfold SettledSince
    rw [hwrites]
    exact hother

omit hagent in
/-- Completing a case before the deadline: its actor holds the completion. Results stay. -/
theorem safely_completeTrial (mode : CyrinxInstructionAction) (generation operation completedAt : ℕ)
    (mark : ℕ) (R : Results → Prop) :
    Safely options prompt a
      (fun b => (sameGeneration generation operation b = true ∧
          (prompt → (expire completedAt b.trial.session).1 = false)) ∧
        b.trial.begun a = some (generation, operation) ∧ mark ≤ b.trial.writes.length ∧
        R b.trial.results)
      (attemptTrial (completeTrial options.trial a mode completedAt))
      (fun _ b => ∃ completion : Completion, completion.generation = generation ∧
        generation = b.trial.generation ∧ Recorded options.trial completion.toCaseFact b.trial ∧
        b.trial.begun a = some (generation, operation) ∧
        (Holds a completion b.trial ∨ Over b.trial.session) ∧ mark ≤ b.trial.writes.length ∧
        R b.trial.results) := by
  refine safely_attemptTrial (fun b hb ⟨⟨hsame, htime⟩, hbegun, hmark, hresults⟩ => ?_)
  rw [sameGeneration_iff] at hsame
  rcases completeTrial_cases mode completedAt hb.poised htime with ⟨refusal, t, heq, hquiet⟩ |
    ⟨t, completion, heq, hmoves, hbegun', hgeneration, -, hwrites, hkept, hholds, hbuilt, hrecorded⟩
  · rw [heq]
    exact ⟨hquiet.moves, fun r hr => by cases hr⟩
  · rw [heq]
    refine ⟨hmoves, fun r hr => ?_⟩
    cases hr
    have hnow : generation = t.generation := hsame.1.trans hgeneration.symm
    refine ⟨completion, hbuilt.trans hsame.1.symm, hnow, hrecorded, hbegun' ▸ hbegun, .inl hholds,
      ?_, ?_⟩
    · dsimp only
      rwa [hwrites]
    · dsimp only
      rwa [hkept]

/-- Facts that are kept while a completion is reported. -/
theorem kept_completing (completion : Completion) (tag : Option (ℕ × ℕ)) :
    Kept options prompt a (fun b => b.trial.begun a = tag ∧
      (Holds a completion b.trial ∨ Over b.trial.session)) :=
  (kept_begun tag).and (kept_holds hagent completion)

/-- A completion and another fact are reported; if the method is still current they may be
acknowledged. -/
theorem safely_reportCompletion {α : Type} (completion : Completion) (fact : CaseFact)
    (operation : ℕ) {next : Option ℕ → BridgeM α} {Q : α → Bridge → Prop}
    (hnext : ∀ at_, Safely options prompt a
      (fun b => (at_ ≠ none → sameGeneration completion.generation operation b = true) ∧
        b.trial.begun a = some (completion.generation, operation) ∧
        (SettledSince options.trial completion.toCaseFact b.trial ∧
          SettledSince options.trial fact b.trial) ∧
        (Holds a completion b.trial ∨ Over b.trial.session)) (next at_) Q) :
    Safely options prompt a
      (fun b => (completion.generation = b.trial.generation ∧
          Recorded options.trial completion.toCaseFact b.trial ∧
          Recorded options.trial fact b.trial) ∧
        b.trial.begun a = some (completion.generation, operation) ∧
        (Holds a completion b.trial ∨ Over b.trial.session))
      (do
        awaitPersist options (some completion.generation)
        let at_ ← stillCurrent options completion.generation operation
        next at_) Q := by
  have hkept : Kept options prompt a (fun b =>
      b.trial.begun a = some (completion.generation, operation) ∧
        (Holds a completion b.trial ∨ Over b.trial.session)) :=
    kept_completing options hagent completion (some (completion.generation, operation))
  refine Safely.bind ((((calmly_awaitPersist options (some completion.generation)
    completion.toCaseFact).and (calmly_awaitPersist options (some completion.generation)
      fact)).safely hkept).weaken (fun b hb => ?_) (fun _ _ hb => hb)) (fun _ => ?_)
  · have hexpected : (some completion.generation).all (· = b.trial.generation) = true := by
      simpa using hb.1.1
    exact ⟨⟨⟨hexpected, hb.1.2.1⟩, hexpected, hb.1.2.2⟩, hb.2⟩
  have hsettled : Kept options prompt a _ :=
    ((kept_settledSince completion.toCaseFact).and (kept_settledSince fact)).and hkept
  refine Safely.bind (((calmly_stillCurrent options completion.generation operation .turn).safely
    hsettled).weaken (fun b hb => ⟨trivial, hb⟩) (fun _ _ hb => hb)) (fun at_ => ?_)
  refine (hnext at_).weaken (fun b hb => ⟨fun hsome => ?_, hb.2.2.1, hb.2.1, hb.2.2.2⟩)
    (fun _ _ hb => hb)
  obtain ⟨nowMs, hnowMs⟩ := Option.ne_none_iff_exists'.mp hsome
  exact (hb.1 nowMs hnowMs).1

omit hagent in
/-- A method that is safe for each value is safe where there is one. -/
theorem safely_exists {α β : Type} {P : β → Bridge → Prop} {f : BridgeM α}
    {Q : α → Bridge → Prop} (h : ∀ x, Safely options prompt a (P x) f Q) :
    Safely options prompt a (fun b => ∃ x, P x b) f Q := by
  rintro b ⟨hb, x, hx⟩
  exact h x b ⟨hb, hx⟩

omit hagent in
/-- A fact that is not about the bridge. -/
theorem safely_given {α : Type} {c : Prop} {P : Bridge → Prop} {f : BridgeM α}
    {Q : α → Bridge → Prop} (h : c → Safely options prompt a P f Q) :
    Safely options prompt a (fun b => c ∧ P b) f Q :=
  fun b hb => h hb.2.1 b ⟨hb.1, hb.2.2⟩

/-- The end of a playback is accepted for the case that plays. The actor notes its begin, so that
what is overtaken later can be told. -/
theorem safely_completeCyrinxPlayback (payload : List (String × Json)) :
    Safely options prompt a (fun b => b.trial.begun a = none)
      (completeCyrinxPlayback options a payload) (fun _ _ => True) := by
  refine safely_current (fun b₀ hnone => ?_)
  split
  · exact safely_raise _
  · next hcodec =>
    rw [not_not] at hcodec
    refine Safely.bind (Q := fun _ b => b.trial.begun a =
      some (b.trial.generation, b.trial.operationGeneration)) ?_ (fun _ => ?_)
    · refine (safely_noteBegin options hagent (fun _ => True) (fun _ => Iff.rfl)).weaken ?_
        (fun _ _ hb => hb.2)
      rintro b rfl
      exact ⟨hnone, by rw [hcodec]; simp, trivial⟩
    refine (Calmly.toSafely (calmly_orThrow _ (fun _ _ hb => hb))).bind (fun request => ?_)
    refine safely_current (fun b₁ hbegun => ?_)
    split
    · exact safely_raise _
    · next value _ =>
      split
      · exact safely_raise _
      · dsimp only
        have hkept : Kept options prompt a _ :=
          kept_begun (some (b₁.trial.generation, b₁.trial.operationGeneration))
        refine Safely.bind (((calmly_settleCase options .transmit b₁.trial.generation
          b₁.trial.operationGeneration).safely hkept).weaken
            (by rintro b rfl; exact ⟨trivial, hbegun⟩) (fun _ _ hb => hb.2)) (fun settled => ?_)
        cases settled with
        | false => exact safely_pure () (fun _ _ => trivial)
        | true =>
          refine Safely.bind (((calmly_stillCurrent options b₁.trial.generation
            b₁.trial.operationGeneration .sessionCall).safely hkept).weaken
              (fun _ hb => ⟨trivial, hb⟩) (fun _ _ hb => hb)) (fun at_ => ?_)
          cases at_ with
          | none => exact safely_pure () (fun _ _ => trivial)
          | some completedAt =>
            refine Safely.bind ((safely_completeTrial options .transmit b₁.trial.generation
              b₁.trial.operationGeneration completedAt 0 (fun _ => True)).weaken
                (fun _ hb => ⟨⟨(hb.1 _ rfl).1, (hb.1 _ rfl).2 rfl⟩, hb.2, Nat.zero_le _, trivial⟩)
                (fun _ _ hb => hb)) (fun _ => safely_exists options (fun completion => ?_))
            refine safely_given options (fun hgeneration => ?_)
            rw [← hgeneration]
            refine (safely_reportCompletion options hagent completion completion.toCaseFact
              b₁.trial.operationGeneration (fun at_ => ?_)).weaken
                (fun _ hb => ⟨⟨hb.1, hb.2.1, hb.2.1⟩, hb.2.2.1, hb.2.2.2.1⟩) (fun _ _ hb => hb)
            cases at_ with
            | none => exact safely_pure () (fun _ _ => trivial)
            | some _ =>
              refine Safely.bind ((safely_acknowledge options hagent completion _ _).weaken
                (fun _ hb => ⟨hb.1 (by simp), hb.2⟩) (fun _ _ hb => hb)) (fun _ => ?_)
              exact (Calmly.toSafely (calmly_broadcastSession options)).weaken
                (fun _ _ => trivial) (fun _ _ _ => trivial)

/-- The result of a case of the corpus is among those a report tells of. -/
def ResultKept (value : CyrinxQualificationCase) (results : Results) : Prop :=
  value.cold = false → isExpected options.trial value.id = true ∧ results.lookup value.id ≠ none

omit hagent in
/-- A result is kept by an actor whose counters are current, and the session stays as it is. A
result that is refused calls for the fallback instead. -/
theorem calmly_recordCase (value : CyrinxQualificationCase) (native : CyrinxResult String)
    (generation operation mark : ℕ) (P : CyrinxQualificationSession → Prop) :
    Calmly options prompt a
      (fun b => (sameGeneration generation operation b = true ∧ P b.trial.session) ∧
        b.trial.begun a = some (generation, operation) ∧ mark ≤ b.trial.writes.length)
      (recordCase options value native)
      (fun going b => going = true →
        (sameGeneration generation operation b = true ∧ P b.trial.session) ∧
        b.trial.begun a = some (generation, operation) ∧ mark ≤ b.trial.writes.length ∧
        ResultKept options value b.trial.results) := by
  refine calmly_current (fun b₀ hfacts => ?_)
  have hfall : Calmly options prompt a (fun _ => True)
      (do
        activateCurrentFallback options false
        pure false)
      (fun going b => going = true →
        (sameGeneration generation operation b = true ∧ P b.trial.session) ∧
        b.trial.begun a = some (generation, operation) ∧ mark ≤ b.trial.writes.length ∧
        ResultKept options value b.trial.results) :=
    (calmly_activateCurrentFallback options false).bind
      (fun _ => calmly_pure false (fun _ _ h => by cases h))
  split
  · next hcold =>
    refine calmly_pure true ?_
    rintro b rfl _
    refine ⟨hfacts.1, hfacts.2.1, hfacts.2.2, fun hwarm => ?_⟩
    rw [hwarm] at hcold
    cases hcold
  · split
    · exact hfall.weaken (fun _ _ => trivial) (fun _ _ hb => hb)
    · next hexpected =>
      rw [Bool.not_eq_true', Bool.not_eq_false] at hexpected
      split
      · exact Calmly.bind (Q := fun _ _ => True)
          (calmly_onTrial (fun b _ _ => ⟨quietly_addFailure _ _, trivial⟩)) (fun _ => hfall)
      · next hnew =>
        rw [Option.not_isSome_iff_eq_none] at hnew
        refine Calmly.bind (Q := fun _ b =>
          (sameGeneration generation operation b = true ∧ P b.trial.session) ∧
          b.trial.begun a = some (generation, operation) ∧ mark ≤ b.trial.writes.length ∧
          ResultKept options value b.trial.results)
          (calmly_onTrial (fun b hb heq => ?_)) (fun _ => calmly_pure true (fun _ hb _ => hb))
        subst heq
        have hfresh := fresh_of_same hfacts.2.1 hfacts.1.1
        have hcodec : b.trial.session.codec = .cyrinx := (sameGeneration_iff.mp hfacts.1.1).2.2
        refine ⟨?_, hfacts.1, hfacts.2.1, hfacts.2.2, fun _ => ⟨hexpected, ?_⟩⟩
        · rw [hcodec]
          exact quietly_of_move (.recordNative hcodec hfresh rfl hnew) rfl rfl (.inl rfl)
        · dsimp only [recordResult, nativeResult]
          rw [lookup_setResult]
          simp

/-- A result is answered by an actor whose counters are current, together with its
acknowledgement. -/
theorem safely_answerCapture (socket epoch : ℕ) (value : CyrinxQualificationCase)
    (fact : CaseFact) (operation : ℕ) (hcase : fact.caseId = value.id)
    (hresult : value.cold = false → fact.record.result ≠ none) :
    Safely options prompt a
      (fun b => b.trial.begun a = some (fact.generation, operation) ∧
        fact.generation = b.trial.generation ∧ operation = b.trial.operationGeneration ∧
        SettledSince options.trial fact b.trial)
      (acknowledge socket (.cyrinxResult epoch value.id value.direction value.cold)
        ⟨fact, .cyrinxResult⟩) (fun _ _ => True) := by
  refine safely_change (fun b hb ⟨hbegun, hgeneration, hoperation, hsettled⟩ => ⟨.single ?_, trivial⟩)
  have hfresh : Fresh a b.trial := by
    intro tag htag
    rw [hbegun] at htag
    cases htag
    rw [← hgeneration, ← hoperation]
  have hdurable := durable_of_settledSince hsettled hb.poised hgeneration
  rw [← hcase]
  exact .results socket epoch value.direction value.cold ⟨fact, .cyrinxResult⟩ rfl hagent hfresh
    hdurable hgeneration hresult

/-- A capture whose report was written is acknowledged in the session and told to the browser.
Between the result and both lies the wait for the report, over which the counters have to stand. -/
theorem safely_concludeCapture (socket : ℕ) (value : CyrinxQualificationCase)
    (native : CyrinxResult String) (generation operation completedAt : ℕ) :
    Safely options prompt a
      (fun b => (sameGeneration generation operation b = true ∧
          (prompt → (expire completedAt b.trial.session).1 = false)) ∧
        b.trial.begun a = some (generation, operation))
      (concludeCapture options a socket value native generation operation completedAt)
      (fun _ _ => True) := by
  refine safely_current (fun b₀ hfacts => ?_)
  dsimp only
  generalize hmark : b₀.trial.writes.length = mark
  refine Safely.bind (Calmly.toSafely ((calmly_recordCase options value native generation operation
    mark (fun c => prompt → (expire completedAt c).1 = false)).weaken
      (by rintro b rfl; exact ⟨hfacts.1, hfacts.2, hmark.ge⟩) (fun _ _ hb => hb)))
    (fun going => ?_)
  cases going with
  | false => exact safely_pure () (fun _ _ => trivial)
  | true =>
    refine Safely.bind ((safely_completeTrial options .listen generation operation completedAt mark
      (ResultKept options value)).weaken (fun _ hb => hb rfl) (fun _ _ hb => hb))
      (fun _ => safely_exists options (fun completion => safely_given options (fun hbuilt => ?_)))
    subst hbuilt
    refine safely_current (fun b₁ ⟨hnow, hrecorded, hbegun, hholds, hlater, hkept⟩ => ?_)
    generalize hrecord : caseRecord options.trial value.id b₁.trial = record
    have hfact : Recorded options.trial ⟨value.id, mark, completion.generation, record⟩ b₁.trial :=
      ⟨hlater, hnow.le, hrecord ▸ records_caseRecord value.id mark completion.generation b₁.trial⟩
    have hresult : value.cold = false → record.result ≠ none := by
      intro hwarm
      obtain ⟨hexpected, hlookup⟩ := hkept hwarm
      rw [← hrecord, caseRecord, if_pos hexpected]
      exact hlookup
    refine (safely_reportCompletion options hagent completion
      ⟨value.id, mark, completion.generation, record⟩ operation (fun at_ => ?_)).weaken
        (by rintro b rfl; exact ⟨⟨hnow, hrecorded, hfact⟩, hbegun, hholds⟩) (fun _ _ hb => hb)
    cases at_ with
    | none => exact safely_pure () (fun _ _ => trivial)
    | some _ =>
      refine Safely.bind ((safely_acknowledge options hagent completion _ operation).weaken
        (fun _ hb => ⟨hb.1 (by simp), hb.2⟩) (fun _ _ hb => hb))
        (fun _ => safely_current (fun b₂ hacknowledged => ?_))
      have hbroadcast : Safely options prompt a (fun _ => True) (broadcastSession options)
        (fun _ _ => True) := (calmly_broadcastSession options).toSafely
      split
      · exact ((safely_answerCapture options hagent socket _ value _ operation rfl hresult).weaken
          (by rintro b rfl; exact hacknowledged) (fun _ _ hb => hb)).bind (fun _ => hbroadcast)
      · exact hbroadcast.weaken (fun _ _ => trivial) (fun _ _ hb => hb)

/-- The result of the native worker is kept, reported and concluded for the case of the capture. -/
theorem safely_useCapture (socket : ℕ) (native : CyrinxResult String) (generation operation : ℕ) :
    Safely options prompt a (fun b => b.trial.begun a = some (generation, operation))
      (useCapture options a socket native generation operation) (fun _ _ => True) := by
  have hkept : Kept options prompt a _ := kept_begun (some (generation, operation))
  have hstill : ∀ next, Safely options prompt a
      (fun b => b.trial.begun a = some (generation, operation))
      (stillCurrent options generation operation next) (fun at_ b =>
        Current prompt next generation operation at_ b ∧
        b.trial.begun a = some (generation, operation)) := fun next =>
    ((calmly_stillCurrent options generation operation next).safely hkept).weaken
      (fun _ hb => ⟨trivial, hb⟩) (fun _ _ hb => hb)
  refine (hstill .turn).bind (fun at_ => ?_)
  cases at_ with
  | none => exact safely_pure () (fun _ _ => trivial)
  | some _ =>
    refine safely_current (fun b₀ hfacts => ?_)
    split
    · exact (calmly_activateCurrentFallback options false).toSafely.weaken (fun _ _ => trivial)
        (fun _ _ hb => hb)
    · next value _ =>
      refine Safely.bind (((calmly_settleCase options .listen generation operation).safely
        hkept).weaken (by rintro b rfl; exact ⟨trivial, hfacts.2⟩) (fun _ _ hb => hb.2))
        (fun settled => ?_)
      cases settled with
      | false => exact safely_pure () (fun _ _ => trivial)
      | true =>
        refine (hstill .sessionCall).bind (fun at_ => ?_)
        cases at_ with
        | none => exact safely_pure () (fun _ _ => trivial)
        | some completedAt =>
          exact (safely_concludeCapture options hagent socket value native generation operation
            completedAt).weaken (fun _ hb => ⟨⟨(hb.1 _ rfl).1, (hb.1 _ rfl).2 rfl⟩, hb.2⟩)
              (fun _ _ hb => hb)

omit hagent in
/-- A capture can be received only while the session is under way. -/
theorem not_over_of_canReceiveCapture {t : Trial} (hp : Poised t) (hbegun : t.begun a ≠ none)
    (hcan : canReceiveCapture t.session = true) : ¬Over t.session := by
  obtain ⟨tag, htag⟩ := Option.ne_none_iff_exists'.mp hbegun
  simp only [canReceiveCapture, Bool.and_eq_true, Bool.not_eq_true'] at hcan
  have hopen := hcan.2
  rw [Bool.eq_false_iff, ne_eq, terminal_iff, not_or, not_or] at hopen
  rintro (hquiet | hunqualified | ⟨-, hcomplete, -⟩)
  · exact hopen.2.1 (hp.wellFormed.quiet.mp hquiet)
  · exact hopen.2.2 (hp.wellFormed.unqualified.mp hunqualified)
  · exact hopen.1 hcomplete

/-- The samples of a capture are complete, and the worker is asked for their result. Its answer is
used under the counters of the call. -/
theorem safely_acceptCyrinxCapture (socket : ℕ) :
    Safely options prompt a (fun b => b.trial.begun a = none)
      (acceptCyrinxCapture options a socket) (fun _ _ => True) := by
  refine safely_current (fun b₀ hnone => ?_)
  split
  · exact safely_pure () (fun _ _ => trivial)
  · next hcodec =>
    rw [not_not] at hcodec
    refine Safely.bind (Q := fun _ b => b.trial.begun a ≠ none) ?_ (fun _ => ?_)
    · refine (safely_noteBegin options hagent (fun _ => True) (fun _ => Iff.rfl)).weaken ?_
        (fun _ _ hb => by rw [hb.2]; simp)
      rintro b rfl
      exact ⟨hnone, by rw [hcodec]; simp, trivial⟩
    refine Safely.bind (((calmly_expireCyrinx options).safely kept_begun_ne).weaken
      (fun _ hb => ⟨trivial, hb⟩) (fun _ _ hb => hb.2)) (fun expired => ?_)
    cases expired with
    | true => exact safely_pure () (fun _ _ => trivial)
    | false =>
      refine safely_current (fun b₁ hbegun => ?_)
      split
      · exact safely_pure () (fun _ _ => trivial)
      · next hcan =>
        rw [not_or, Bool.not_eq_true', Bool.not_eq_false] at hcan
        intro b ⟨hb, heq⟩
        subst heq
        obtain ⟨tag, htag⟩ := Option.ne_none_iff_exists'.mp hbegun
        have hover := not_over_of_canReceiveCapture hb.poised hbegun hcan.1
        have htag' : b.trial.begun a =
            some (b.trial.generation, b.trial.operationGeneration) :=
          htag.trans (congrArg some (hb.poised.fresh hover tag htag))
        have hcapture : Kept options prompt a _ :=
          kept_begun (some (b.trial.generation, b.trial.operationGeneration))
        refine (Safely.bind (Calmly.toSafely (calmly_await hcapture (fun _ _ _ h _ => h)))
          (fun reply => ?_)) b ⟨hb, htag'⟩
        cases reply with
        | result native =>
          cases native with
          | none => exact safely_pure () (fun _ _ => trivial)
          | some native => exact safely_useCapture options hagent socket native _ _
        | _ =>
          exact (calmly_fallBackIf options _).toSafely.weaken (fun _ _ => trivial)
            (fun _ _ hb => hb)

end Agents

end Fipwave.BridgeMoves
