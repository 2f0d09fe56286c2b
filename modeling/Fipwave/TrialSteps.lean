import Fipwave.TrialMoves

/-!
# The functions of a qualification as moves

What each function of the qualification does is a sequence of moves of the
actor that calls it. Most of them are quiet: they begin nothing and leave a
completion of the actor to be acknowledged, unless the session ends. An
effect on a session that is not over is one of an actor whose counters are
current.
-/

namespace Fipwave.TrialMoves

open Relation FwavProtocol QualificationSession BridgePorts BridgeReport BridgeTrial

/-- Moves of one actor after another. -/
def Moves (options : TrialOptions) (prompt : Prop) (a : Actor) : Trial → Trial → Prop :=
  ReflTransGen (TrialMove options prompt a)

/-- The qualification a function leaves on either exit. -/
def leftTrial {α : Type} : Except (Refusal × Trial) (α × Trial) → Trial
  | .ok r => r.2
  | .error e => e.2

/-- Moves that begin nothing and take no completion from the actor. -/
structure Quietly (options : TrialOptions) (prompt : Prop) (a : Actor) (t t' : Trial) : Prop where
  /-- They are moves. -/
  moves : Moves options prompt a t t'
  /-- Nobody begins. -/
  begun : t'.begun = t.begun
  /-- A completion stays, unless the session is over. -/
  holds : Poised t → ∀ completion, Holds a completion t →
    Holds a completion t' ∨ Over t'.session

section Quiet

variable {options : TrialOptions} {prompt : Prop} {a : Actor} {t t' t'' : Trial}

/-- A section keeps a trial poised, by induction on its moves. -/
theorem Moves.poised (h : Moves options prompt a t t') (hp : Poised t) : Poised t' := by
  induction h with
  | refl => exact hp
  | tail _ hmove ih => exact hmove.poised ih

/-- A trial that is over stays over during a section. -/
theorem Moves.over (h : Moves options prompt a t t') (hp : Poised t) (hover : Over t.session) :
    Over t'.session := by
  induction h with
  | refl => exact hover
  | tail hmoves hmove ih => exact hmove.change.over (Moves.poised hmoves hp).wellFormed ih

theorem Quietly.refl (options : TrialOptions) (prompt : Prop) (a : Actor) (t : Trial) :
    Quietly options prompt a t t :=
  ⟨.refl, rfl, fun _ _ h => .inl h⟩

theorem Quietly.trans (h : Quietly options prompt a t t') (h' : Quietly options prompt a t' t'') :
    Quietly options prompt a t t'' := by
  refine ⟨ReflTransGen.trans h.moves h'.moves, h'.begun.trans h.begun, ?_⟩
  intro hp completion hholds
  have hp' := h.moves.poised hp
  rcases h.holds hp completion hholds with hholds | hover
  · exact h'.holds hp' completion hholds
  · exact .inr (h'.moves.over hp' hover)

/-- A move that neither begins nor completes nor acknowledges. -/
theorem quietly_of_move (h : TrialMove options prompt a t t') (hbegun : t'.begun = t.begun)
    (hcompletion : t'.completion = t.completion)
    (hpending : t'.session.pendingCompletionReason = t.session.pendingCompletionReason ∨
      Over t'.session) : Quietly options prompt a t t' := by
  refine ⟨.single h, hbegun, ?_⟩
  intro _ completion hholds
  rcases hpending with hsame | hover
  · exact .inl ⟨hholds.1, hcompletion.trans hholds.2.1, hsame ▸ hholds.2.2⟩
  · exact .inr hover

/-- What nothing else rests on may change at any time. -/
theorem quietly_incidental (t : Trial) (settleAbort : Option ℕ) (controllerCount : ℕ)
    (cyrinxExpiryTimer : Bool) (audio : Option BrowserAudio) (failureReasons : List String)
    (microtasks : ℕ) : Quietly options prompt a t { t with
      settleAbort, controllerCount, cyrinxExpiryTimer, audio, failureReasons, microtasks } :=
  quietly_of_move (.incidental t _ _ _ _ _ _) rfl rfl (.inl rfl)

/-- A look at the clock is quiet. -/
theorem quietly_look {c : CyrinxQualificationSession} (h : Looked t.session c) :
    Quietly options prompt a t { t with session := c } :=
  quietly_of_move (.look h) rfl rfl (.inl (by rw [h]))

/-- A fallback is quiet if no counter goes back, and where everybody is prompt it begins a new
generation. -/
theorem quietly_fall {c : CyrinxQualificationSession} (h : Fell t.session c) (hp : Poised t)
    (g o : ℕ) (hg : t.generation ≤ g) (ho : t.operationGeneration ≤ o)
    (hprompt : prompt → t.generation < g) :
    Quietly options prompt a t { t with session := c, generation := g, operationGeneration := o } :=
  quietly_of_move (.fall h (hp.fresh h.underWay) hg ho hprompt) rfl rfl (.inr h.over)

/-- A call of the session throws. It may have found the session expired, and nobody begins a
generation then; where everybody is prompt it cannot. -/
theorem quietly_fellOrLooked {c : CyrinxQualificationSession} {nowMs : ℕ}
    (h : FellOrLooked nowMs t.session c) (hp : Poised t)
    (htime : prompt → (expire nowMs t.session).1 = false) :
    Quietly options prompt a t { t with session := c } := by
  rcases h with ⟨hexpired, h⟩ | h
  · refine quietly_fall h hp t.generation t.operationGeneration le_rfl le_rfl (fun hprompt => ?_)
    have hopen := htime hprompt
    rw [hexpired] at hopen
    cases hopen
  · exact quietly_look h

/-- A failure is noted once. -/
theorem quietly_addFailure (reason : String) (t : Trial) :
    Quietly options prompt a t (addFailure reason t) :=
  quietly_incidental t _ _ _ _ _ _

/-- The reason to fall back is noted as a failure. -/
theorem quietly_addFallbackReason (t : Trial) : Quietly options prompt a t (addFallbackReason t) := by
  unfold addFallbackReason
  split
  · exact .refl options prompt a t
  · exact quietly_addFailure _ t

/-- A generation that begins because the session fell. -/
theorem quietly_beginGeneration {c : CyrinxQualificationSession} (h : Fell t.session c)
    (hp : Poised t) (abort : Bool) : Quietly options prompt a t (beginGeneration abort c t) := by
  unfold beginGeneration clearCyrinxTimer
  cases abort with
  | true =>
    exact (quietly_fall h hp _ _ (Nat.le_succ _) (Nat.le_succ _) (fun _ => Nat.lt_succ_self _)).trans
      (quietly_incidental _ none t.controllerCount false t.audio t.failureReasons t.microtasks)
  | false =>
    exact (quietly_fall h hp _ t.operationGeneration (Nat.le_succ _) le_rfl
      (fun _ => Nat.lt_succ_self _)).trans
      (quietly_incidental _ t.settleAbort t.controllerCount false t.audio t.failureReasons
        t.microtasks)

/-- The question about the deadline may find the session expired. -/
theorem quietly_settleExpiry (nowMs : ℕ) (hp : Poised t) :
    Quietly options prompt a t (settleExpiry nowMs t).2 := by
  have hcases := fallsOrLooks_expire nowMs t.session
  unfold settleExpiry
  split
  · next session heq =>
    rw [heq] at hcases
    exact quietly_look (hcases.resolve_left (fun h => by cases h.1)).2
  · next session heq =>
    rw [heq] at hcases
    have hfell := (hcases.resolve_right (fun h => by cases h.1)).2
    exact (quietly_beginGeneration hfell hp true).trans (quietly_addFailure _ _)

/-- What an expiry does not touch. -/
theorem settleExpiry_spec (nowMs : ℕ) (t : Trial) :
    (settleExpiry nowMs t).2.writes = t.writes ∧
      (settleExpiry nowMs t).2.results = t.results ∧
      ((settleExpiry nowMs t).1 = false →
        (settleExpiry nowMs t).2.generation = t.generation) ∧
      t.generation ≤ (settleExpiry nowMs t).2.generation := by
  unfold settleExpiry
  split
  · exact ⟨rfl, rfl, fun _ => rfl, le_rfl⟩
  · exact ⟨rfl, rfl, nofun, Nat.le_succ _⟩

/-- What an expiry makes of the session. -/
theorem session_settleExpiry (nowMs : ℕ) (t : Trial) :
    (settleExpiry nowMs t).1 = (expire nowMs t.session).1 ∧
      (settleExpiry nowMs t).2.session = (expire nowMs t.session).2 := by
  unfold settleExpiry
  split
  · next session heq => rw [heq]; exact ⟨rfl, rfl⟩
  · next session heq => rw [heq]; exact ⟨rfl, rfl⟩

/-- The session is made to expire, unless it is over. -/
theorem quietly_forceExpire (nowMs : ℕ) (hp : Poised t) :
    Quietly options prompt a t (forceExpire nowMs t).2 := by
  have hcases := fallsOrLooks_forceDeadlineExpiry nowMs t.session
  unfold forceExpire
  split
  · next session heq =>
    rw [heq] at hcases
    exact quietly_look (hcases.resolve_left (fun h => by cases h.1)).2
  · next session heq =>
    rw [heq] at hcases
    have hfell := (hcases.resolve_right (fun h => by cases h.1)).2
    exact (quietly_beginGeneration hfell hp true).trans (quietly_addFailure _ _)

/-- The first transition after a fallback begins Quiet, and the next ones do nothing. -/
theorem quietly_transitionCurrentFallback (pre : Bool) (nowMs : ℕ) (hp : Poised t) :
    Quietly options prompt a t (leftTrial (transitionCurrentFallback pre nowMs t)) := by
  unfold transitionCurrentFallback
  split
  · exact .refl options prompt a t
  · rcases failCurrent_cases nowMs t.session with ⟨fault, heq, hstate⟩ | ⟨⟨fell, c⟩, heq, hcases⟩
    · rw [heq]
      exact quietly_look (hstate ▸ .refl t.session)
    · rw [heq]
      cases fell with
      | true =>
        have hfell := (hcases.resolve_right (fun h => by cases h.1)).2
        exact (quietly_beginGeneration hfell hp (!pre)).trans (quietly_addFallbackReason _)
      | false => exact quietly_look (hcases.resolve_left (fun h => by cases h.1)).2

/-- To ask for the state at a time is to look at the clock. -/
theorem looked_lookAt (nowMs : ℕ) (c : CyrinxQualificationSession) :
    Looked c (lookAt nowMs c) := by
  unfold lookAt
  split
  · exact looked_elapsed _ nowMs c
  · exact .refl c

/-- Looking twice at the same time is looking once. -/
theorem lookAt_lookAt (nowMs : ℕ) (c : CyrinxQualificationSession) :
    lookAt nowMs (lookAt nowMs c) = lookAt nowMs c := by
  cases hstarted : c.startedAtMs with
  | none => simp [lookAt, hstarted]
  | some startedAtMs =>
    cases hterminal : c.terminalElapsedMs with
    | none => simp [lookAt, elapsed, hstarted, hterminal]
    | some value => simp [lookAt, hstarted, hterminal]

/-- A snapshot asks about the deadline before it shows anything. -/
theorem quietly_sessionSnapshot (epoch nowMs : ℕ) (t : Trial) :
    Quietly options prompt a t (sessionSnapshot options epoch nowMs t).2 := by
  unfold sessionSnapshot
  split
  · exact .refl options prompt a t
  · exact quietly_look (looked_lookAt nowMs t.session)

/-- A report is built where the bridge is configured for it, and nothing is otherwise. -/
theorem reportNow_cases (options : TrialOptions) (epoch discontinuities nowMs : ℕ) (t : Trial) :
    (reportNow options epoch discontinuities nowMs t = (none, t) ∧
        (options.config = none ∨ options.reportAuthority = none)) ∨
      ∃ report, reportNow options epoch discontinuities nowMs t =
          (some report, { t with session := lookAt nowMs t.session }) ∧
        Built options report { t with session := lookAt nowMs t.session } := by
  unfold reportNow
  split
  · next config authority hconfig hauthority =>
    refine .inr ⟨_, rfl, config, authority, epoch, discontinuities, nowMs, hconfig, hauthority,
      lookAt_lookAt nowMs t.session, ?_⟩
    simp only [snapshot, lookAt_lookAt]
  · next hnone =>
    refine .inl ⟨rfl, ?_⟩
    cases hconfig : options.config with
    | none => exact .inl rfl
    | some config =>
      cases hauthority : options.reportAuthority with
      | none => exact .inr rfl
      | some authority => exact absurd hauthority (hnone config authority hconfig)

/-- A report that was built is queued for the writer. -/
theorem quietly_chain {report : MachineReport} (expired : Bool) (h : Built options report t) :
    Quietly options prompt a t (chainWrite report t.generation expired t) :=
  quietly_of_move (.chain expired h) rfl rfl (.inl rfl)

/-- What is on record is as a fact has it. -/
structure Records (options : TrialOptions) (fact : CaseFact) (t : Trial) : Prop where
  /-- The result of the case, which the runner listens to. -/
  result : ∀ recorded, fact.record.result = some recorded →
    isExpected options fact.caseId = true ∧ t.results.lookup fact.caseId = some recorded
  /-- The cold case. -/
  cold : fact.record.coldReceivePassed = true →
    t.session.codec ≠ .idle ∧ t.session.coldReceivePassed = true

/-- A fact that says nothing of a case. -/
def blankFact (mark generation : ℕ) : CaseFact := ⟨"", mark, generation, ⟨none, false⟩⟩

/-- Every trial records the fact of no case. -/
theorem records_blankFact (mark generation : ℕ) (t : Trial) :
    Records options (blankFact mark generation) t :=
  ⟨by simp [blankFact], by simp [blankFact]⟩

/-- What is on record of a case is on record. -/
theorem records_caseRecord (caseId : String) (mark generation : ℕ) (t : Trial) :
    Records options ⟨caseId, mark, generation, caseRecord options caseId t⟩ t := by
  refine ⟨fun recorded hrecorded => ?_, fun hcold => ?_⟩
  · simp only [caseRecord] at hrecorded
    split at hrecorded
    · next hexpected => exact ⟨hexpected, hrecorded⟩
    · cases hrecorded
  · simpa [caseRecord] using hcold

/-- Results and cold cases stay on record while the session looks at the clock or falls back. -/
theorem Records.session {fact : CaseFact} (h : Records options fact t)
    (hresults : t'.results = t.results) (hcodec : t.session.codec ≠ .idle → t'.session.codec ≠ .idle)
    (hcold : t'.session.coldReceivePassed = t.session.coldReceivePassed) :
    Records options fact t' := by
  refine ⟨fun recorded hrecorded => ?_, fun hpassed => ?_⟩
  · rw [hresults]
    exact h.result recorded hrecorded
  · rw [hcold]
    exact ⟨hcodec (h.cold hpassed).1, (h.cold hpassed).2⟩

/-- What is on record stays so when the session expires. -/
theorem Records.settleExpiry {fact : CaseFact} (h : Records options fact t) (nowMs : ℕ) :
    Records options fact (settleExpiry nowMs t).2 := by
  have hsession := (session_settleExpiry nowMs t).2
  have hresults := (settleExpiry_spec nowMs t).2.1
  rcases fallsOrLooks_expire nowMs t.session with ⟨-, hfell⟩ | ⟨-, hlook⟩
  · refine h.session hresults (fun _ => ?_) ?_
    · rw [hsession, hfell.fallen]
      simp
    · rw [hsession, hfell.fallen]
  · refine h.session hresults (fun hcodec => ?_) ?_
    · rw [hsession, hlook.codec]
      exact hcodec
    · rw [hsession, hlook]

/-- A report that is built of the record shows it. -/
theorem Records.shows {fact : CaseFact} {report : MachineReport} (h : Records options fact t)
    (hbuilt : Built options report t) : Shows report fact := by
  obtain ⟨config, authority, epoch, discontinuities, nowMs, hconfig, -, -, rfl⟩ := hbuilt
  refine ⟨fun recorded hrecorded => ?_, fun hpassed => ?_⟩
  · obtain ⟨hexpected, hlookup⟩ := h.result recorded hrecorded
    have hrole : role options = config.role := by simp [role, hconfig]
    simp only [isExpected, expected, hrole, List.any_eq_true, decide_eq_true_eq] at hexpected
    obtain ⟨entry, hentry, hid⟩ := hexpected
    refine ⟨_, List.mem_map.mpr ⟨entry, hentry, rfl⟩, ?_⟩
    unfold canonicalResult evidenceOf
    rw [hid, hlookup]
    exact ⟨rfl, rfl, rfl⟩
  · obtain ⟨hcodec, hcold⟩ := h.cold hpassed
    have hpublished : (snapshot options.corpus config.role epoch nowMs t.session).1.codec =
        t.session.codec := (looked_lookAt nowMs t.session).codec
    simp only [buildReport, reportQualification, evidenceOf, hpublished]
    cases hcase : t.session.codec with
    | idle => exact absurd hcase hcodec
    | _ => exact hcold

/-- The report a method waits for is of its generation or of a later one, and shows its fact. -/
def Awaits (options : TrialOptions) (fact : CaseFact) (index : Option ℕ) (t : Trial) : Prop :=
  match index with
  | none => options.config = none ∨ options.reportAuthority = none
  | some n => fact.mark ≤ n ∧ ∃ task, t.writes[n]? = some task ∧ fact.generation ≤ task.builtIn ∧
      Shows task.report fact

/-- A fact that is still on record. -/
structure Recorded (options : TrialOptions) (fact : CaseFact) (t : Trial) : Prop where
  /-- Its mark is not ahead of the reports. -/
  mark : fact.mark ≤ t.writes.length
  /-- Its generation has begun. -/
  generation : fact.generation ≤ t.generation
  /-- It is on record. -/
  records : Records options fact t

/-- Persisting builds a report in the generation it is for, and the report shows what is on
record. -/
theorem persist_spec (expectedGeneration : Option ℕ) (epoch discontinuities nowMs : ℕ)
    {fact : CaseFact} (hp : Poised t) (hexpected : expectedGeneration.all (· = t.generation))
    (hfact : Recorded options fact t) :
    Quietly options prompt a t
        (persist options expectedGeneration epoch discontinuities nowMs t).2 ∧
      Awaits options fact
        (persist options expectedGeneration epoch discontinuities nowMs t).1
        (persist options expectedGeneration epoch discontinuities nowMs t).2 := by
  have hexpiry : Quietly options prompt a t _ := quietly_settleExpiry nowMs hp
  obtain ⟨hwrites, -, hsame, hle⟩ := settleExpiry_spec nowMs t
  have hrecords := hfact.records.settleExpiry nowMs
  unfold persist
  rcases hsettled : settleExpiry nowMs t with ⟨expired, u⟩
  rw [hsettled] at hexpiry hwrites hsame hle hrecords
  have hgeneration : (if expired then u.generation else expectedGeneration.getD u.generation) =
      u.generation := by
    cases expired with
    | true => rfl
    | false =>
      cases expectedGeneration with
      | none => rfl
      | some g =>
        rw [hsame rfl]
        simpa using hexpected
  dsimp only at hexpiry hwrites hle hrecords ⊢
  rw [hgeneration]
  rcases reportNow_cases options epoch discontinuities nowMs u with
    ⟨heq, hnone⟩ | ⟨report, heq, hbuilt⟩
  · rw [heq]
    refine ⟨?_, hnone⟩
    dsimp only
    split
    · exact hexpiry.trans (quietly_incidental _ _ _ _ _ _ _)
    · exact hexpiry
  · rw [heq]
    dsimp only
    have hlook := looked_lookAt nowMs u.session
    have hlooked : Records options fact { u with session := lookAt nowMs u.session } :=
      hrecords.session rfl (fun hcodec => by rwa [hlook.codec]) (by rw [hlook])
    refine ⟨(hexpiry.trans (quietly_look hlook)).trans (quietly_chain expired hbuilt),
      hfact.mark.trans (congrArg List.length hwrites).ge, ?_⟩
    exact ⟨_, List.getElem?_concat_length, hfact.generation.trans hle, hlooked.shows hbuilt⟩

/-- A method of the session by which it goes on, or which throws. -/
theorem quietly_sessionMethod {α : Type} {f : CyrinxQualificationSession → SessionOutcome α}
    {nowMs : ℕ} (hp : Poised t) (htime : prompt → (expire nowMs t.session).1 = false)
    (hf : (∃ fault, f t.session = .error fault ∧ FellOrLooked nowMs t.session fault.state) ∨
      ∃ r, f t.session = .ok r ∧ Progressed t.session r.2) :
    Quietly options prompt a t (leftTrial (sessionMethod f t)) := by
  unfold sessionMethod
  rcases hf with ⟨fault, heq, hstate⟩ | ⟨r, heq, hprogress⟩
  · rw [heq]
    exact quietly_fellOrLooked hstate hp htime
  · rw [heq]
    exact quietly_of_move (.progress hprogress (hp.fresh hprogress.underWay)) rfl rfl
      (.inl hprogress.pending)

end Quiet

section Effects

variable {options : TrialOptions} {prompt : Prop} {a : Actor} {t t' : Trial}

/-- Who starts the session has begun. -/
theorem moves_startTrial (nowMs : ℕ) (hp : Poised t) (hagent : isAgent a = true)
    (hnone : t.begun a = none) (hstarter : mayStart a = true) :
    Moves options prompt a t (startTrial a nowMs t).2 := by
  by_cases hidle : t.session.stage = .idle
  · exact .single (.start nowMs hagent hnone hidle hstarter)
  · have hcodec : t.session.codec ≠ .idle := fun h => hidle (hp.wellFormed.idle.mp h)
    have hstart : start nowMs t.session = (false, t.session) := by
      unfold start
      rw [if_pos hidle]
    have heq : (startTrial a nowMs t).2 = noteBegin a t := by
      simp [startTrial, hstart, noteBegin]
    rw [heq]
    exact .single (.begins hagent hnone hcodec)

/-- Completing the accepted case: its actor holds the completion, which is as it is on record, or
it is refused. -/
theorem completeTrial_cases (mode : CyrinxInstructionAction) (nowMs : ℕ) (hp : Poised t)
    (htime : prompt → (expire nowMs t.session).1 = false) :
    (∃ refusal t', completeTrial options a mode nowMs t = .error (refusal, t') ∧
        Quietly options prompt a t t') ∨
      ∃ t' completion, completeTrial options a mode nowMs t = .ok ((), t') ∧
        Moves options prompt a t t' ∧ t'.begun = t.begun ∧ t'.generation = t.generation ∧
        t'.operationGeneration = t.operationGeneration ∧ t'.writes = t.writes ∧
        t'.results = t.results ∧ Holds a completion t' ∧ completion.generation = t.generation ∧
        Recorded options completion.toCaseFact t' := by
  unfold completeTrial
  rcases completeAccepted_cases options.corpus mode nowMs t.session with
    ⟨fault, heq, hstate⟩ | ⟨⟨⟨⟩, session⟩, heq, hdone⟩
  · rw [heq]
    exact .inl ⟨_, _, rfl, quietly_fellOrLooked hstate hp htime⟩
  · rw [heq]
    dsimp only
    generalize ((currentCase options.corpus t.session).map (·.id)).getD "" = caseId
    have hrecords : Records options
        ⟨caseId, t.writes.length, t.generation, caseRecord options caseId { t with session }⟩ _ :=
      records_caseRecord caseId t.writes.length t.generation { t with session }
    generalize hrecord : caseRecord options caseId { t with session } = record at hrecords ⊢
    have hmove : TrialMove options prompt a t { t with
        session, completion := some ⟨⟨caseId, t.writes.length, t.generation, record⟩, a⟩ } :=
      .complete caseId record hdone (hp.fresh hdone.underWay)
    refine .inr ⟨_, ⟨⟨caseId, t.writes.length, t.generation, record⟩, a⟩, rfl, .single hmove, rfl, rfl,
      rfl, rfl, rfl, ⟨rfl, rfl, hdone.pending'⟩, rfl, le_rfl, le_rfl, ?_⟩
    exact hrecords.session rfl id rfl

/-- Acknowledging a completion its actor holds, once a report of it is written. -/
theorem acknowledgeTrial_cases (completion : Completion) (hagent : isAgent a = true) (hp : Poised t)
    (hholds : Holds a completion t ∨ Over t.session) (hfresh : Fresh a t)
    (hdurable : Durable options completion.toCaseFact t) :
    (∃ refusal, acknowledgeTrial t = .error (refusal, t)) ∨
      ∃ t', acknowledgeTrial t = .ok ((), t') ∧ Moves options prompt a t t' ∧ t'.begun = t.begun ∧
        t'.generation = t.generation ∧ t'.operationGeneration = t.operationGeneration ∧
        t'.writes = t.writes := by
  unfold acknowledgeTrial
  rcases acknowledgeAcceptedCompletion_cases t.session with ⟨fault, heq, hstate⟩ | ⟨heq, hpending⟩
  · rw [heq]
    dsimp only
    rw [hstate]
    exact .inl ⟨_, rfl⟩
  · rw [heq]
    have hheld : Holds a completion t := by
      rcases hholds with hheld | hover
      · exact hheld
      · have hcodec := hp.wellFormed.pending hpending
        rcases hover with hc | hc | ⟨-, -, hnone⟩
        · rw [hcodec] at hc
          cases hc
        · rw [hcodec] at hc
          cases hc
        · exact absurd hnone hpending
    refine .inr ⟨_, rfl, ?_, rfl, rfl, rfl, rfl⟩
    have hmove : TrialMove options prompt a t _ :=
      .acknowledge hagent hpending hheld.2.1 hheld.1 hdurable hfresh
    refine ReflTransGen.trans (.single hmove) (.single ?_)
    dsimp only
    rw [hheld.2.1]
    exact .incidental _ _ _ _ _ _ _

/-- The part of a reset that concerns the qualification. -/
theorem resetTrial_cases (pre : Bool) (nowMs : ℕ) (hp : Poised t) (hnone : t.begun a = none) :
    ∃ t', resetTrial pre nowMs t = .ok ((), t') ∧ Moves options prompt a t t' ∧ t'.begun = t.begun := by
  obtain ⟨⟨answer, c⟩, heq, hcases⟩ := operatorReset_cases nowMs t.session hp.wellFormed
  unfold resetTrial
  rw [heq]
  refine ⟨_, rfl, ?_, ?_⟩
  · have hreset : ∀ o, t.operationGeneration ≤ o → Moves options prompt a t { t with
        session := c, generation := t.generation + 1, operationGeneration := o, results := []
        resets := t.resets + 1 } :=
      fun o ho => .single (.reset hcases hnone ho)
    have hrest : ∀ u : Trial, Moves options prompt a u (addFallbackReason { u with
        cyrinxExpiryTimer := false, audio := none, failureReasons := [] }) := fun u =>
      ((quietly_incidental u u.settleAbort u.controllerCount false none [] u.microtasks).trans
        (quietly_addFallbackReason _)).moves
    cases pre with
    | true => exact (hreset t.operationGeneration le_rfl).trans (hrest _)
    | false =>
      have habort : Moves options prompt a _ _ := (hreset (t.operationGeneration + 1) (Nat.le_succ _)).trans
        (quietly_incidental _ none t.controllerCount t.cyrinxExpiryTimer t.audio t.failureReasons
          t.microtasks).moves
      exact habort.trans (hrest _)
  · have hquiet : ∀ u : Trial, Quietly options prompt a u (addFallbackReason u) :=
      quietly_addFallbackReason
    rw [(hquiet _).begun]
    cases pre <;> rfl

/-- A control taken at its arrival makes moves of the qualification. -/
theorem moves_preemptNative (nowMs : ℕ) (hp : Poised t) (hnone : t.begun a = none)
    (hcodec : t.session.codec = .cyrinx) :
    Moves options prompt a t (leftTrial (preemptNative nowMs t)) := by
  have habort : ∀ u : Trial, Quietly options prompt a u { u with settleAbort := none } := fun u =>
    quietly_incidental u none u.controllerCount u.cyrinxExpiryTimer u.audio u.failureReasons
      u.microtasks
  by_cases hover : Over t.session
  · have hovertake : Moves options prompt a t
        { t with operationGeneration := t.operationGeneration + 1 } :=
      .single (.overtake hover hnone)
    have hovertaken : Moves options prompt a t (abortCyrinxOperation t) :=
      hovertake.trans (habort _).moves
    exact hovertaken.trans
      (quietly_transitionCurrentFallback true nowMs (hovertaken.poised hp)).moves
  · obtain ⟨c, heq, hfell⟩ := failCurrent_underWay nowMs hp.wellFormed hcodec hover
    have hfall : Quietly options prompt a t _ :=
      (quietly_fall hfell hp (t.generation + 1) (t.operationGeneration + 1) (Nat.le_succ _)
        (Nat.le_succ _) (fun _ => Nat.lt_succ_self _)).trans
      (quietly_incidental _ none t.controllerCount false t.audio t.failureReasons t.microtasks)
    have hresult : leftTrial (preemptNative nowMs t) = addFallbackReason { t with
        session := c, generation := t.generation + 1
        operationGeneration := t.operationGeneration + 1
        settleAbort := none, cyrinxExpiryTimer := false } := by
      unfold preemptNative transitionCurrentFallback
      split
      · next hne => exact absurd hcodec hne
      · rw [show (abortCyrinxOperation t).session = t.session from rfl, heq]
        rfl
    rw [hresult]
    exact (hfall.trans (quietly_addFallbackReason _)).moves

/-- A failure of Quiet is taken by the trial of an actor that has begun nothing. -/
theorem moves_quietFailed (hnone : t.begun a = none) :
    Moves options prompt a t (quietFailed t).2 := by
  unfold quietFailed
  split
  · next session heq =>
    have hsame : session = t.session := by
      unfold markQuietFailed at heq
      split at heq
      · exact (congrArg Prod.snd heq).symm
      · cases heq
    rw [hsame]
    exact .refl
  · next session heq =>
    have hfails : Moves options prompt a t { t with
        session
        generation := t.generation + 1
        operationGeneration := t.operationGeneration + 1 } := .single (.quietFails heq hnone)
    exact hfails.trans
      (quietly_incidental _ none t.controllerCount t.cyrinxExpiryTimer t.audio t.failureReasons
        t.microtasks).moves

end Effects

end Fipwave.TrialMoves
