import Fipwave.BridgeTrial
import Fipwave.SessionPhases

/-!
# What can happen to a qualification

Every change of a qualification is one of a few moves of some actor, each with
what the actor has checked. A move that has an effect on the evidence needs an
actor whose counters are current; an acknowledgement needs a report that was
built after the fact, shows it and is written. Moves keep the state consistent:
an actor whose counters are overtaken faces a session that is over. A call of
the session may itself find the deadline passed; where everybody is prompt, no
call does, and every fallback begins a generation.
-/

namespace Fipwave.TrialMoves

open FwavProtocol QualificationSession BridgePorts BridgeReport BridgeTrial

/-- The actor runs methods that begin and may be overtaken. -/
def isAgent : Actor → Bool
  | .handler _ _ => true
  | .operatorStart _ => true
  | _ => false

/-- Type of the frame an actor handles. -/
def handledType : Actor → Option MessageType
  | .handler _ message =>
    if message.isBinary then
      match decodeFrame message.rawData with
      | .ok frame => some frame.type
      | .error _ => none
    else none
  | _ => none

/-- The actor may start the qualification. -/
def mayStart : Actor → Bool
  | .operatorStart _ => true
  | a => handledType a = some .qualificationCase

/-- If the actor has begun a method, its counters are still current. -/
def Fresh (a : Actor) (t : Trial) : Prop :=
  ∀ tag, t.begun a = some tag → tag = (t.generation, t.operationGeneration)

/-- A line of a report tells of a result: whatever the report says of it is as it was recorded. -/
def Tells (result : BrowserResult) (line : MachineResult) : Prop :=
  line.observed = true ∧ line = { line with
    caseId := line.caseId
    receivedSha256 := result.receivedSha256
    acquisitionMs := result.acquisitionMs
    airtimeMs := result.airtimeMs
    deliveryCount := result.deliveryCount
    bytePerfect := result.bytePerfect
    coldAcquired := result.coldAcquired
    complete := result.complete
    corrupt := result.corrupt
    missing := result.missing
    duplicates := result.duplicates }

/-- A report shows a fact: a line tells of the result of the case, and the qualification of a cold
case that was received. -/
structure Shows (report : MachineReport) (fact : CaseFact) : Prop where
  /-- The line. -/
  line : ∀ recorded, fact.record.result = some recorded →
    ∃ line ∈ report.results, line.caseId = fact.caseId ∧ Tells recorded.result line
  /-- The qualification. -/
  cold : fact.record.coldReceivePassed = true → report.qualification.coldReceivePassed = true

/-- With authority to report, a report that shows a fact, built since its mark in this generation,
is written. -/
def Durable (options : TrialOptions) (fact : CaseFact) (t : Trial) : Prop :=
  options.config ≠ none → options.reportAuthority ≠ none →
    ∃ n task, t.writes[n]? = some task ∧ fact.mark ≤ n ∧ task.builtIn = fact.generation ∧
      Shows task.report fact ∧ task.status = .written ∧ fact.generation = t.generation

/-- The report is built of the qualification as it is. -/
def Built (options : TrialOptions) (report : MachineReport) (t : Trial) : Prop :=
  ∃ config authority epoch discontinuities nowMs,
    options.config = some config ∧ options.reportAuthority = some authority ∧
      lookAt nowMs t.session = t.session ∧
      report = buildReport config authority options.corpus (evidenceOf epoch discontinuities
        (snapshot options.corpus config.role epoch nowMs t.session).1 t)

/-- A move of an actor. Where everybody is prompt, whoever makes the session fall begins a
generation. -/
inductive TrialMove (options : TrialOptions) (prompt : Prop) (a : Actor) : Trial → Trial → Prop
  | incidental (t : Trial) (settleAbort : Option ℕ) (controllerCount : ℕ)
      (cyrinxExpiryTimer : Bool) (audio : Option BrowserAudio) (failureReasons : List String)
      (microtasks : ℕ) :
      TrialMove options prompt a t { t with
        settleAbort, controllerCount, cyrinxExpiryTimer, audio, failureReasons, microtasks }
  | look {t : Trial} {c : CyrinxQualificationSession} (h : Looked t.session c) :
      TrialMove options prompt a t { t with session := c }
  | begins {t : Trial} (hagent : isAgent a) (hnone : t.begun a = none)
      (hcodec : t.session.codec ≠ .idle) : TrialMove options prompt a t (noteBegin a t)
  | start {t : Trial} (nowMs : ℕ) (hagent : isAgent a) (hnone : t.begun a = none)
      (hidle : t.session.stage = .idle) (hstarter : mayStart a = true) :
      TrialMove options prompt a t (startTrial a nowMs t).2
  | fall {t : Trial} {c : CyrinxQualificationSession} {g o : ℕ} (h : Fell t.session c)
      (hfresh : Fresh a t) (hg : t.generation ≤ g) (ho : t.operationGeneration ≤ o)
      (hprompt : prompt → t.generation < g) :
      TrialMove options prompt a t { t with session := c, generation := g, operationGeneration := o }
  | overtake {t : Trial} (hover : Over t.session) (hnone : t.begun a = none) :
      TrialMove options prompt a t { t with operationGeneration := t.operationGeneration + 1 }
  | quietFails {t : Trial} {c : CyrinxQualificationSession}
      (h : markQuietFailed t.session = (true, c)) (hnone : t.begun a = none) :
      TrialMove options prompt a t { t with
        session := c
        generation := t.generation + 1
        operationGeneration := t.operationGeneration + 1 }
  | reset {t : Trial} {c : CyrinxQualificationSession} {o : ℕ}
      (h : Fell t.session c ∨
        c = { t.session with accepted := none } ∧ (t.session.codec = .idle ∨ Over t.session))
      (hnone : t.begun a = none) (ho : t.operationGeneration ≤ o) :
      TrialMove options prompt a t { t with
        session := c
        generation := t.generation + 1
        operationGeneration := o
        results := []
        resets := t.resets + 1 }
  | progress {t : Trial} {c : CyrinxQualificationSession} (h : Progressed t.session c)
      (hfresh : Fresh a t) : TrialMove options prompt a t { t with session := c }
  | complete {t : Trial} {c : CyrinxQualificationSession} (caseId : String) (record : CaseRecord)
      (h : Completed t.session c) (hfresh : Fresh a t) :
      TrialMove options prompt a t { t with
        session := c
        completion := some ⟨⟨caseId, t.writes.length, t.generation, record⟩, a⟩ }
  | acknowledge {t : Trial} {completion : Completion} (hagent : isAgent a)
      (hpending : t.session.pendingCompletionReason ≠ none)
      (hcompletion : t.completion = some completion) (hactor : completion.actor = a)
      (hdurable : Durable options completion.toCaseFact t) (hfresh : Fresh a t) :
      TrialMove options prompt a t { t with
        session := { t.session with pendingCompletionReason := none }
        acknowledgements := t.acknowledgements ++
          [⟨completion.toCaseFact, .acceptedCompletion⟩] }
  | note {t : Trial} (k : Acknowledgement) (hagent : isAgent a)
      (hdurable : Durable options k.toCaseFact t) (hfresh : Fresh a t) :
      TrialMove options prompt a t (noteAcknowledgement k t)
  | recordNative {t : Trial} {result : BrowserResult} (hcodec : t.session.codec = .cyrinx)
      (hfresh : Fresh a t) (hcold : result.coldAcquired = false)
      (hnew : t.results.lookup result.caseId = none) :
      TrialMove options prompt a t (recordResult result (.native .cyrinx) t)
  | recordBrowser {t : Trial} {result : BrowserResult} (hnone : t.begun a = none)
      (hcodec : t.session.codec = .idle ∨ t.session.codec = .quiet)
      (hcold : result.coldAcquired = true → t.results = [])
      (hnew : t.results.lookup result.caseId = none)
      (htype : handledType a = some .qualificationResult) :
      TrialMove options prompt a t (recordResult result (.browser t.session.codec) t)
  | duplicate {t : Trial} {caseId : String} {existing : RecordedResult} (hnone : t.begun a = none)
      (hold : t.results.lookup caseId = some existing) :
      TrialMove options prompt a t (recordDuplicate caseId existing t)
  | chain {t : Trial} {report : MachineReport} (expired : Bool) (h : Built options report t) :
      TrialMove options prompt a t (chainWrite report t.generation expired t)
  | skip {t : Trial} {index : ℕ} {task : WriteTask} (ha : a = .environment)
      (htask : t.writes[index]? = some task)
      (hqueued : task.status = .queued) (hturn : turnOf task t = true)
      (hgeneration : task.reportGeneration ≠ t.generation) :
      TrialMove options prompt a t (setStatus index .skipped t)
  | hand {t : Trial} {index : ℕ} {task : WriteTask} (ha : a = .environment)
      (htask : t.writes[index]? = some task)
      (hqueued : task.status = .queued) (hturn : turnOf task t = true)
      (hgeneration : task.reportGeneration = t.generation) :
      TrialMove options prompt a t
        { setStatus index .writing t with handed := t.handed ++ [(index, t.generation)] }
  | conclude {t : Trial} {index : ℕ} {task : WriteTask} (succeeded : Bool)
      (ha : a = .environment) (htask : t.writes[index]? = some task) (hwriting : task.status = .writing) :
      TrialMove options prompt a t (setStatus index (if succeeded then .written else .failed) t)

/-- The state of a qualification is consistent. -/
structure Poised (t : Trial) : Prop where
  /-- The session is well formed. -/
  wellFormed : WellFormed t.session
  /-- Who has begun and is overtaken faces a session that is over. -/
  engaged : ∀ a tag, t.begun a = some tag → t.session.codec ≠ .idle ∧
    tag.1 ≤ t.generation ∧ tag.2 ≤ t.operationGeneration ∧
    (tag = (t.generation, t.operationGeneration) ∨ Over t.session)
  /-- Only agents begin. -/
  agents : ∀ a, t.begun a ≠ none → isAgent a = true
  /-- Reports are for the generation they are built in, and skipped in a later one. -/
  reports : ∀ (n : ℕ) (task : WriteTask), t.writes[n]? = some task →
    task.reportGeneration = task.builtIn ∧ task.builtIn ≤ t.generation ∧
    (task.status = .skipped → task.builtIn < t.generation)

section Basics

variable {options : TrialOptions} {prompt : Prop} {a : Actor} {t t' : Trial}

/-- While the session is not over, every agent's next call is fresh. -/
theorem Poised.fresh (h : Poised t) (hover : ¬Over t.session) : Fresh a t := by
  intro tag htag
  rcases (h.engaged a tag htag).2.2.2 with heq | hdead
  · exact heq
  · exact absurd hdead hover

/-- An agent that has nothing begun is fresh. -/
theorem fresh_of_none (h : t.begun a = none) : Fresh a t := by
  intro tag htag
  rw [h] at htag
  cases htag

/-- Whoever is no agent has nothing begun. -/
theorem Poised.none_of_not_agent (h : Poised t) (ha : isAgent a = false) : t.begun a = none := by
  by_contra hne
  have hagent := h.agents a hne
  rw [ha] at hagent
  cases hagent

/-- A task after the status of some task was set. -/
theorem getElem?_setStatus (index n : ℕ) (status : WriteStatus) (t : Trial) :
    (setStatus index status t).writes[n]? =
      if index = n then t.writes[n]?.map (fun task => { task with status }) else t.writes[n]? := by
  simp only [setStatus, List.getElem?_modify]
  split_ifs <;> cases t.writes[n]? <;> rfl

/-- Beginning a write skips a report of an older generation, hands one over, or does nothing. -/
theorem beginWrite_cases (index : ℕ) (t : Trial) : beginWrite index t = t ∨
    ∃ task, t.writes[index]? = some task ∧ task.status = .queued ∧ turnOf task t = true ∧
      (task.reportGeneration ≠ t.generation ∧ beginWrite index t = setStatus index .skipped t ∨
        task.reportGeneration = t.generation ∧ beginWrite index t =
          { setStatus index .writing t with handed := t.handed ++ [(index, t.generation)] }) := by
  unfold beginWrite
  split
  · exact .inl rfl
  · next task htask =>
    split
    · exact .inl rfl
    · next hqueued =>
      rw [not_or, not_not, Bool.not_eq_true', Bool.not_eq_false] at hqueued
      right
      refine ⟨task, htask, hqueued.1, hqueued.2, ?_⟩
      split
      · next hne => exact .inl ⟨hne, rfl⟩
      · next heq => exact .inr ⟨not_not.mp heq, rfl⟩

/-- Ending a write concludes the report that is being written, or does nothing. -/
theorem endWrite_cases (index : ℕ) (succeeded : Bool) (t : Trial) :
    (endWrite index succeeded t).2 = t ∨
    ∃ task, t.writes[index]? = some task ∧ task.status = .writing ∧
      (endWrite index succeeded t).2 =
        setStatus index (if succeeded then .written else .failed) t := by
  unfold endWrite
  split
  · exact .inl rfl
  · next task htask =>
    split
    · exact .inl rfl
    · next hwriting => exact .inr ⟨task, htask, not_not.mp hwriting, rfl⟩

end Basics

/-- How one move changes the session. -/
inductive Change (c c' : CyrinxQualificationSession) : Prop
  | looked (h : Looked c c')
  | started (nowMs : ℕ) (hidle : c.stage = .idle) (h : c' = (start nowMs c).2)
  | fell (h : Fell c c')
  | failed (h : markQuietFailed c = (true, c'))
  | dropped (h : c' = { c with accepted := none })
  | progressed (h : Progressed c c')
  | completed (h : Completed c c')
  | acknowledged (h : c' = { c with pendingCompletionReason := none })
      (hpending : c.pendingCompletionReason ≠ none)

section Sessions

variable {c c' : CyrinxQualificationSession}

/-- Starting an idle session succeeds, and puts it under Cyrinx. -/
theorem start_idle (nowMs : ℕ) (hidle : c.stage = .idle) : start nowMs c = (true, { c with
    codec := .cyrinx
    stage := .build
    startedAtMs := some nowMs
    deadlineAtMs := some (nowMs + cyrinxDeadlineMs)
    lastElapsedMs := some 0 }) := by
  unfold start
  rw [if_neg (not_not.mpr hidle)]

/-- The Quiet fallback that fails. -/
theorem markQuietFailed_true (h : markQuietFailed c = (true, c')) : c.stage = .quiet ∧
    c' = { c with codec := .unqualified, stage := .unqualified, fallbackState := .failed } := by
  unfold markQuietFailed at h
  split at h
  · cases h
  · next hquiet =>
    rw [not_or, not_not] at hquiet
    exact ⟨hquiet.1, (congrArg Prod.snd h).symm⟩

/-- Every change of the session keeps it well formed. -/
theorem Change.wellFormed (h : Change c c') (hw : WellFormed c) : WellFormed c' := by
  cases h with
  | looked h => exact h.wellFormed hw
  | started nowMs hidle h =>
    rw [start_idle nowMs hidle] at h
    subst h
    exact wellFormed_of_cyrinx rfl (by simp) (by simp) (by simp) (by simp)
      (hw.unused (hw.idle.mpr hidle)) rfl
  | fell h => exact h.wellFormed hw
  | failed h =>
    obtain ⟨hstage, rfl⟩ := markQuietFailed_true h
    have hcodec := hw.quiet.mpr hstage
    refine ⟨by simp, by simp, by simp, by simp, by simp, by simp, ?_, hw.deadline⟩
    intro hpending
    have hcyrinx := hw.pending hpending
    rw [hcodec] at hcyrinx
    cases hcyrinx
  | dropped h =>
    subst h
    exact ⟨hw.idle, hw.quiet, hw.unqualified, hw.started, hw.available, hw.unused, hw.pending,
      hw.deadline⟩
  | progressed h => exact h.wellFormed hw
  | completed h => exact h.wellFormed hw
  | acknowledged h hpending =>
    subst h
    exact ⟨hw.idle, hw.quiet, hw.unqualified, hw.started, hw.available, hw.unused, by simp,
      hw.deadline⟩

/-- A session that is over stays over. -/
theorem Change.over (h : Change c c') (hw : WellFormed c) (hover : Over c) : Over c' := by
  cases h with
  | looked h => exact h.over.mpr hover
  | started nowMs hidle h =>
    have hcodec := hw.idle.mpr hidle
    rcases hover with hc | hc | ⟨hc, -, -⟩ <;> rw [hcodec] at hc <;> cases hc
  | fell h => exact h.over
  | failed h =>
    obtain ⟨-, rfl⟩ := markQuietFailed_true h
    exact .inr (.inl rfl)
  | dropped h => rw [h]; exact hover
  | progressed h => exact absurd hover h.underWay
  | completed h => exact absurd hover h.underWay
  | acknowledged h hpending =>
    have hcodec := hw.pending hpending
    rcases hover with hc | hc | ⟨-, -, hnone⟩
    · rw [hcodec] at hc
      cases hc
    · rw [hcodec] at hc
      cases hc
    · exact absurd hnone hpending

/-- A session that has started does not become idle. -/
theorem Change.codec (h : Change c c') (hcodec : c.codec ≠ .idle) : c'.codec ≠ .idle := by
  cases h with
  | looked h => rwa [h.codec]
  | started nowMs hidle h =>
    rw [h, start_idle nowMs hidle]
    simp
  | fell h => rw [h.fallen]; simp
  | failed h =>
    obtain ⟨-, rfl⟩ := markQuietFailed_true h
    simp
  | dropped h => rwa [h]
  | progressed h => rw [h.cyrinx']; simp
  | completed h => rw [h.cyrinx']; simp
  | acknowledged h hpending => rwa [h]

/-- A session that has started does not start again. -/
theorem Change.startedAtMs (h : Change c c') (hw : WellFormed c) (hcodec : c.codec ≠ .idle) :
    c'.startedAtMs = c.startedAtMs := by
  cases h with
  | looked h => exact h.startedAtMs
  | started nowMs hidle h => exact absurd (hw.idle.mpr hidle) hcodec
  | fell h => rw [h.fallen]
  | failed h =>
    obtain ⟨-, rfl⟩ := markQuietFailed_true h
    rfl
  | dropped h => rw [h]
  | progressed h => exact h.started
  | completed h => exact h.started
  | acknowledged h hpending => rw [h]

/-- A session that has started and for which a time is before its deadline, or which is over. -/
def OnTime (nowMs : ℕ) (c : CyrinxQualificationSession) : Prop :=
  c.codec ≠ .idle ∧ (InTime nowMs c ∨ Over c)

/-- Every change of the session keeps its times within the deadline. -/
theorem Change.onTime (h : Change c c') (hw : WellFormed c) {nowMs : ℕ} (htime : OnTime nowMs c) :
    OnTime nowMs c' := by
  refine ⟨h.codec htime.1, ?_⟩
  rcases htime.2 with htime' | hover
  · refine .inl (fun startedAtMs hstarted => htime' startedAtMs ?_)
    rwa [h.startedAtMs hw htime.1] at hstarted
  · exact .inr (h.over hw hover)

/-- A session that has started and is not found expired. -/
theorem onTime_of_expire {nowMs : ℕ} (hw : WellFormed c) (hcodec : c.codec ≠ .idle)
    (hexpire : (expire nowMs c).1 = false) : OnTime nowMs c := by
  refine ⟨hcodec, ?_⟩
  by_cases hover : Over c
  · exact .inr hover
  · refine .inl (inTime_of_expire hw ?_ hover hexpire)
    cases hcase : c.codec with
    | idle => exact absurd hcase hcodec
    | cyrinx => rfl
    | quiet => exact absurd (.inl hcase) hover
    | unqualified => exact absurd (.inr (.inl hcase)) hover

/-- It is not found expired later at the same time, unless it is overdue. -/
theorem OnTime.expire {nowMs : ℕ} (htime : OnTime nowMs c) (hw : WellFormed c)
    (hdue : overdue c = false) : (expire nowMs c).1 = false := by
  rcases htime.2 with htime | hover
  · exact expire_inTime hw htime hdue
  · exact expire_over hover

end Sessions

section Moves

variable {options : TrialOptions} {prompt : Prop} {a : Actor} {t t' : Trial}

/-- A task after a move: it is there, it was built where it was, and its end is final. -/
def Keeps (task task' : WriteTask) : Prop :=
  task'.builtIn = task.builtIn ∧ task'.reportGeneration = task.reportGeneration ∧
    task'.evidence = task.evidence ∧ task'.report = task.report ∧
    (settled task.status = true → task'.status = task.status)

theorem Keeps.refl (task : WriteTask) : Keeps task task := ⟨rfl, rfl, rfl, rfl, fun _ => rfl⟩

theorem Keeps.trans {task task' task'' : WriteTask} (h : Keeps task task')
    (h' : Keeps task' task'') : Keeps task task'' := by
  obtain ⟨hbuilt, hgeneration, hevidence, hreport, hstatus⟩ := h
  obtain ⟨hbuilt', hgeneration', hevidence', hreport', hstatus'⟩ := h'
  refine ⟨hbuilt'.trans hbuilt, hgeneration'.trans hgeneration, hevidence'.trans hevidence,
    hreport'.trans hreport, fun hsettled => ?_⟩
  have hsame := hstatus hsettled
  exact (hstatus' (by rw [hsame]; exact hsettled)).trans hsame

/-- Every move of the trial is a change its session allows. -/
theorem TrialMove.change (h : TrialMove options prompt a t t') : Change t.session t'.session := by
  cases h with
  | look h => exact .looked h
  | start nowMs hagent hnone hidle => exact .started nowMs hidle rfl
  | fall h => exact .fell h
  | quietFails h => exact .failed h
  | reset h =>
    rcases h with h | ⟨h, -⟩
    · exact .fell h
    · exact .dropped h
  | progress h => exact .progressed h
  | complete caseId record h => exact .completed h
  | acknowledge hagent hpending => exact .acknowledged rfl hpending
  | _ => exact .looked rfl

/-- The counters never go back. -/
theorem TrialMove.generation_le (h : TrialMove options prompt a t t') : t.generation ≤ t'.generation := by
  cases h with
  | fall h hfresh hg ho => exact hg
  | quietFails => exact Nat.le_succ _
  | reset => exact Nat.le_succ _
  | _ => exact le_rfl

/-- The operation generation never goes back. -/
theorem TrialMove.operation_le (h : TrialMove options prompt a t t') :
    t.operationGeneration ≤ t'.operationGeneration := by
  cases h with
  | fall h hfresh hg ho => exact ho
  | overtake => exact Nat.le_succ _
  | quietFails => exact Nat.le_succ _
  | reset h hnone ho => exact ho
  | _ => exact le_rfl

/-- Once the session has started, only a move that ends it advances a counter. -/
theorem TrialMove.counters (h : TrialMove options prompt a t t') (hcodec : t.session.codec ≠ .idle) :
    (t'.generation, t'.operationGeneration) = (t.generation, t.operationGeneration) ∨
      Over t'.session := by
  cases h with
  | fall h => exact .inr h.over
  | overtake hover => exact .inr hover
  | quietFails h =>
    obtain ⟨-, rfl⟩ := markQuietFailed_true h
    exact .inr (.inr (.inl rfl))
  | reset h =>
    rcases h with h | ⟨rfl, hidle | hover⟩
    · exact .inr h.over
    · exact absurd hidle hcodec
    · exact .inr hover
  | _ => exact .inl rfl

/-- An actor begins only if it has not begun. -/
theorem TrialMove.begun (h : TrialMove options prompt a t t') : t'.begun = t.begun ∨
    isAgent a = true ∧ t.begun a = none ∧ t'.session.codec ≠ .idle ∧
      (t'.generation, t'.operationGeneration) = (t.generation, t.operationGeneration) ∧
      t'.begun = Function.update t.begun a (some (t.generation, t.operationGeneration)) := by
  cases h with
  | begins hagent hnone hcodec => exact .inr ⟨hagent, hnone, hcodec, rfl, rfl⟩
  | start nowMs hagent hnone hidle =>
    refine .inr ⟨hagent, hnone, ?_, rfl, rfl⟩
    simp [startTrial, start_idle nowMs hidle]
  | _ => exact .inl rfl

/-- Others do not begin for an actor. -/
theorem TrialMove.begun_of_ne (h : TrialMove options prompt a t t') {r : Actor} (hr : r ≠ a) :
    t'.begun r = t.begun r := by
  rcases h.begun with heq | ⟨-, -, -, -, heq⟩
  · rw [heq]
  · rw [heq, Function.update_of_ne hr]

/-- Who has begun stays on record, whatever moves follow. -/
theorem TrialMove.begun_some (h : TrialMove options prompt a t t') {r : Actor} {tag : ℕ × ℕ}
    (htag : t.begun r = some tag) : t'.begun r = some tag := by
  rcases h.begun with heq | ⟨-, hnone, -, -, heq⟩
  · rw [heq, htag]
  · rw [heq]
    by_cases hr : r = a
    · rw [hr, hnone] at htag
      cases htag
    · rw [Function.update_of_ne hr, htag]

/-- Reports stay in the chain. -/
theorem TrialMove.keeps (h : TrialMove options prompt a t t') {n : ℕ} {task : WriteTask}
    (htask : t.writes[n]? = some task) :
    ∃ task', t'.writes[n]? = some task' ∧ Keeps task task' := by
  have hset : ∀ {index : ℕ} {old : WriteTask} {status : WriteStatus},
      t.writes[index]? = some old → settled old.status = false →
      ∃ task', (setStatus index status t).writes[n]? = some task' ∧ Keeps task task' := by
    intro index old status hold hopen
    rw [getElem?_setStatus]
    split
    · next heq =>
      subst heq
      rw [hold] at htask
      cases htask
      refine ⟨{ task with status }, by rw [hold]; rfl, rfl, rfl, rfl, rfl, fun hsettled => ?_⟩
      rw [hopen] at hsettled
      cases hsettled
    · exact ⟨task, htask, .refl task⟩
  cases h with
  | chain expired h =>
    refine ⟨task, ?_, .refl task⟩
    simp only [chainWrite]
    rw [List.getElem?_append_left (List.getElem?_eq_some_iff.mp htask).1, htask]
  | skip ha hold hqueued => exact hset hold (by rw [hqueued]; rfl)
  | hand ha hold hqueued => exact hset hold (by rw [hqueued]; rfl)
  | conclude succeeded ha hold hwriting => exact hset hold (by rw [hwriting]; rfl)
  | _ => exact ⟨task, htask, .refl task⟩

/-- Where the reports of a chain come from: each is built in the generation it carries, and one is
skipped only in a later one. -/
theorem TrialMove.reports (h : TrialMove options prompt a t t') (hp : Poised t) {n : ℕ} {task' : WriteTask}
    (htask : t'.writes[n]? = some task') :
    task'.reportGeneration = task'.builtIn ∧ task'.builtIn ≤ t'.generation ∧
      (task'.status = .skipped → task'.builtIn < t'.generation) := by
  have hset : ∀ {index : ℕ} {old : WriteTask} (status : WriteStatus),
      t.writes[index]? = some old → (status = .skipped → old.reportGeneration ≠ t.generation) →
      (setStatus index status t).writes[n]? = some task' →
      task'.reportGeneration = task'.builtIn ∧ task'.builtIn ≤ t.generation ∧
        (task'.status = .skipped → task'.builtIn < t.generation) := by
    intro index old status hold hskip htask
    rw [getElem?_setStatus] at htask
    split at htask
    · next heq =>
      subst heq
      rw [hold] at htask
      cases htask
      obtain ⟨hgeneration, hle, -⟩ := hp.reports _ _ hold
      refine ⟨hgeneration, hle, fun hstatus => lt_of_le_of_ne hle ?_⟩
      rw [← hgeneration]
      exact hskip hstatus
    · exact hp.reports _ _ htask
  have hlater : ∀ {g : ℕ}, t.generation ≤ g → t.writes[n]? = some task' →
      task'.reportGeneration = task'.builtIn ∧ task'.builtIn ≤ g ∧
        (task'.status = .skipped → task'.builtIn < g) := by
    intro g hg hold
    obtain ⟨hgeneration, hle, hskip⟩ := hp.reports _ _ hold
    exact ⟨hgeneration, hle.trans hg, fun hstatus => lt_of_lt_of_le (hskip hstatus) hg⟩
  cases h with
  | chain expired h =>
    simp only [chainWrite] at htask ⊢
    by_cases hn : n < t.writes.length
    · rw [List.getElem?_append_left hn] at htask
      exact hp.reports _ _ htask
    · rw [List.getElem?_append_right (not_lt.mp hn), List.getElem?_singleton] at htask
      split at htask
      · cases htask
        exact ⟨rfl, le_rfl, nofun⟩
      · cases htask
  | skip ha hold hqueued hturn hgeneration => exact hset .skipped hold (fun _ => hgeneration) htask
  | hand ha hold => exact hset .writing hold (fun hstatus => by cases hstatus) htask
  | conclude succeeded ha hold hwriting =>
    exact hset _ hold (fun hstatus => by cases succeeded <;> cases hstatus) htask
  | fall h hfresh hg ho => exact hlater hg htask
  | quietFails => exact hlater (Nat.le_succ _) htask
  | reset => exact hlater (Nat.le_succ _) htask
  | _ => exact hp.reports _ _ htask

/-- Moves keep the state consistent. -/
theorem TrialMove.poised (h : TrialMove options prompt a t t') (hp : Poised t) : Poised t' := by
  refine ⟨h.change.wellFormed hp.wellFormed, ?_, ?_, fun n task htask => h.reports hp htask⟩
  · intro r tag htag
    rcases h.begun with heq | ⟨-, hnone, hcodec, hcounters, heq⟩
    · rw [heq] at htag
      obtain ⟨hcodec, hg, ho, hcurrent⟩ := hp.engaged r tag htag
      refine ⟨h.change.codec hcodec, hg.trans h.generation_le, ho.trans h.operation_le, ?_⟩
      rcases hcurrent with hcurrent | hover
      · rcases h.counters hcodec with hsame | hover
        · exact .inl (hcurrent.trans hsame.symm)
        · exact .inr hover
      · exact .inr (h.change.over hp.wellFormed hover)
    · have hgo := Prod.mk.injEq .. ▸ hcounters
      by_cases hr : r = a
      · rw [heq, hr, Function.update_self] at htag
        cases htag
        exact ⟨hcodec, hgo.1.ge, hgo.2.ge, .inl hcounters.symm⟩
      · rw [heq, Function.update_of_ne hr] at htag
        obtain ⟨hcodec', hg, ho, hcurrent⟩ := hp.engaged r tag htag
        refine ⟨hcodec, hg.trans h.generation_le, ho.trans h.operation_le, ?_⟩
        rcases hcurrent with hcurrent | hover
        · exact .inl (hcurrent.trans hcounters.symm)
        · exact .inr (h.change.over hp.wellFormed hover)
  · intro r hr
    rcases h.begun with heq | ⟨hagent, -, -, -, heq⟩
    · rw [heq] at hr
      exact hp.agents r hr
    · by_cases hra : r = a
      · rwa [hra]
      · rw [heq, Function.update_of_ne hra] at hr
        exact hp.agents r hr

/-- A completion to be acknowledged by an actor. -/
def Holds (a : Actor) (completion : Completion) (t : Trial) : Prop :=
  completion.actor = a ∧ t.completion = some completion ∧
    t.session.pendingCompletionReason ≠ none

/-- Others leave the completion of an actor alone, unless the session is over. -/
theorem TrialMove.holds {r : Actor} {completion : Completion} (h : TrialMove options prompt a t t')
    (hr : r ≠ a) (hholds : Holds r completion t) : Holds r completion t' ∨ Over t'.session := by
  obtain ⟨hactor, hcompletion, hpending⟩ := hholds
  have hsame : t'.completion = t.completion →
      t'.session.pendingCompletionReason = t.session.pendingCompletionReason →
      Holds r completion t' ∨ Over t'.session := fun hc hs =>
    .inl ⟨hactor, hc.trans hcompletion, hs ▸ hpending⟩
  cases h with
  | look h => exact hsame rfl (by rw [h])
  | start nowMs hagent hnone hidle =>
    exact hsame rfl (by simp [startTrial, start_idle nowMs hidle])
  | fall h => exact .inr h.over
  | quietFails h =>
    obtain ⟨-, rfl⟩ := markQuietFailed_true h
    exact .inr (.inr (.inl rfl))
  | reset h =>
    rcases h with h | ⟨rfl, -⟩
    · exact .inr h.over
    · exact hsame rfl rfl
  | progress h => exact hsame rfl h.pending
  | complete caseId record h => exact absurd h.pending hpending
  | acknowledge hagent hpending' hcompletion' hactor' =>
    rw [hcompletion] at hcompletion'
    cases hcompletion'
    exact absurd (hactor.symm.trans hactor') hr
  | _ => exact hsame rfl rfl

end Moves

end Fipwave.TrialMoves
