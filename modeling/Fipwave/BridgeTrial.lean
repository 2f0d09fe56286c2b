import Fipwave.BridgeReport

/-!
# The qualification under way at a bridge

The session, the results and the reasons of a bridge with two counters: one
for generations of reports, one for native operations. An operation that is
overtaken finds its counter advanced. Every report that is built joins a chain
of writes: it is handed to the writer when the write before it has settled,
unless a later generation has begun. Who began a method, who completed a case,
what was acknowledged and the number of resets are kept beside the fields of
the source; no function reads them.
-/

namespace Fipwave.BridgeTrial

open ByteWords FwavProtocol QualificationSession BridgePorts BridgeReport

/-- State of a write. -/
inductive WriteStatus where
  | queued | writing | written | failed | skipped
  deriving DecidableEq, Repr

/-- A report in the chain of writes. -/
structure WriteTask where
  /-- The report. -/
  report : MachineReport
  /-- Generation it is written for. -/
  reportGeneration : ℕ
  /-- The deadline expired when it was built. -/
  expiredDuringPersist : Bool
  /-- Write it is chained to. -/
  after : Option ℕ
  /-- State of the write. -/
  status : WriteStatus
  /-- Generation in which it was built. -/
  builtIn : ℕ
  /-- Results it was built of. -/
  evidence : Results

/-- What a report is to say of a case. -/
structure CaseRecord where
  /-- Its result, if the runner listens to it. -/
  result : Option RecordedResult
  /-- The session has received a cold case. -/
  coldReceivePassed : Bool
  deriving DecidableEq, Repr

/-- A case that was recorded or completed, and is to be reported before it is acknowledged. -/
structure CaseFact where
  /-- The case. -/
  caseId : String
  /-- Reports built before it was recorded or completed. -/
  mark : ℕ
  /-- Generation in which it was. -/
  generation : ℕ
  /-- What was on record of it then. -/
  record : CaseRecord
  deriving DecidableEq, Repr

/-- A completion that is not acknowledged. -/
structure Completion extends CaseFact where
  /-- Who completed the case. -/
  actor : Actor
  deriving DecidableEq, Repr

/-- Kinds of acknowledgements. -/
inductive AcknowledgementKind where
  | qualificationResult | cyrinxResult | acceptedCompletion
  deriving DecidableEq, Repr

/-- An acknowledgement. -/
structure Acknowledgement extends CaseFact where
  /-- Kind. -/
  kind : AcknowledgementKind
  deriving DecidableEq, Repr

/-- The qualification of a bridge. -/
structure Trial where
  /-- Generation of reports. -/
  generation : ℕ := 1
  /-- Generation of native operations; the signal of an older one is aborted. -/
  operationGeneration : ℕ := 1
  /-- Controller of the wait for a case to settle. -/
  settleAbort : Option ℕ := none
  /-- Controllers so far. -/
  controllerCount : ℕ := 0
  /-- The session. -/
  session : CyrinxQualificationSession := {}
  /-- The timer of the deadline is armed. -/
  cyrinxExpiryTimer : Bool := false
  /-- Settings of the browser's audio. -/
  audio : Option BrowserAudio := none
  /-- Results. -/
  results : Results := []
  /-- Reasons against the evidence. -/
  failureReasons : List String := []
  /-- Reports that were built. -/
  writes : List WriteTask := []
  /-- Last write of the chain. -/
  writeTail : Option ℕ := none
  /-- Broadcasts that wait for their turn. -/
  microtasks : ℕ := 0
  /-- Generations in which an actor began its method. -/
  begun : Actor → Option (ℕ × ℕ) := fun _ => none
  /-- Completion that is not acknowledged. -/
  completion : Option Completion := none
  /-- What was acknowledged. -/
  acknowledgements : List Acknowledgement := []
  /-- Reports handed to the writer, each with the generation that was current then. -/
  handed : List (ℕ × ℕ) := []
  /-- Resets so far. -/
  resets : ℕ := 0

/-- What the qualification of a bridge is given. -/
structure TrialOptions where
  /-- Configuration of the runner. -/
  config : Option RunnerQualificationConfig
  /-- What the runner vouches for. -/
  reportAuthority : Option RunnerReportAuthority
  /-- The corpus. -/
  corpus : List CorpusEntry

variable (options : TrialOptions)

/-- Role of the runner. -/
def role : RunnerRole := (options.config.map (·.role)).getD .b

/-- Cases the runner listens to. -/
def expected : List CorpusEntry := expectedCorpus options.corpus (role options)

/-- The case is one the runner listens to. -/
def isExpected (caseId : String) : Bool := (expected options).any (·.id = caseId)

/-- End the native operation under way. -/
def abortCyrinxOperation (t : Trial) : Trial :=
  { t with operationGeneration := t.operationGeneration + 1, settleAbort := none }

/-- Disarm the timer of the deadline. -/
def clearCyrinxTimer (t : Trial) : Trial := { t with cyrinxExpiryTimer := false }

/-- Add a reason. -/
def addFailure (reason : String) (t : Trial) : Trial :=
  { t with failureReasons := addReason reason t.failureReasons }

/-- Add the reason of the fallback. -/
def addFallbackReason (t : Trial) : Trial :=
  match t.session.fallbackReason with
  | none => t
  | some reason => addFailure reason.code t

/-- A generation begins: the operation under way ends and the deadline is no longer awaited. -/
def beginGeneration (abort : Bool) (session : CyrinxQualificationSession) (t : Trial) : Trial :=
  let t := { t with session, generation := t.generation + 1 }
  clearCyrinxTimer (if abort then abortCyrinxOperation t else t)

/-- Expire the session if its deadline has passed. -/
def settleExpiry (nowMs : ℕ) (t : Trial) : Bool × Trial :=
  match expire nowMs t.session with
  | (false, session) => (false, { t with session })
  | (true, session) =>
    (true, addFailure "cyrinx_deadline_expired" (beginGeneration true session t))

/-- The timer of the deadline fires. -/
def forceExpire (nowMs : ℕ) (t : Trial) : Bool × Trial :=
  match forceDeadlineExpiry nowMs t.session with
  | (false, session) => (false, { t with session })
  | (true, session) =>
    (true, addFailure "cyrinx_deadline_expired" (beginGeneration true session t))

/-- Fail the current stage. -/
def transitionCurrentFallback (alreadyPreempted : Bool) (nowMs : ℕ) (t : Trial) :
    Except (Refusal × Trial) (Bool × Trial) :=
  if t.session.codec ≠ .cyrinx then .ok (false, t)
  else match failCurrent nowMs t.session with
    | .error fault => .error (.other fault.message, { t with session := fault.state })
    | .ok (false, session) => .ok (false, { t with session })
    | .ok (true, session) =>
      .ok (true, addFallbackReason (beginGeneration (!alreadyPreempted) session t))

/-- A control that is taken at its arrival ends the native operation and fails its stage. -/
def preemptNative (nowMs : ℕ) (t : Trial) : Except (Refusal × Trial) (Bool × Trial) :=
  transitionCurrentFallback true nowMs (abortCyrinxOperation t)

/-- The Quiet fallback has failed. -/
def quietFailed (t : Trial) : Bool × Trial :=
  match markQuietFailed t.session with
  | (false, session) => (false, { t with session })
  | (true, session) =>
    (true, abortCyrinxOperation { t with session, generation := t.generation + 1 })

/-- The part of a reset that concerns the qualification. -/
def resetTrial (alreadyPreempted : Bool) (nowMs : ℕ) (t : Trial) :
    Except (Refusal × Trial) (Unit × Trial) :=
  match operatorReset nowMs t.session with
  | .error fault => .error (.other fault.message, { t with session := fault.state })
  | .ok (_, session) =>
    let t := beginGeneration (!alreadyPreempted) session t
    .ok ((), addFallbackReason { t with
      audio := none, results := [], failureReasons := [], resets := t.resets + 1 })

/-- The session as it is published, if there is one. -/
def sessionSnapshot (epoch nowMs : ℕ) (t : Trial) : Option CyrinxSessionSnapshot × Trial :=
  match options.config with
  | none => (none, t)
  | some config =>
    let (published, session) := snapshot options.corpus config.role epoch nowMs t.session
    (some published, { t with session })

/-- What a report is built of. -/
def evidenceOf (epoch discontinuities : ℕ) (published : CyrinxSessionSnapshot) (t : Trial) :
    Evidence :=
  { epoch, discontinuities
    audio := t.audio
    results := t.results
    failureReasons := t.failureReasons
    coldReceivePassed := t.session.coldReceivePassed
    snapshot := published }

/-- Build a report, if the runner has a configuration and vouches for it. -/
def reportNow (epoch discontinuities nowMs : ℕ) (t : Trial) : Option MachineReport × Trial :=
  match options.config, options.reportAuthority with
  | some config, some authority =>
    let (published, session) := snapshot options.corpus config.role epoch nowMs t.session
    let t := { t with session }
    (some (buildReport config authority options.corpus
      (evidenceOf epoch discontinuities published t)), t)
  | _, _ => (none, t)

/-- Chain a report to the writes before it. -/
def chainWrite (report : MachineReport) (reportGeneration : ℕ) (expiredDuringPersist : Bool)
    (t : Trial) : Trial :=
  { t with
    writes := t.writes ++ [
      { report, reportGeneration, expiredDuringPersist
        after := t.writeTail
        status := .queued
        builtIn := t.generation
        evidence := t.results }]
    writeTail := some t.writes.length }

/-- Build a report and have it written: the write to wait for, if there is one. -/
def persist (expectedGeneration : Option ℕ) (epoch discontinuities nowMs : ℕ) (t : Trial) :
    Option ℕ × Trial :=
  let (expired, t) := settleExpiry nowMs t
  let reportGeneration := if expired then t.generation else expectedGeneration.getD t.generation
  match reportNow options epoch discontinuities nowMs t with
  | (none, t) => (none, if expired then { t with microtasks := t.microtasks + 1 } else t)
  | (some report, t) => (some t.writes.length, chainWrite report reportGeneration expired t)

/-- A write has settled. -/
def settled (status : WriteStatus) : Bool :=
  status = .written || status = .failed || status = .skipped

/-- Set the state of a write. -/
def setStatus (index : ℕ) (status : WriteStatus) (t : Trial) : Trial :=
  { t with writes := t.writes.modify index (fun task => { task with status }) }

/-- The write before this one has settled. -/
def turnOf (task : WriteTask) (t : Trial) : Bool :=
  task.after.all (fun before => t.writes[before]?.any (fun task => settled task.status))

/-- The turn of a write comes: it is handed to the writer, or skipped. -/
def beginWrite (index : ℕ) (t : Trial) : Trial :=
  match t.writes[index]? with
  | none => t
  | some task =>
    if task.status ≠ .queued ∨ !turnOf task t then t
    else if task.reportGeneration ≠ t.generation then setStatus index .skipped t
    else { setStatus index .writing t with handed := t.handed ++ [(index, t.generation)] }

/-- The writer is done; whether the session is to be published. -/
def endWrite (index : ℕ) (succeeded : Bool) (t : Trial) : Bool × Trial :=
  match t.writes[index]? with
  | none => (false, t)
  | some task =>
    if task.status ≠ .writing then (false, t)
    else (succeeded && task.expiredDuringPersist && task.reportGeneration = t.generation,
      setStatus index (if succeeded then .written else .failed) t)

/-- Record a result. -/
def recordResult (result : BrowserResult) (origin : EvidenceOrigin) (t : Trial) : Trial :=
  { t with results := setResult result.caseId ⟨result, origin⟩ t.results }

/-- Record that a case came again. -/
def recordDuplicate (caseId : String) (existing : RecordedResult) (t : Trial) : Trial :=
  addFailure "duplicate_case" { t with
    results := setResult caseId
      { existing with result := { existing.result with
          deliveryCount := max 2 (existing.result.deliveryCount + 1)
          duplicates := existing.result.duplicates + 1 } } t.results }

/-- A method of the session, which keeps what it changed when it throws. -/
def sessionMethod {α : Type} (f : CyrinxQualificationSession → SessionOutcome α) (t : Trial) :
    Except (Refusal × Trial) (α × Trial) :=
  match f t.session with
  | .ok (answer, session) => .ok (answer, { t with session })
  | .error fault => .error (.other fault.message, { t with session := fault.state })

/-- Start the session; whether this started it. -/
def startTrial (actor : Actor) (nowMs : ℕ) (t : Trial) : Bool × Trial :=
  let (started, session) := start nowMs t.session
  (started, { t with
    session
    cyrinxExpiryTimer := started || t.cyrinxExpiryTimer
    begun := Function.update t.begun actor (some (t.generation, t.operationGeneration)) })

/-- What is on record of a case. -/
def caseRecord (caseId : String) (t : Trial) : CaseRecord where
  result := if isExpected options caseId then t.results.lookup caseId else none
  coldReceivePassed := t.session.codec ≠ .idle && t.session.coldReceivePassed

/-- Complete the accepted case, which is the current one. -/
def completeTrial (actor : Actor) (mode : CyrinxInstructionAction) (nowMs : ℕ) (t : Trial) :
    Except (Refusal × Trial) (Unit × Trial) :=
  match completeAccepted options.corpus mode nowMs t.session with
  | .error fault => .error (.other fault.message, { t with session := fault.state })
  | .ok (_, session) =>
    let caseId := ((currentCase options.corpus t.session).map (·.id)).getD ""
    let t := { t with session }
    .ok ((), { t with
      completion := some ⟨⟨caseId, t.writes.length, t.generation,
        caseRecord options caseId t⟩, actor⟩ })

/-- Acknowledge the completion of a case; the deadline no longer matters after the last one. -/
def acknowledgeTrial (t : Trial) : Except (Refusal × Trial) (Unit × Trial) :=
  match acknowledgeAcceptedCompletion t.session with
  | .error fault => .error (.other fault.message, { t with session := fault.state })
  | .ok (_, session) =>
    .ok ((), { t with
      session
      acknowledgements := t.acknowledgements ++ (t.completion.map (fun c =>
        ⟨c.toCaseFact, .acceptedCompletion⟩)).toList
      cyrinxExpiryTimer := !terminal session && t.cyrinxExpiryTimer })

/-- Note an acknowledgement. -/
def noteAcknowledgement (k : Acknowledgement) (t : Trial) : Trial :=
  { t with acknowledgements := t.acknowledgements ++ [k] }

/-- Note when a method begins. -/
def noteBegin (actor : Actor) (t : Trial) : Trial :=
  { t with begun := Function.update t.begun actor (some (t.generation, t.operationGeneration)) }

end Fipwave.BridgeTrial
