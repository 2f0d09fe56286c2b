import Fipwave.AsyncMethod
import Fipwave.BridgeTrial
import Fipwave.CyrinxWorker

/-!
# Asynchronous methods of a bridge

The methods that wait: for a report to be written, for native work, for a case
to settle, or only for their turn. Between two waits a method runs alone.
After each wait a method of the qualification looks again at the counters it
started with before it goes on. Every call of an asynchronous method that is
awaited takes at least one turn.
-/

namespace Fipwave.BridgeMethods

open ByteWords FwavProtocol QualificationSession BridgePorts BridgeReport BridgeTrial AsyncMethod
open CyrinxWorker (CyrinxResult)

/-- What a method waits for. A `sessionCall` is a turn, too: the one between the check that a time
is before the deadline and a call of the session with that time. -/
inductive Awaited where
  | turn
  | sessionCall
  | write (index : ℕ)
  | build (signal : ℕ)
  | digital (signal : ℕ)
  | begin
  | capture
  | settle (controller : ℕ)
  | file
  deriving DecidableEq, Repr

/-- How a wait ends. -/
inductive Reply where
  | resolved
  | rejected
  | aborted
  | playback (encoded : Option Bytes)
  | result (result : Option (CyrinxResult String))
  deriving DecidableEq, Repr

/-- A bridge. -/
structure Bridge where
  /-- Its endpoints. -/
  ports : Ports := {}
  /-- The qualification. -/
  trial : Trial := {}
  /-- Readings of the clock so far. -/
  readings : ℕ := 0

/-- What a bridge is given. -/
structure BridgeServerOptions where
  /-- Of the endpoints. -/
  ports : PortOptions
  /-- Of the qualification. -/
  trial : TrialOptions
  /-- Readings of the clock. -/
  now : ℕ → ℕ
  /-- There is a native worker. -/
  cyrinxWorker : Bool
  /-- The JSON parser. -/
  parseJson : Bytes → Option Json

/-- Methods of a bridge. -/
abbrev BridgeM : Type → Type := Async Bridge Refusal Awaited Reply

/-- A wait can end with a reply. -/
def admits (b : Bridge) : Awaited → Reply → Bool
  | .turn, .resolved => true
  | .sessionCall, .resolved => true
  | .write index, .resolved =>
    b.trial.writes[index]?.any (fun task => task.status = .written || task.status = .skipped)
  | .write index, .rejected => b.trial.writes[index]?.any (·.status = .failed)
  | .build _, .resolved => true
  | .build _, .rejected => true
  | .build signal, .aborted => signal ≠ b.trial.operationGeneration
  | .digital _, .resolved => true
  | .digital _, .rejected => true
  | .digital signal, .aborted => signal ≠ b.trial.operationGeneration
  | .begin, .playback _ => true
  | .begin, .rejected => true
  | .capture, .result _ => true
  | .capture, .rejected => true
  | .settle _, .resolved => true
  | .settle _, .rejected => true
  | .settle controller, .aborted => b.trial.settleAbort ≠ some controller
  | .file, .resolved => true
  | .file, .rejected => true
  | _, _ => false

/-- Change the ports. -/
def onPorts (f : Ports → Ports) : BridgeM Unit := change (fun b => { b with ports := f b.ports })

/-- Change the qualification. -/
def onTrial (f : Trial → Trial) : BridgeM Unit := change (fun b => { b with trial := f b.trial })

/-- Do something on the ports that may throw. -/
def attempt (f : Ports → Except Thrown Ports) : BridgeM Unit := fun b =>
  match f b.ports with
  | .ok ports => .ok () { b with ports }
  | .error thrown => .error thrown.error { b with ports := thrown.ports }

/-- Ask the qualification. -/
def askTrial {α : Type} (f : Trial → α × Trial) : BridgeM α := fun b =>
  .ok (f b.trial).1 { b with trial := (f b.trial).2 }

/-- Do something on the qualification that may throw. -/
def attemptTrial {α : Type} (f : Trial → Except (Refusal × Trial) (α × Trial)) : BridgeM α :=
  fun b =>
    match f b.trial with
    | .ok (answer, trial) => .ok answer { b with trial }
    | .error (error, trial) => .error error { b with trial }

/-- Wait for one's turn. -/
def turn : BridgeM Unit := do
  let _ ← await .turn
  pure ()

variable (options : BridgeServerOptions)

/-- Read the clock. -/
def clock : BridgeM ℕ := fun b =>
  .ok (options.now b.readings) { b with readings := b.readings + 1 }

/-- Build a report and have it written: what to wait for. -/
def persist (expectedGeneration : Option ℕ) : BridgeM Awaited := do
  let nowMs ← clock options
  let b ← current
  let index ← askTrial (BridgeTrial.persist options.trial expectedGeneration b.ports.epoch
    b.ports.discontinuities nowMs)
  pure (index.elim .turn .write)

/-- Wait for a report; a failure of the writer is thrown. -/
def awaitWrite (on : Awaited) : BridgeM Unit := do
  match ← await on with
  | .rejected => raise (.other "report writer failed")
  | _ => pure ()

/-- Build a report and wait until it is written. -/
def awaitPersist (expectedGeneration : Option ℕ) : BridgeM Unit := do
  let on ← persist options expectedGeneration
  awaitWrite on

/-- Build a report for the current generation and wait until it is written. -/
def awaitPersistNow : BridgeM Unit := do
  let b ← current
  awaitPersist options (some b.trial.generation)

/-- Publish the session to every client. -/
def broadcastSession : BridgeM Unit := do
  let nowMs ← clock options
  let b ← current
  match ← askTrial (sessionSnapshot options.trial b.ports.epoch nowMs) with
  | none => pure ()
  | some published => onPorts (broadcast (.session published))

/-- Fail the current stage; whether that activated the fallback. -/
def transitionFallback (alreadyPreempted : Bool) : BridgeM Bool := do
  let nowMs ← clock options
  attemptTrial (transitionCurrentFallback alreadyPreempted nowMs)

/-- Fail the current stage and report it. -/
def activateCurrentFallback (alreadyPreempted : Bool) : BridgeM Unit := do
  if ← transitionFallback options alreadyPreempted then
    awaitPersistNow options
    broadcastSession options
  else pure ()

/-- Expire the session if its deadline has passed, and report it; a caller goes on after a turn. -/
def expireCyrinxAt (nowMs : ℕ) (next : Awaited := .turn) : BridgeM Bool := do
  if ← askTrial (settleExpiry nowMs) then
    awaitPersistNow options
    broadcastSession options
    turn
    pure true
  else
    let _ ← await next
    pure false

/-- Expire the session if its deadline has passed now. -/
def expireCyrinx : BridgeM Bool := do
  let nowMs ← clock options
  expireCyrinxAt options nowMs

/-- The timer of the deadline fires. -/
def forceExpireCyrinx : BridgeM Unit := do
  let nowMs ← clock options
  if ← askTrial (forceExpire nowMs) then
    awaitPersistNow options
    broadcastSession options
  else pure ()

/-- What a caller of startCyrinx learns. -/
structure CyrinxSummary where
  /-- The qualification is under Cyrinx. -/
  cyrinx : Bool
  /-- Why the fallback was activated. -/
  reasonCode : Option CyrinxFallbackReason
  /-- Time of the deadline. -/
  deadlineAtMs : ℕ
  deriving DecidableEq, Repr

/-- Summarize the session. -/
def cyrinxSummary : BridgeM CyrinxSummary := do
  let nowMs ← clock options
  onTrial (fun t => { t with session := lookAt nowMs t.session })
  let b ← current
  match b.trial.session.deadlineAtMs with
  | none => raise (.input "cyrinx deadline is unavailable")
  | some deadlineAtMs =>
    pure ⟨b.trial.session.codec = .cyrinx, b.trial.session.fallbackReason, deadlineAtMs⟩

/-- The native operation is still the current one. -/
def sameOperation (operation : ℕ) (b : Bridge) : Bool :=
  operation = b.trial.operationGeneration && b.trial.session.codec = .cyrinx

/-- The generation and the native operation are still the current ones. -/
def sameGeneration (generation operation : ℕ) (b : Bridge) : Bool :=
  generation = b.trial.generation && sameOperation operation b

/-- Have a stage reported and published; whether it is still the current operation. -/
def reportStage (operation : ℕ) : BridgeM Bool := do
  awaitPersist options none
  if !sameOperation operation (← current) then pure false
  else
    let persistedAt ← clock options
    if ← expireCyrinxAt options persistedAt then pure false
    else if !sameOperation operation (← current) then pure false
    else
      broadcastSession options
      pure true

/-- Wait for native work; whether it was aborted. -/
def waitForCyrinxOperation (work : Awaited) (operation : ℕ) : BridgeM Bool := do
  if operation ≠ (← current).trial.operationGeneration then
    turn
    pure true
  else match ← await work with
    | .rejected => raise (.other "native work failed")
    | .aborted => pure true
    | _ => pure false

/-- Wait for the work of a stage, complete it and report it. -/
def runStage (work : Awaited) (operation : ℕ)
    (complete : ℕ → CyrinxQualificationSession → SessionOutcome Unit) : BridgeM Bool := do
  let aborted ← waitForCyrinxOperation work operation
  if aborted || !sameOperation operation (← current) then pure false
  else
    let completedAt ← clock options
    if ← expireCyrinxAt options completedAt .sessionCall then pure false
    else
      attemptTrial (sessionMethod (complete completedAt))
      reportStage options operation

/-- Run a handler for whatever is thrown if the operation is still the current one. -/
def fallBackIf (isCurrent : Bridge → Bool) : BridgeM Unit := do
  if isCurrent (← current) then activateCurrentFallback options false else pure ()

/-- The build and the digital gate. -/
def runStages (operation : ℕ) : BridgeM Unit := do
  if ← runStage options (.build operation) operation completeBuild then
    let _ ← runStage options (.digital operation) operation completeDigital
    pure ()
  else pure ()

/-- Start the qualification. -/
def startCyrinx (actor : Actor) : BridgeM CyrinxSummary := do
  if options.trial.config.isNone then raise (.input "cyrinx authority is unavailable")
  else
    let nowMs ← clock options
    if !(← askTrial (startTrial actor nowMs)) then
      let _ ← expireCyrinx options
      cyrinxSummary options
    else
      let operation := (← current).trial.operationGeneration
      if ← reportStage options operation then
        catching (runStages options operation) (fun _ => fallBackIf options (sameOperation operation))
        cyrinxSummary options
      else cyrinxSummary options

/-- Case and direction an instruction of the browser names. -/
def instructionRequest (payload : List (String × Json)) (action : String) :
    Except Refusal (String × LiteralDirection) :=
  match exactObject payload ["action", "caseId", "direction"], field payload "action" with
  | true, some (.str text) =>
    if text ≠ action then .error (.input "qualification_instruction_shape_invalid")
    else do
      let direction ← match field payload "direction" with
        | some (.str "A → B") => .ok LiteralDirection.aToB
        | some (.str "B → A") => .ok LiteralDirection.bToA
        | _ => .error (.input "qualification_instruction_direction_invalid")
      let caseId ← asText (field payload "caseId") "qualification_instruction_case_invalid"
      return (caseId, direction)
  | _, _ => .error (.input "qualification_instruction_shape_invalid")

/-- A value, or its error thrown. -/
def orThrow {α : Type} : Except Refusal α → BridgeM α
  | .ok value => pure value
  | .error error => raise error

/-- Forward sound of the worker to every client. -/
def forwardPlayback (encoded : Bytes) : BridgeM Unit := do
  match decodeFrame encoded with
  | .error text => raise (.other text)
  | .ok frame =>
    if frame.type ≠ .pcmPlayback then raise (.input "bridge only forwards PCM_PLAYBACK frames")
    else if frame.epoch ≠ (← current).ports.epoch then
      raise (.input "bridge rejects stale PCM playback epoch")
    else onPorts (broadcast (.playback encoded))

/-- Play what the worker has prepared for a case that is transmitted. -/
def playCase (mode : CyrinxInstructionAction) (playback : Option Bytes) : BridgeM Unit :=
  match mode, playback with
  | .transmit, none => raise (.other "cyrinx_transmit_playback_missing")
  | .transmit, some encoded => forwardPlayback encoded
  | .listen, some _ => raise (.other "cyrinx_listener_created_playback")
  | .listen, none => pure ()

/-- Have the worker begin a case. -/
def beginCase (mode : CyrinxInstructionAction) (generation operation : ℕ) : BridgeM Unit := do
  match ← await .begin with
  | .playback playback =>
    if !sameGeneration generation operation (← current) then pure ()
    else if ← expireCyrinx options then pure ()
    else if !sameGeneration generation operation (← current) then pure ()
    else playCase mode playback
  | _ => raise (.other "native work failed")

/-- The browser accepts the instruction of the current case. -/
def acceptCyrinxInstruction (actor : Actor) (payload : List (String × Json)) : BridgeM Unit := do
  if (← current).trial.session.codec ≠ .cyrinx ∨ !options.cyrinxWorker then
    raise (.input "cyrinx_instruction_unavailable")
  else
    onTrial (noteBegin actor)
    let acceptedAt ← clock options
    if ← expireCyrinxAt options acceptedAt .sessionCall then pure ()
    else
      let request ← orThrow (instructionRequest payload "accept_cyrinx_instruction")
      let accepted ← attemptTrial (sessionMethod (acceptInstruction options.trial.corpus
        (role options.trial) request.1 request.2 acceptedAt))
      let b ← current
      catching (beginCase options accepted.2 b.trial.generation b.trial.operationGeneration)
        (fun _ => fallBackIf options
          (sameGeneration b.trial.generation b.trial.operationGeneration))

/-- Wait until a case has settled; false if the wait was aborted. -/
def waitForCyrinxSettle (delayMs : ℕ) : BridgeM Bool := do
  if delayMs = 0 then
    turn
    pure true
  else
    let controller := (← current).trial.controllerCount
    onTrial (fun t => { t with
      settleAbort := some controller, controllerCount := t.controllerCount + 1 })
    let reply ← await (.settle controller)
    onTrial (fun t => { t with
      settleAbort := if t.settleAbort = some controller then none else t.settleAbort })
    match reply with
    | .rejected => raise (.other "settle failed")
    | .aborted => pure false
    | _ => pure true

/-- Wait until the accepted case has settled; false if the method is not to go on. -/
def settleCase (mode : CyrinxInstructionAction) (generation operation : ℕ) : BridgeM Bool :=
  catching
    (do
      let nowMs ← clock options
      let remaining ← attemptTrial (sessionMethod (caseSettleRemaining mode nowMs))
      waitForCyrinxSettle remaining)
    (fun _ => do
      fallBackIf options (sameGeneration generation operation)
      pure false)

/-- The generation is still current and the deadline has not passed; the time of this. -/
def stillCurrent (generation operation : ℕ) (next : Awaited := .turn) : BridgeM (Option ℕ) := do
  if !sameGeneration generation operation (← current) then pure none
  else
    let nowMs ← clock options
    if ← expireCyrinxAt options nowMs next then pure none
    else if !sameGeneration generation operation (← current) then pure none
    else pure (some nowMs)

/-- The browser has played the current case. -/
def completeCyrinxPlayback (actor : Actor) (payload : List (String × Json)) : BridgeM Unit := do
  if (← current).trial.session.codec ≠ .cyrinx then
    raise (.input "cyrinx_instruction_unavailable")
  else
    onTrial (noteBegin actor)
    let request ← orThrow (instructionRequest payload "playback_complete")
    let b ← current
    match currentCase options.trial.corpus b.trial.session with
    | none => raise (.input "qualification_instruction_mismatch")
    | some value =>
      if value.id ≠ request.1 ∨ value.direction ≠ request.2 then
        raise (.input "qualification_instruction_mismatch")
      else
        let generation := b.trial.generation
        let operation := b.trial.operationGeneration
        if !(← settleCase options .transmit generation operation) then pure ()
        else match ← stillCurrent options generation operation .sessionCall with
          | none => pure ()
          | some completedAt =>
            attemptTrial (completeTrial options.trial actor .transmit completedAt)
            awaitPersist options (some generation)
            match ← stillCurrent options generation operation with
            | none => pure ()
            | some _ =>
              attemptTrial acknowledgeTrial
              broadcastSession options

/-- The result of the worker is a faultless one of the current case. -/
def faultless (epoch : ℕ) (value : CyrinxQualificationCase) (native : CyrinxResult String) : Bool :=
  native.epoch = epoch && native.direction = value.direction && native.caseId = value.id &&
    native.digest = some value.digest && native.complete && !native.corrupt &&
    native.missing = 0 && native.duplicates = 0 && native.deliveryCount = 1 && native.bytePerfect

/-- A result of the worker as it is kept. -/
def nativeResult (epoch : ℕ) (value : CyrinxQualificationCase) (native : CyrinxResult String) :
    BrowserResult :=
  { epoch
    caseId := value.id
    receivedSha256 := native.digest
    acquisitionMs := native.acquisitionMs
    airtimeMs := native.airtimeMs
    deliveryCount := native.deliveryCount
    bytePerfect := native.bytePerfect
    coldAcquired := false
    complete := native.complete
    corrupt := native.corrupt
    missing := native.missing
    duplicates := native.duplicates
    queues := native.queues }

/-- Keep the result of a case of the corpus; whether the method goes on. -/
def recordCase (value : CyrinxQualificationCase) (native : CyrinxResult String) : BridgeM Bool := do
  let b ← current
  if value.cold then pure true
  else if !isExpected options.trial value.id then
    activateCurrentFallback options false
    pure false
  else if (b.trial.results.lookup value.id).isSome then
    onTrial (addFailure "duplicate_case")
    activateCurrentFallback options false
    pure false
  else
    onTrial (recordResult (nativeResult b.ports.epoch value native)
      (.native b.trial.session.codec))
    pure true

/-- Send the browser an acknowledgement, and note it. -/
def acknowledge (socket : ℕ) (message : Outbound) (k : Acknowledgement) : BridgeM Unit :=
  change (fun b => { b with
    ports := send socket message b.ports
    trial := noteAcknowledgement k b.trial })

/-- Complete a case that was received, have it reported and acknowledge it. -/
def concludeCapture (actor : Actor) (socket : ℕ) (value : CyrinxQualificationCase)
    (native : CyrinxResult String) (generation operation completedAt : ℕ) : BridgeM Unit := do
  let mark := (← current).trial.writes.length
  if !(← recordCase options value native) then pure ()
  else
    attemptTrial (completeTrial options.trial actor .listen completedAt)
    let record := caseRecord options.trial value.id (← current).trial
    awaitPersist options (some generation)
    match ← stillCurrent options generation operation with
    | none => pure ()
    | some _ =>
      attemptTrial acknowledgeTrial
      let b ← current
      if isOpen socket b.ports then
        acknowledge socket (.cyrinxResult b.ports.epoch value.id value.direction value.cold)
          ⟨⟨value.id, mark, generation, record⟩, .cyrinxResult⟩
      else pure ()
      broadcastSession options

/-- What the worker made of a capture. -/
def useCapture (actor : Actor) (socket : ℕ) (native : CyrinxResult String)
    (generation operation : ℕ) : BridgeM Unit := do
  match ← stillCurrent options generation operation with
  | none => pure ()
  | some _ =>
    let b ← current
    match (currentCase options.trial.corpus b.trial.session).filter
        (fun value => faultless b.ports.epoch value native) with
    | none => activateCurrentFallback options false
    | some value =>
      if !(← settleCase options .listen generation operation) then pure ()
      else match ← stillCurrent options generation operation .sessionCall with
        | none => pure ()
        | some completedAt =>
          concludeCapture options actor socket value native generation operation completedAt

/-- A capture of the browser while Cyrinx is in force. -/
def acceptCyrinxCapture (actor : Actor) (socket : ℕ) : BridgeM Unit := do
  if (← current).trial.session.codec ≠ .cyrinx then pure ()
  else
    onTrial (noteBegin actor)
    if ← expireCyrinx options then pure ()
    else if !canReceiveCapture (← current).trial.session ∨ !options.cyrinxWorker then pure ()
    else
      let b ← current
      let generation := b.trial.generation
      let operation := b.trial.operationGeneration
      match ← await .capture with
      | .result none => pure ()
      | .result (some native) => useCapture options actor socket native generation operation
      | _ => fallBackIf options (sameGeneration generation operation)

end Fipwave.BridgeMethods
