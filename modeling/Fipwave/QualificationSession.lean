import Fipwave.ThrowingMethod

/-!
# The qualification session of a bridge

The authoritative state of one Cyrinx qualification: build, digital gate, two
cold cases and the corpus, in order, before a deadline. Each case is accepted,
completed and acknowledged. Any failure activates the Quiet fallback, which
can fail in turn. A method that rejects keeps what it changed before.
-/

namespace Fipwave.QualificationSession

open ThrowingMethod

/-- Period of the qualification. -/
def cyrinxDeadlineMs : ℕ := 90 * 60 * 1000
/-- Time a case takes to settle. -/
def cyrinxTransmitSettleMs : ℕ := 4500

/-- End of the runner. -/
inductive RunnerRole where
  | a | b
  deriving DecidableEq, Repr

/-- Direction of a case. -/
inductive LiteralDirection where
  | aToB | bToA
  deriving DecidableEq, Repr

/-- Why the fallback was activated. -/
inductive CyrinxFallbackReason where
  | buildFailed | digitalRoundtripFailed | coldAToBFailed | coldBToAFailed | corpusFailed
  | deadlineExpired
  deriving DecidableEq, Repr

/-- Code of a reason. -/
def CyrinxFallbackReason.code : CyrinxFallbackReason → String
  | .buildFailed => "cyrinx_build_failed"
  | .digitalRoundtripFailed => "cyrinx_digital_roundtrip_failed"
  | .coldAToBFailed => "cyrinx_cold_a_to_b_failed"
  | .coldBToAFailed => "cyrinx_cold_b_to_a_failed"
  | .corpusFailed => "cyrinx_corpus_failed"
  | .deadlineExpired => "cyrinx_deadline_expired"

/-- Stages of the qualification. -/
inductive CyrinxStage where
  | idle | build | digital | coldAToB | coldBToA | corpus | complete | quiet | unqualified
  deriving DecidableEq, Repr

/-- Codec in force. -/
inductive CyrinxSessionCodec where
  | idle | cyrinx | quiet | unqualified
  deriving DecidableEq, Repr

/-- State of the fallback. -/
inductive FallbackState where
  | available | activated | failed
  deriving DecidableEq, Repr

/-- What a role does in a case. -/
inductive CyrinxInstructionAction where
  | transmit | listen
  deriving DecidableEq, Repr

/-- A case of the corpus, as the manifest lists it. -/
structure CorpusEntry where
  /-- Name of the case. -/
  id : String
  /-- Its direction. -/
  direction : LiteralDirection
  /-- Bytes of its payload. -/
  size : ℕ
  /-- Digest of its payload. -/
  sha256 : String
  deriving DecidableEq, Repr

/-- A case of the qualification. -/
structure CyrinxQualificationCase where
  /-- Name of the case. -/
  id : String
  /-- Its direction. -/
  direction : LiteralDirection
  /-- Digest of its payload. -/
  digest : String
  /-- Bytes of its payload. -/
  size : ℕ
  /-- It is a cold case. -/
  cold : Bool
  deriving DecidableEq, Repr

/-- The two cold cases. -/
def coldCases : List CyrinxQualificationCase :=
  [⟨"cyrinx-cold-a-to-b", .aToB,
      "ba30fd6988acfc4dafd6f261b747b1486f6a6423cbee7191df46764f63e27312", 256, true⟩,
    ⟨"cyrinx-cold-b-to-a", .bToA,
      "b7b8fedbb6a5d03d34786c8bb183943dcc7e1031757bbbe3f1c7e87c6b4baf79", 256, true⟩]

/-- A case of the corpus in the qualification. -/
def corpusCase (entry : CorpusEntry) : CyrinxQualificationCase :=
  ⟨entry.id, entry.direction, entry.sha256, entry.size, false⟩

/-- An instruction the browser has accepted. -/
structure AcceptedInstruction where
  /-- Case it is for. -/
  caseIndex : ℕ
  /-- What the role does. -/
  mode : CyrinxInstructionAction
  /-- Time it was accepted. -/
  acceptedAtMs : ℕ
  deriving DecidableEq, Repr

/-- The private fields of a session. -/
structure CyrinxQualificationSession where
  /-- Codec in force. -/
  codec : CyrinxSessionCodec := .idle
  /-- Stage. -/
  stage : CyrinxStage := .idle
  /-- Time of the start. -/
  startedAtMs : Option ℕ := none
  /-- Time of the deadline. -/
  deadlineAtMs : Option ℕ := none
  /-- Largest elapsed time seen. -/
  lastElapsedMs : Option ℕ := none
  /-- Elapsed time when the session ended. -/
  terminalElapsedMs : Option ℕ := none
  /-- State of the fallback. -/
  fallbackState : FallbackState := .available
  /-- Why it was activated. -/
  fallbackReason : Option CyrinxFallbackReason := none
  /-- Current case. -/
  caseIndex : Option ℕ := none
  /-- Instruction accepted for it. -/
  accepted : Option AcceptedInstruction := none
  /-- Reason a completion that is not acknowledged would fail with. -/
  pendingCompletionReason : Option CyrinxFallbackReason := none
  /-- A cold case was received. -/
  coldReceivePassed : Bool := false
  deriving DecidableEq, Repr

variable (corpus : List CorpusEntry) (role : RunnerRole)

/-- All cases in their order. -/
def orderedCases : List CyrinxQualificationCase := coldCases ++ corpus.map corpusCase

/-- What a role does in a direction. -/
def actionFor (direction : LiteralDirection) : CyrinxInstructionAction :=
  match role, direction with
  | .a, .aToB => .transmit
  | .b, .bToA => .transmit
  | _, _ => .listen

/-- Stage of a case. -/
def stageForCase (index : ℕ) : CyrinxStage :=
  if index = 0 then .coldAToB else if index = 1 then .coldBToA else .corpus

/-- What a method leaves: an answer and the session, or the rejection and the session. -/
abbrev SessionOutcome (α : Type) :=
  Except (Fault CyrinxQualificationSession) (α × CyrinxQualificationSession)

/-- Go on with the answer and the session of a method that returned. -/
def andThen {α β : Type} (first : SessionOutcome α)
    (next : α → CyrinxQualificationSession → SessionOutcome β) : SessionOutcome β :=
  match first with
  | .error fault => .error fault
  | .ok (answer, c) => next answer c

/-- A rejection. -/
def reject {α : Type} (reasonCode : String) (c : CyrinxQualificationSession) : SessionOutcome α :=
  .error ⟨reasonCode, c⟩

/-- The reason a stage fails with. -/
def failureReasonForStage : CyrinxStage → Option CyrinxFallbackReason
  | .build => some .buildFailed
  | .digital => some .digitalRoundtripFailed
  | .coldAToB => some .coldAToBFailed
  | .coldBToA => some .coldBToAFailed
  | .corpus => some .corpusFailed
  | _ => none

/-- The session has come to an end. -/
def terminal (c : CyrinxQualificationSession) : Bool :=
  c.stage = .complete || c.stage = .quiet || c.stage = .unqualified

/-- A complete session whose last completion is not acknowledged can still be revoked. -/
def revocableComplete (c : CyrinxQualificationSession) : Bool :=
  c.stage = .complete && c.pendingCompletionReason ≠ none

/-- Start the session. -/
def start (nowMs : ℕ) (c : CyrinxQualificationSession) : Bool × CyrinxQualificationSession :=
  if c.stage ≠ .idle then (false, c)
  else (true, { c with
    codec := .cyrinx
    stage := .build
    startedAtMs := some nowMs
    deadlineAtMs := some (nowMs + cyrinxDeadlineMs)
    lastElapsedMs := some 0 })

/-- Elapsed time, which never goes back. -/
def elapsed (startedAtMs nowMs : ℕ) (c : CyrinxQualificationSession) :
    ℕ × CyrinxQualificationSession :=
  let value := max (c.lastElapsedMs.getD 0) (nowMs - startedAtMs)
  (value, { c with lastElapsedMs := some value })

/-- Activate the fallback. -/
def activate (reason : CyrinxFallbackReason) (nowMs : ℕ) (c : CyrinxQualificationSession) :
    Bool × CyrinxQualificationSession :=
  match c.startedAtMs with
  | none => (false, c)
  | some startedAtMs =>
    if c.fallbackReason ≠ none ∨ (terminal c ∧ !revocableComplete c) ∨ c.codec ≠ .cyrinx then
      (false, c)
    else
      let (value, c) := elapsed startedAtMs nowMs
        { c with
          fallbackReason := some reason
          fallbackState := .activated
          codec := .quiet
          stage := .quiet
          accepted := none
          pendingCompletionReason := none }
      let ended := if reason = .deadlineExpired then max cyrinxDeadlineMs value else value
      (true, { c with terminalElapsedMs := some ended })

/-- Expire at the deadline; answers whether the fallback was activated. -/
def expire (nowMs : ℕ) (c : CyrinxQualificationSession) : Bool × CyrinxQualificationSession :=
  match c.startedAtMs, c.deadlineAtMs with
  | some startedAtMs, some deadlineAtMs =>
    if (terminal c ∧ !revocableComplete c) ∨ c.codec ≠ .cyrinx then (false, c)
    else
      let (value, c) := elapsed startedAtMs nowMs c
      if nowMs < deadlineAtMs ∧ value < cyrinxDeadlineMs then (false, c)
      else activate .deadlineExpired nowMs c
  | _, _ => (false, c)

/-- Expire whatever the clock says. -/
def forceDeadlineExpiry (nowMs : ℕ) (c : CyrinxQualificationSession) :
    Bool × CyrinxQualificationSession :=
  if c.startedAtMs = none ∨ (terminal c ∧ !revocableComplete c) ∨ c.codec ≠ .cyrinx then (false, c)
  else activate .deadlineExpired nowMs c

/-- Activate the fallback for a reason, or for the deadline if it has passed. -/
def activateFallback (reason : CyrinxFallbackReason) (nowMs : ℕ) (c : CyrinxQualificationSession) :
    Bool × CyrinxQualificationSession :=
  match c.startedAtMs with
  | none => (false, c)
  | some startedAtMs =>
    if (terminal c ∧ !revocableComplete c) ∨ c.codec ≠ .cyrinx ∨ c.fallbackReason ≠ none then
      (false, c)
    else
      let (value, c) := elapsed startedAtMs nowMs c
      if c.deadlineAtMs.any (fun deadlineAtMs =>
          decide (nowMs ≥ deadlineAtMs) || decide (value ≥ cyrinxDeadlineMs)) then
        activate .deadlineExpired nowMs c
      else activate reason nowMs c

/-- Fail the current stage. -/
def failCurrent (nowMs : ℕ) (c : CyrinxQualificationSession) : SessionOutcome Bool :=
  if terminal c ∧ c.pendingCompletionReason = none then .ok (false, c)
  else match c.pendingCompletionReason.or (failureReasonForStage c.stage) with
    | none => reject "qualification_stage_not_failable" c
    | some reason => .ok (activateFallback reason nowMs c)

/-- The operator resets the bridge. -/
def operatorReset (nowMs : ℕ) (c : CyrinxQualificationSession) : SessionOutcome Bool :=
  let c := { c with accepted := none }
  if c.codec ≠ .cyrinx ∨ c.stage = .idle ∨ (terminal c ∧ !revocableComplete c) then .ok (false, c)
  else failCurrent nowMs c

/-- The Quiet fallback fails. -/
def markQuietFailed (c : CyrinxQualificationSession) : Bool × CyrinxQualificationSession :=
  if c.stage ≠ .quiet ∨ c.fallbackState ≠ .activated then (false, c)
  else (true, { c with codec := .unqualified, stage := .unqualified, fallbackState := .failed })

/-- The session must be under way before its deadline. -/
def assertBeforeDeadline (nowMs : ℕ) (c : CyrinxQualificationSession) : SessionOutcome Unit :=
  let (expired, c) := expire nowMs c
  if expired then reject "cyrinx_deadline_expired" c
  else if terminal c ∨ c.codec ≠ .cyrinx then reject "qualification_session_terminal" c
  else .ok ((), c)

/-- The build is done. -/
def completeBuild (nowMs : ℕ) (c : CyrinxQualificationSession) : SessionOutcome Unit :=
  if c.stage ≠ .build then reject "qualification_stage_order_invalid" c
  else andThen (assertBeforeDeadline nowMs c) (fun _ c => .ok ((), { c with stage := .digital }))

/-- The digital gate is passed. -/
def completeDigital (nowMs : ℕ) (c : CyrinxQualificationSession) : SessionOutcome Unit :=
  if c.stage ≠ .digital then reject "qualification_stage_order_invalid" c
  else andThen (assertBeforeDeadline nowMs c) (fun _ c =>
    .ok ((), { c with caseIndex := some 0, stage := stageForCase 0 }))

/-- The current case. -/
def currentCase (c : CyrinxQualificationSession) : Option CyrinxQualificationCase :=
  c.caseIndex.bind (fun index => (orderedCases corpus)[index]?)

/-- The browser accepts the instruction of the current case. -/
def acceptInstruction (caseId : String) (direction : LiteralDirection) (nowMs : ℕ)
    (c : CyrinxQualificationSession) :
    SessionOutcome (CyrinxQualificationCase × CyrinxInstructionAction) :=
  andThen (assertBeforeDeadline nowMs c) (fun _ c =>
    match currentCase corpus c, c.caseIndex with
    | some value, some caseIndex =>
      if terminal c then reject "qualification_instruction_unavailable" c
      else if c.pendingCompletionReason ≠ none then
        reject "qualification_completion_not_acknowledged" c
      else if c.accepted ≠ none then reject "qualification_instruction_already_accepted" c
      else if caseId ≠ value.id ∨ direction ≠ value.direction then
        reject "qualification_instruction_mismatch" c
      else
        let mode := actionFor role value.direction
        .ok ((value, mode), { c with accepted := some ⟨caseIndex, mode, nowMs⟩ })
    | _, _ => reject "qualification_instruction_unavailable" c)

/-- A capture belongs to an accepted instruction to listen. -/
def canReceiveCapture (c : CyrinxQualificationSession) : Bool :=
  c.accepted.any (fun accepted =>
    accepted.mode = .listen && some accepted.caseIndex = c.caseIndex) && !terminal c

/-- The accepted instruction of the current case, in a mode. -/
def acceptedFor (mode : CyrinxInstructionAction) (c : CyrinxQualificationSession) :
    SessionOutcome AcceptedInstruction :=
  match c.accepted with
  | none => reject "qualification_instruction_not_accepted" c
  | some accepted =>
    if some accepted.caseIndex ≠ c.caseIndex then
      reject "qualification_instruction_not_accepted" c
    else if accepted.mode ≠ mode then reject "qualification_instruction_mode_mismatch" c
    else .ok (accepted, c)

/-- Time until the accepted case has settled. -/
def caseSettleRemaining (mode : CyrinxInstructionAction) (nowMs : ℕ)
    (c : CyrinxQualificationSession) : SessionOutcome ℕ :=
  andThen (acceptedFor mode c) (fun accepted c =>
    .ok (cyrinxTransmitSettleMs - (nowMs - accepted.acceptedAtMs), c))

/-- Go on to the case after an accepted one, or to the end. -/
def nextCase (accepted : AcceptedInstruction) (nowMs : ℕ) (c : CyrinxQualificationSession) :
    CyrinxQualificationSession :=
  if accepted.caseIndex + 1 ≥ (orderedCases corpus).length then
    let (value, c) := elapsed (c.startedAtMs.getD 0) nowMs
      { c with caseIndex := none, stage := .complete }
    { c with terminalElapsedMs := some value }
  else
    { c with
      caseIndex := some (accepted.caseIndex + 1)
      stage := stageForCase (accepted.caseIndex + 1) }

/-- Complete the accepted case; the completion is acknowledged later. -/
def completeAccepted (mode : CyrinxInstructionAction) (nowMs : ℕ)
    (c : CyrinxQualificationSession) : SessionOutcome Unit :=
  andThen (assertBeforeDeadline nowMs c) (fun _ c =>
    if c.pendingCompletionReason ≠ none then reject "qualification_completion_not_acknowledged" c
    else andThen (acceptedFor mode c) (fun accepted c =>
      match currentCase corpus c, failureReasonForStage c.stage with
      | none, _ => reject "qualification_instruction_unavailable" c
      | _, none => reject "qualification_stage_not_failable" c
      | some value, some reason =>
        .ok ((), nextCase corpus accepted nowMs
          { c with
            pendingCompletionReason := some reason
            coldReceivePassed := c.coldReceivePassed || (mode = .listen && value.cold)
            accepted := none })))

/-- Acknowledge a completion. -/
def acknowledgeAcceptedCompletion (c : CyrinxQualificationSession) : SessionOutcome Unit :=
  if c.pendingCompletionReason = none then reject "qualification_completion_not_pending" c
  else .ok ((), { c with pendingCompletionReason := none })

/-- What a snapshot does to the session: it looks at the clock. -/
def lookAt (nowMs : ℕ) (c : CyrinxQualificationSession) : CyrinxQualificationSession :=
  match c.startedAtMs, c.terminalElapsedMs with
  | some startedAtMs, none => (elapsed startedAtMs nowMs c).2
  | _, _ => c

/-- What the browser is to do next. -/
structure CyrinxInstruction where
  /-- Transmit or listen. -/
  action : CyrinxInstructionAction
  /-- Case. -/
  caseId : String
  /-- Its direction. -/
  direction : LiteralDirection
  /-- It is a cold case. -/
  cold : Bool
  deriving DecidableEq, Repr

/-- A session as it is published. -/
structure CyrinxSessionSnapshot where
  /-- Epoch of the bridge. -/
  epoch : ℕ
  /-- Codec in force. -/
  codec : CyrinxSessionCodec
  /-- Stage. -/
  stage : CyrinxStage
  /-- Time of the start. -/
  startedAtMs : Option ℕ
  /-- Time of the deadline. -/
  deadlineAtMs : Option ℕ
  /-- Elapsed time. -/
  elapsedMs : Option ℕ
  /-- State of the fallback. -/
  fallbackState : FallbackState
  /-- Why it was activated. -/
  reasonCode : Option CyrinxFallbackReason
  /-- Instruction that can be accepted. -/
  instruction : Option CyrinxInstruction
  /-- The session has come to an end. -/
  terminal : Bool
  deriving DecidableEq, Repr

/-- The instruction of the current case, unless it is accepted or not acknowledged. -/
def instructionOf (c : CyrinxQualificationSession) : Option CyrinxInstruction :=
  if terminal c ∨ c.accepted ≠ none ∨ c.pendingCompletionReason ≠ none then none
  else (currentCase corpus c).map (fun value =>
    ⟨actionFor role value.direction, value.id, value.direction, value.cold⟩)

/-- Publish the session. -/
def snapshot (epoch nowMs : ℕ) (c : CyrinxQualificationSession) :
    CyrinxSessionSnapshot × CyrinxQualificationSession :=
  let c := lookAt nowMs c
  ({ epoch
     codec := c.codec
     stage := c.stage
     startedAtMs := c.startedAtMs
     deadlineAtMs := c.deadlineAtMs
     elapsedMs := c.startedAtMs.bind (fun _ => c.terminalElapsedMs.or c.lastElapsedMs)
     fallbackState := c.fallbackState
     reasonCode := c.fallbackReason
     instruction := instructionOf corpus role c
     terminal := terminal c }, c)

end Fipwave.QualificationSession
