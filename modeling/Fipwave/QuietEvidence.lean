import Fipwave.QualificationSession
import Fipwave.ScriptIntegers
import Fipwave.ByteWords

/-!
# Evidence of a Quiet receiver

Fragments that arrive are collected by case. A case that is full starts a
digest of its payload and stays in the map until the digest is there; then it
leaves the map and its evidence is complete. A flush gives up what is left. A
reset flushes and begins a new session; digests that are under way go on.
-/

namespace Fipwave.QuietEvidence

open ByteWords ScriptIntegers QualificationSession

/-- Bytes of a modem frame. -/
def quietFrameBytes : ℕ := 253
/-- Bytes of the envelope of a fragment. -/
def quietEnvelopeBytes : ℕ := 32
/-- Largest payload of a fragment. -/
def quietDataBytes : ℕ := quietFrameBytes - quietEnvelopeBytes

/-- The magic of a fragment. -/
def quietMagic : Bytes := [0x46, 0x51, 0x54, 0x31]

/-- A fragment of a case. -/
structure QuietFragment where
  /-- Epoch of the sender. -/
  epoch : ℕ
  /-- The sender. -/
  sender : RunnerRole
  /-- Direction of the case. -/
  direction : LiteralDirection
  /-- Number of the case in its direction. -/
  caseIndex : ℕ
  /-- Number of the fragment. -/
  fragmentIndex : ℕ
  /-- Number of fragments of the case. -/
  fragmentCount : ℕ
  /-- Length of the payload of the case. -/
  declaredLength : ℕ
  /-- First bytes of the digest of the case. -/
  digestPrefix : Bytes
  /-- Name of the case. -/
  caseId : String
  /-- Payload of the fragment. -/
  payload : Bytes
  deriving DecidableEq, Repr

/-- Direction of a direction byte. -/
def parseDirection (value : ℕ) : Option LiteralDirection :=
  if value = 0 then some .aToB else if value = 1 then some .bToA else none

/-- Role of a sender byte. -/
def parseSender (value : ℕ) : Option RunnerRole :=
  if value = 0 then some .a else if value = 1 then some .b else none

/-- The receiver's surroundings. -/
structure EvidenceOptions where
  /-- Cases of the manifest. -/
  corpus : List CorpusEntry
  /-- The digest in hexadecimal. -/
  sha256 : Bytes → String

variable (options : EvidenceOptions)

/-- Decode a fragment; every failure is ignored by the caller. -/
def decodeFragment (bytes : Bytes) : Option QuietFragment :=
  if bytes.length < quietEnvelopeBytes ∨ sliceAt bytes 0 4 ≠ quietMagic ∨
      bytes.length > quietFrameBytes then none
  else if wordAt bytes 13 1 = 0 ∨ wordAt bytes 12 1 ≥ wordAt bytes 13 1 then none
  else do
    let direction ← parseDirection (wordAt bytes 9 1)
    let entry ← (options.corpus.filter (fun entry => entry.direction = direction))[wordAt bytes 10 2]?
    if entry.id = "" then none
    else
      let sender ← parseSender (wordAt bytes 8 1)
      return {
        epoch := wordAt bytes 4 4
        sender
        direction
        caseIndex := wordAt bytes 10 2
        fragmentIndex := wordAt bytes 12 1
        fragmentCount := wordAt bytes 13 1
        declaredLength := wordAt bytes 14 2
        digestPrefix := sliceAt bytes 16 8
        caseId := entry.id
        payload := bytes.drop quietEnvelopeBytes }

/-- The peer of a role. -/
def peerRole : RunnerRole → RunnerRole
  | .a => .b
  | .b => .a

/-- The direction a role receives in. -/
def receiveDirectionForRole : RunnerRole → LiteralDirection
  | .a => .bToA
  | .b => .aToB

/-- A hexadecimal digit. -/
def hexDigit (value : ℕ) : Char := Char.ofNat (if value < 10 then 48 + value else 87 + value)

/-- Bytes in hexadecimal. -/
def hexOf (bytes : Bytes) : List Char :=
  bytes.flatMap (fun byte => [hexDigit (byte.toNat / 16), hexDigit (byte.toNat % 16)])

/-- A receive session. -/
structure ReceiverSession where
  /-- Epoch of the session. -/
  epoch : ℕ
  /-- The own role. -/
  localRole : RunnerRole
  /-- Time it was started at. -/
  startedAtMs : ℚ
  deriving DecidableEq, Repr

/-- The key cases are collected under. -/
structure CaseKey where
  /-- Epoch of the fragments. -/
  epoch : ℕ
  /-- Their sender. -/
  sender : RunnerRole
  /-- Name of the case. -/
  caseId : String
  deriving DecidableEq, Repr

/-- The key of a fragment. -/
def QuietFragment.key (fragment : QuietFragment) : CaseKey :=
  ⟨fragment.epoch, fragment.sender, fragment.caseId⟩

/-- A case that is being collected; the map and the digests under way share it. -/
structure PartialCase where
  /-- Its first fragment. -/
  fragment : QuietFragment
  /-- Payloads by fragment, in the order they arrived in. -/
  parts : List (ℕ × Bytes)
  /-- Fragments that arrived again. -/
  duplicates : ℕ
  /-- Time of the first fragment. -/
  startedAtMs : ℚ
  /-- Arrivals collected into the case; the receiver does not read them. -/
  arrivals : List ℕ
  deriving DecidableEq, Repr

/-- Measurements of a session. -/
structure ReceiverMetrics where
  /-- Most bytes held at once. -/
  captureHighWaterBytes : ℕ := 0
  /-- Longest time a case was held. -/
  captureHighWaterMs : ℚ := 0
  /-- Fragments that fit no case. -/
  discontinuities : ℕ := 0
  deriving DecidableEq, Repr

/-- Evidence of one case. -/
structure ReceiveCaseEvidence where
  /-- Epoch of the case. -/
  epoch : ℕ
  /-- Its sender. -/
  sender : RunnerRole
  /-- Its direction. -/
  direction : LiteralDirection
  /-- Its name. -/
  caseId : String
  /-- Digest of its payload, if it is complete. -/
  digest : Option String
  /-- Time from the start of the session to its first fragment. -/
  acquisitionMs : ℚ
  /-- Time from its first fragment to its last. -/
  airtimeMs : ℚ
  /-- Two if a fragment arrived again. -/
  deliveryCount : ℕ
  /-- It is the first one completed in the session. -/
  coldAcquired : Bool
  /-- All fragments arrived. -/
  complete : Bool
  /-- Its payload is not that of the manifest. -/
  corrupt : Bool
  /-- Fragments that did not arrive. -/
  missing : ℕ
  /-- Fragments that arrived again. -/
  duplicates : ℕ
  deriving DecidableEq, Repr

/-- A digest under way and what its continuation captured. -/
structure PendingDigest where
  /-- Number of the digest. -/
  number : ℕ
  /-- The case. -/
  caseName : ℕ
  /-- The fragment that started the digest. -/
  fragment : QuietFragment
  /-- The entry of the manifest. -/
  expected : CorpusEntry
  /-- Payload of the case. -/
  payload : Bytes
  /-- Time the fragment arrived at. -/
  nowMs : ℚ
  deriving DecidableEq, Repr

/-- A record that `accept` resolved to, with its origin. -/
structure Completion where
  /-- Number of the digest. -/
  number : ℕ
  /-- The case. -/
  caseName : ℕ
  /-- Key of the case. -/
  key : CaseKey
  /-- Arrivals that went into the case. -/
  arrivals : List ℕ
  /-- The record. -/
  evidence : ReceiveCaseEvidence
  deriving DecidableEq, Repr

/-- A payload that was stored. -/
structure StoredFragment where
  /-- The arrival. -/
  arrival : ℕ
  /-- Key of its case. -/
  key : CaseKey
  /-- Number of the fragment. -/
  index : ℕ
  deriving DecidableEq, Repr

/-- The receiver; cases are named as they are created. -/
structure QuietReceiverEvidence where
  /-- Cases by key, in the order they were created in. -/
  parts : List (CaseKey × ℕ) := []
  /-- Cases by name. -/
  cases : ℕ → Option PartialCase := fun _ => none
  /-- Name of the next case. -/
  nextCase : ℕ := 0
  /-- The session. -/
  session : ReceiverSession
  /-- Its measurements. -/
  metrics : ReceiverMetrics := {}
  /-- A case of the session was completed. -/
  completedCase : Bool := false
  /-- Digests under way. -/
  pending : List PendingDigest := []
  /-- Number of the next digest. -/
  nextDigest : ℕ := 0
  /-- Fragments given so far; like the following, the receiver does not read it. -/
  arrived : ℕ := 0
  /-- Payloads stored. -/
  stored : List StoredFragment := []
  /-- Records that `accept` resolved to. -/
  completions : List Completion := []
  /-- Records that `flush` and `reset` returned. -/
  incomplete : List ReceiveCaseEvidence := []

/-- The fragment belongs to the session. -/
def isExpected (session : ReceiverSession) (fragment : QuietFragment) : Bool :=
  fragment.epoch = session.epoch && fragment.sender = peerRole session.localRole &&
    fragment.direction = receiveDirectionForRole session.localRole

/-- The name a key is mapped to. -/
def lookup (key : CaseKey) (parts : List (CaseKey × ℕ)) : Option ℕ :=
  (parts.find? (fun entry => entry.1 = key)).map (·.2)

/-- The cases in the map. -/
def currentCases (e : QuietReceiverEvidence) : List PartialCase :=
  e.parts.filterMap (fun entry => e.cases entry.2)

/-- Bytes of a case. -/
def caseBytes (current : PartialCase) : ℕ := (current.parts.map (fun part => part.2.length)).sum

/-- Measure what is held. -/
def updateHighWater (current : PartialCase) (nowMs : ℚ) (e : QuietReceiverEvidence) :
    QuietReceiverEvidence :=
  { e with metrics := { e.metrics with
      captureHighWaterBytes :=
        max e.metrics.captureHighWaterBytes ((currentCases e).map caseBytes).sum
      captureHighWaterMs :=
        max e.metrics.captureHighWaterMs (max 0 (nowMs - current.startedAtMs)) } }

/-- Count a fragment that fits no case. -/
def discontinuity (e : QuietReceiverEvidence) : QuietReceiverEvidence :=
  { e with metrics := { e.metrics with discontinuities := e.metrics.discontinuities + 1 } }

/-- The payload of a full case. -/
def casePayload (current : PartialCase) (declaredLength : ℕ) : Bytes :=
  ((current.parts.mergeSort (fun left right => left.1 ≤ right.1)).flatMap (·.2)).take declaredLength

/-- The case holds a fragment of a number. -/
def holds (current : PartialCase) (index : ℕ) : Bool :=
  current.parts.any (fun part => part.1 = index)

/-- The case with one more fragment. -/
def addFragment (arrival : ℕ) (fragment : QuietFragment) (current : PartialCase) : PartialCase :=
  if holds current fragment.fragmentIndex then
    { current with
      duplicates := current.duplicates + 1
      arrivals := current.arrivals ++ [arrival] }
  else
    { current with
      parts := current.parts ++ [(fragment.fragmentIndex, fragment.payload)]
      arrivals := current.arrivals ++ [arrival] }

/-- Begin the digest of a full case. -/
def startDigest (caseName : ℕ) (current : PartialCase) (fragment : QuietFragment)
    (expected : CorpusEntry) (nowMs : ℚ) (e : QuietReceiverEvidence) : QuietReceiverEvidence :=
  { e with
    nextDigest := e.nextDigest + 1
    pending := e.pending ++
      [⟨e.nextDigest, caseName, fragment, expected, casePayload current fragment.declaredLength,
        nowMs⟩] }

/-- Put a case with one more fragment into the map. -/
def putCase (arrival caseName : ℕ) (fragment : QuietFragment) (before : PartialCase)
    (parts : List (CaseKey × ℕ)) (nextCase : ℕ) (e : QuietReceiverEvidence) :
    QuietReceiverEvidence :=
  { e with
    parts
    nextCase
    cases := Function.update e.cases caseName (some (addFragment arrival fragment before))
    stored := if holds before fragment.fragmentIndex then e.stored
      else e.stored ++ [⟨arrival, fragment.key, fragment.fragmentIndex⟩] }

/-- Collect a fragment that fits the manifest. -/
def collect (arrival : ℕ) (fragment : QuietFragment) (expected : CorpusEntry) (nowMs : ℚ)
    (e : QuietReceiverEvidence) : QuietReceiverEvidence :=
  let existing := do
    let caseName ← lookup fragment.key e.parts
    let current ← e.cases caseName
    return (caseName, current)
  let (caseName, before) := existing.getD (e.nextCase, ⟨fragment, [], 0, nowMs, []⟩)
  if before.fragment.fragmentCount ≠ fragment.fragmentCount ∨
      before.fragment.declaredLength ≠ fragment.declaredLength then discontinuity e
  else
    let current := addFragment arrival fragment before
    let parts := if existing = none then e.parts ++ [(fragment.key, caseName)] else e.parts
    let nextCase := if existing = none then e.nextCase + 1 else e.nextCase
    let e := updateHighWater current nowMs
      (putCase arrival caseName fragment before parts nextCase e)
    if current.parts.length ≠ fragment.fragmentCount then e
    else startDigest caseName current fragment expected nowMs e

/-- The fragment is of the session and fits the manifest. -/
def fits (expected : CorpusEntry) (fragment : QuietFragment) : Bool :=
  fragment.declaredLength = expected.size &&
    fragment.fragmentCount = max 1 (ceilDivide expected.size quietDataBytes) &&
    hexOf fragment.digestPrefix = expected.sha256.toList.take 16

/-- A fragment arrives. -/
def accept (raw : Bytes) (nowMs : ℚ) (e : QuietReceiverEvidence) : QuietReceiverEvidence :=
  let arrival := e.arrived
  let e := { e with arrived := e.arrived + 1 }
  match decodeFragment options raw with
  | none => e
  | some fragment =>
    if !isExpected e.session fragment then e
    else match options.corpus.find? (fun entry => entry.id = fragment.caseId) with
      | none => discontinuity e
      | some expected =>
        if !fits expected fragment then discontinuity e
        else collect arrival fragment expected nowMs e

/-- The evidence of a complete case. -/
def completeEvidence (digest : PendingDigest) (current : PartialCase) (e : QuietReceiverEvidence) :
    ReceiveCaseEvidence :=
  { epoch := digest.fragment.epoch
    sender := digest.fragment.sender
    direction := digest.fragment.direction
    caseId := digest.fragment.caseId
    digest := some (options.sha256 digest.payload)
    acquisitionMs := max 0 (current.startedAtMs - e.session.startedAtMs)
    airtimeMs := max 0 (digest.nowMs - current.startedAtMs)
    deliveryCount := if current.duplicates = 0 then 1 else 2
    coldAcquired := !e.completedCase
    complete := true
    corrupt := options.sha256 digest.payload ≠ digest.expected.sha256 ||
      digest.payload.length ≠ digest.fragment.declaredLength
    missing := 0
    duplicates := current.duplicates }

/-- A digest is there. -/
def completeDigest (number : ℕ) (e : QuietReceiverEvidence) : QuietReceiverEvidence :=
  match e.pending.find? (fun digest => digest.number = number) with
  | none => e
  | some digest =>
    match e.cases digest.caseName with
    | none => e
    | some current =>
      { e with
        parts := e.parts.filter (fun entry => entry.1 ≠ digest.fragment.key)
        completedCase := true
        pending := e.pending.filter (fun other => other.number ≠ number)
        completions := e.completions ++
          [⟨number, digest.caseName, digest.fragment.key, current.arrivals,
            completeEvidence options digest current e⟩] }

/-- The evidence of a case that is given up. -/
def incompleteEvidence (session : ReceiverSession) (nowMs : ℚ) (current : PartialCase) :
    ReceiveCaseEvidence :=
  { epoch := current.fragment.epoch
    sender := current.fragment.sender
    direction := current.fragment.direction
    caseId := current.fragment.caseId
    digest := none
    acquisitionMs := max 0 (current.startedAtMs - session.startedAtMs)
    airtimeMs := max 0 (nowMs - current.startedAtMs)
    deliveryCount := 0
    coldAcquired := false
    complete := false
    corrupt := false
    missing := current.fragment.fragmentCount - current.parts.length
    duplicates := current.duplicates }

/-- Give up what is collected. -/
def flush (nowMs : ℚ) (e : QuietReceiverEvidence) : QuietReceiverEvidence :=
  let measured := (currentCases e).foldl (fun e current => updateHighWater current nowMs e) e
  { measured with
    parts := []
    incomplete := e.incomplete ++ (currentCases e).map (incompleteEvidence e.session nowMs) }

/-- Begin a new session. -/
def reset (session : ReceiverSession) (nowMs : ℚ) (e : QuietReceiverEvidence) :
    QuietReceiverEvidence :=
  { flush nowMs e with
    session
    metrics := {}
    completedCase := false }

/-- What happens to a receiver. -/
inductive EvidenceEvent where
  /-- Bytes arrive. -/
  | accept (raw : Bytes) (nowMs : ℚ)
  /-- A digest is there. -/
  | digest (number : ℕ)
  /-- What is collected is given up. -/
  | flush (nowMs : ℚ)
  /-- A new session begins. -/
  | reset (session : ReceiverSession) (nowMs : ℚ)

/-- One event. -/
def step (e : QuietReceiverEvidence) : EvidenceEvent → QuietReceiverEvidence
  | .accept raw nowMs => accept options raw nowMs e
  | .digest number => completeDigest options number e
  | .flush nowMs => flush nowMs e
  | .reset session nowMs => reset session nowMs e

end Fipwave.QuietEvidence
