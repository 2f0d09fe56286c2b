import Mathlib.Algebra.Order.Ring.Rat
import Fipwave.ByteWords
import Fipwave.TransitionRun

/-!
# The responder of isolation challenges

A call reserves a place in the list of recent requests and an entry in the
map of challenges, waits for a snapshot and answers with its digest. A
snapshot that fails gives both back: the entry under the challenge of the
call, and the reservation made last.
-/

namespace Fipwave.IsolationAttestation

open ByteWords TransitionRun

/-- Values that are serialized. -/
inductive Json where
  | null
  | text (value : Bytes)
  | number (value : ℚ)
  | flag (value : Bool)
  | array (items : List Json)
  | object (fields : List (String × Json))

/-- The transport of a snapshot. -/
structure IsolationTransport where
  /-- Identifier. -/
  transportId : ℚ
  /-- Kind. -/
  type : Bytes
  /-- State. -/
  state : Bytes
  /-- The worker runs. -/
  workerUp : Bool
  /-- The acoustic session is ready. -/
  acousticReady : Bool
  deriving DecidableEq, Repr

/-- The link of a snapshot. -/
structure IsolationLink where
  /-- Identifier. -/
  linkId : ℚ
  /-- Key of the peer. -/
  peerPublicKey : Bytes
  deriving DecidableEq, Repr

/-- What a responder attests; texts are their UTF-8 bytes. -/
structure IsolationSnapshot where
  /-- Key expected of the peer. -/
  expectedPeerPublicKey : Bytes
  /-- Address. -/
  targetIpv6 : Bytes
  /-- Build. -/
  build : Bytes
  /-- Epoch. -/
  epoch : ℚ
  /-- Settings. -/
  settingsId : Bytes
  /-- Time of the observation. -/
  observedAtMs : ℚ
  /-- Transport. -/
  transport : IsolationTransport
  /-- Link. -/
  link : IsolationLink
  deriving DecidableEq, Repr

/-- The answer to a challenge. -/
structure Attestation where
  /-- The challenge. -/
  challenge : Bytes
  /-- What is attested. -/
  snapshot : IsolationSnapshot
  /-- Digest of both. -/
  snapshotDigest : Bytes
  deriving DecidableEq, Repr

/-- A challenge as it arrives. -/
structure ChallengeInput where
  /-- An object of exactly two keys with the schema version 1. -/
  wellShaped : Bool
  /-- Its challenge. -/
  challenge : Bytes
  deriving DecidableEq, Repr

/-- Functions of the platform. -/
structure IsolationResponderOptions where
  /-- `JSON.stringify`. -/
  stringify : Json → Bytes
  /-- Hexadecimal SHA-256. -/
  sha256 : Bytes → Bytes

/-- Largest answer. -/
def maxBytes : ℕ := 1024
/-- Size of a challenge. -/
def challengeBytes : ℕ := 32
/-- Window of the rate limit. -/
def windowMs : ℚ := 60000
/-- Time a challenge is remembered. -/
def replayTtlMs : ℚ := 120000
/-- Challenges remembered. -/
def maxReplays : ℕ := 32
/-- Requests in a window. -/
def maxPerMinute : ℕ := 6

section Checks

/-- A decimal digit. -/
def isDigit (byte : UInt8) : Bool := 0x30 ≤ byte && byte ≤ 0x39
/-- A small letter. -/
def isLower (byte : UInt8) : Bool := 0x61 ≤ byte && byte ≤ 0x7a
/-- A capital letter. -/
def isUpper (byte : UInt8) : Bool := 0x41 ≤ byte && byte ≤ 0x5a
/-- A hexadecimal digit of either case. -/
def isHex (byte : UInt8) : Bool :=
  isDigit byte || (0x61 ≤ byte && byte ≤ 0x66) || (0x41 ≤ byte && byte ≤ 0x46)
/-- A character of base64url. -/
def isBase64 (byte : UInt8) : Bool :=
  isUpper byte || isLower byte || isDigit byte || byte = 0x5f || byte = 0x2d

/-- The check of a challenge. -/
def challengeValid (value : ChallengeInput) : Bool :=
  value.wellShaped && value.challenge.length = 43 && value.challenge.all isBase64 &&
    value.challenge.length * 6 / 8 = challengeBytes

/-- A whole number a double holds exactly. -/
def isSafeInteger (value : ℚ) : Bool :=
  value.den = 1 && -9007199254740991 ≤ value && value ≤ 9007199254740991

/-- `npub1` followed by digits and small letters. -/
def isPublicKey (key : Bytes) : Bool :=
  key.take 5 = [0x6e, 0x70, 0x75, 0x62, 0x31] && key.length > 5 &&
    (key.drop 5).all (fun byte => isDigit byte || isLower byte)

/-- `fd`, two hexadecimal digits, a colon and hexadecimal digits or colons, in either case. -/
def isUniqueLocal (address : Bytes) : Bool :=
  (address.getD 0 0 = 0x66 || address.getD 0 0 = 0x46) &&
    (address.getD 1 0 = 0x64 || address.getD 1 0 = 0x44) && isHex (address.getD 2 0) &&
    isHex (address.getD 3 0) && address.getD 4 0 = 0x3a && address.length > 5 &&
    (address.drop 5).all (fun byte => isHex byte || byte = 0x3a)

/-- Forty hexadecimal digits. -/
def isBuild (build : Bytes) : Bool := build.length = 40 && build.all isHex

/-- The check of a snapshot for a call that began at a time. -/
def snapshotValid (value : IsolationSnapshot) (now : ℚ) : Bool :=
  isPublicKey value.expectedPeerPublicKey && isUniqueLocal value.targetIpv6 &&
    isBuild value.build && isSafeInteger value.epoch && 0 ≤ value.epoch && value.settingsId ≠ [] &&
    isSafeInteger value.observedAtMs && now - value.observedAtMs ≤ windowMs &&
    value.observedAtMs ≤ now + 1000 && value.transport.type = [0x73, 0x6f, 0x75, 0x6e, 0x64] &&
    value.transport.state = [0x61, 0x63, 0x74, 0x69, 0x76, 0x65] && value.transport.workerUp &&
    value.transport.acousticReady && isSafeInteger value.transport.transportId &&
    isSafeInteger value.link.linkId && value.link.peerPublicKey = value.expectedPeerPublicKey

/-- The link as it is serialized. -/
def linkJson (link : IsolationLink) : Json :=
  .object [("linkId", .number link.linkId), ("peerPublicKey", .text link.peerPublicKey)]

/-- The transport as it is serialized. -/
def transportJson (transport : IsolationTransport) : Json :=
  .object [("transportId", .number transport.transportId), ("type", .text transport.type),
    ("state", .text transport.state), ("workerUp", .flag transport.workerUp),
    ("acousticReady", .flag transport.acousticReady)]

/-- What is hashed, keys in alphabetical order. -/
def canonical (value : IsolationSnapshot) (challenge : Bytes) : Json :=
  .object [("build", .text value.build), ("challenge", .text challenge),
    ("epoch", .number value.epoch), ("expectedPeerPublicKey", .text value.expectedPeerPublicKey),
    ("link", linkJson value.link), ("observedAtMs", .number value.observedAtMs),
    ("schemaVersion", .number 1), ("settingsId", .text value.settingsId),
    ("targetIpv6", .text value.targetIpv6), ("transport", transportJson value.transport)]

/-- The answer as it is sent. -/
def responseJson (value : Attestation) : Json :=
  .object [("schemaVersion", .number 1), ("challenge", .text value.challenge),
    ("expectedPeerPublicKey", .text value.snapshot.expectedPeerPublicKey),
    ("targetIpv6", .text value.snapshot.targetIpv6), ("build", .text value.snapshot.build),
    ("epoch", .number value.snapshot.epoch), ("settingsId", .text value.snapshot.settingsId),
    ("observedAtMs", .number value.snapshot.observedAtMs),
    ("transport", transportJson value.snapshot.transport), ("link", linkJson value.snapshot.link),
    ("snapshotDigest", .text value.snapshotDigest)]

end Checks

/-- What became of a call. -/
inductive CallStatus where
  /-- It threw before it made a reservation. -/
  | refused (reason : String)
  /-- It waits for its snapshot. -/
  | waiting
  /-- Its snapshot failed. -/
  | snapshotFailed (reason : String)
  /-- Its answer was too large; it threw `attestation_oversize`. -/
  | oversize
  /-- It answered. -/
  | attested (response : Attestation)
  deriving DecidableEq, Repr

/-- A call of `attest`. -/
structure Call where
  /-- Reading of the clock at its start. -/
  time : ℚ
  /-- Its challenge. -/
  challenge : Bytes
  /-- What became of it. -/
  status : CallStatus
  deriving DecidableEq, Repr

/-- A place in `requests`. -/
structure Reservation where
  /-- When it was made. -/
  time : ℚ
  /-- The call that made it; read by no function. -/
  call : ℕ
  deriving DecidableEq, Repr

/-- An entry of `replay`. -/
structure ReplayEntry where
  /-- Its key. -/
  challenge : Bytes
  /-- When it was set. -/
  time : ℚ
  /-- The call that set it; read by no function. -/
  call : ℕ
  deriving DecidableEq, Repr

/-- The state of a responder and the calls made to it. -/
structure Responder where
  /-- Challenges remembered, the oldest first. -/
  replay : List ReplayEntry := []
  /-- Recent requests, the oldest first. -/
  requests : List Reservation := []
  /-- Calls, in the order of their start. -/
  calls : List Call := []
  deriving DecidableEq, Repr

/-- A call that throws before it made a reservation. -/
def refuse (now : ℚ) (challenge : Bytes) (reason : String) (s : Responder) : Responder :=
  { s with calls := s.calls ++ [⟨now, challenge, .refused reason⟩] }

/-- `attest` until it waits for the snapshot. -/
def attest (now : ℚ) (value : ChallengeInput) (s : Responder) : Responder :=
  if !challengeValid value then refuse now value.challenge "challenge_invalid" s
  else
    let s := { s with
      replay := s.replay.filter (fun entry => !(now - entry.time > replayTtlMs))
      requests := s.requests.dropWhile (fun reservation => now - reservation.time > windowMs) }
    if s.requests.length ≥ maxPerMinute then refuse now value.challenge "rate_limited" s
    else if s.replay.any (fun entry => entry.challenge = value.challenge) then
      refuse now value.challenge "challenge_replayed" s
    else
      { replay := s.replay ++ [⟨value.challenge, now, s.calls.length⟩]
        requests := s.requests ++ [⟨now, s.calls.length⟩]
        calls := s.calls ++ [⟨now, value.challenge, .waiting⟩] }

/-- The snapshot of a call fails. -/
def failSnapshot (index : ℕ) (call : Call) (reason : String) (s : Responder) : Responder :=
  { replay := s.replay.filter (fun entry => entry.challenge ≠ call.challenge)
    requests := s.requests.dropLast
    calls := s.calls.set index { call with status := .snapshotFailed reason } }

/-- A call answers with its snapshot. -/
def answer (options : IsolationResponderOptions) (index : ℕ) (call : Call)
    (value : IsolationSnapshot) (s : Responder) : Responder :=
  let response : Attestation :=
    ⟨call.challenge, value,
      options.sha256 (options.stringify (canonical value call.challenge))⟩
  { s with
    replay := if s.replay.length > maxReplays then s.replay.drop 1 else s.replay
    calls := s.calls.set index { call with
      status :=
        if (options.stringify (responseJson response)).length > maxBytes then .oversize
        else .attested response } }

/-- The check of a snapshot that settled. -/
def currentSnapshot (outcome : Except String IsolationSnapshot) (now : ℚ) :
    Except String IsolationSnapshot :=
  match outcome with
  | .error reason => .error reason
  | .ok value => if snapshotValid value now then .ok value else .error "snapshot_invalid"

/-- The snapshot of a waiting call settles. -/
def settle (options : IsolationResponderOptions) (index : ℕ)
    (outcome : Except String IsolationSnapshot) (s : Responder) : Responder :=
  match s.calls[index]? with
  | none => s
  | some call =>
    if call.status ≠ .waiting then s
    else match currentSnapshot outcome call.time with
      | .error reason => failSnapshot index call reason s
      | .ok value => answer options index call value s

/-- What happens to a responder. -/
inductive Event where
  /-- A call begins at a time. -/
  | attest (now : ℚ) (value : ChallengeInput)
  /-- The snapshot of a call settles. -/
  | settle (index : ℕ) (outcome : Except String IsolationSnapshot)

/-- One step of a responder. -/
def step (options : IsolationResponderOptions) (s : Responder) (event : Event) : Responder :=
  match event with
  | .attest now value => attest now value s
  | .settle index outcome => settle options index outcome s

/-- The responder after a list of events. -/
def runResponder (options : IsolationResponderOptions) (events : List Event) : Responder :=
  run (step options) {} events

end Fipwave.IsolationAttestation
