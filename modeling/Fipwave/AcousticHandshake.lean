import Fipwave.SettingsCommitment

/-!
# Handshake payloads

The strict control payload of HELLO and HELLO_ACK: role, identities, nonce,
profiles, capability range, epoch, echoed nonce and session identifier. The
decoder reads the payload front to back and refuses whatever the encoder
could not have written.
-/

namespace Fipwave.AcousticHandshake

open ByteWords ScriptIntegers ThrowingMethod AcousticProtocol

/-- The two ends of the acoustic link. -/
inductive AcousticRole where
  | a | b
  deriving DecidableEq, Repr

/-- The other role. -/
def complement : AcousticRole → AcousticRole
  | .a => .b
  | .b => .a

/-- No role is its own complement. -/
@[simp] theorem complement_ne (role : AcousticRole) : complement role ≠ role := by
  cases role <;> simp [complement]

/-- The complement of the complement is the role. -/
@[simp] theorem complement_complement (role : AcousticRole) :
    complement (complement role) = role := by
  cases role <;> rfl

/-- Role byte of a handshake. -/
def roleByte : AcousticRole → ℕ
  | .a => 1
  | .b => 2

/-- Role of a handshake byte. -/
def parseRole (value : ℕ) : Option AcousticRole :=
  if value = 1 then some .a else if value = 2 then some .b else none

/-- A role is read back from its byte. -/
@[simp] theorem parseRole_roleByte (role : AcousticRole) : parseRole (roleByte role) = some role := by
  cases role <;> rfl

/-- Sender flag of a role. -/
def senderFlag : AcousticRole → ℕ
  | .a => fas1SenderA
  | .b => fas1SenderB

/-- Payload sizes an end can handle. -/
structure AcousticCapabilityRange where
  /-- Smallest payload. -/
  minPayloadBytes : ℕ
  /-- Largest payload. -/
  maxPayloadBytes : ℕ
  deriving DecidableEq, Repr

/-- Contents of a handshake payload. -/
structure Handshake where
  /-- Role of the sender. -/
  role : AcousticRole
  /-- Identity of the sender. -/
  identity : Text
  /-- Identity the sender expects of its peer. -/
  expectedPeer : Text
  /-- Fresh nonce of the sender. -/
  nonce : Bytes
  /-- Nonce of the peer, echoed in a HELLO_ACK. -/
  echoedNonce : Option Bytes
  /-- Profiles of the sender. -/
  profiles : List Text
  /-- Payload sizes of the sender. -/
  ranges : AcousticCapabilityRange
  /-- Epoch of the sender. -/
  epoch : ℕ
  /-- Session proposed by a HELLO. -/
  sessionId : Option ℕ
  deriving DecidableEq, Repr

/-- Largest identity. -/
def maxIdentityBytes : ℕ := 96
/-- Largest profile set. -/
def maxProfiles : ℕ := 3
/-- Largest profile name. -/
def maxProfileBytes : ℕ := 48

/-- The session layer's exception. -/
def invalid {α : Type} (message : String) : Except String α :=
  .error ("acoustic session " ++ message)

/-- Integer range check. -/
def validInteger (value minimum maximum : ℕ) : Bool := minimum ≤ value ∧ value ≤ maximum

/-- Some byte of a nonce is not zero. -/
def nonZero (value : Bytes) : Bool := value.any (· ≠ 0)

/-- Range check of a capability range. -/
def validRange (value : AcousticCapabilityRange) : Bool :=
  validInteger value.minPayloadBytes 1 217 &&
    validInteger value.maxPayloadBytes value.minPayloadBytes 217

/-- A length byte followed by the bytes. -/
def prefixed (bytes : Bytes) : Bytes := lowByte bytes.length :: bytes

/-- A presence byte followed by what is present. -/
def optional (field : Option Bytes) : Bytes :=
  match field with
  | none => [0]
  | some bytes => 1 :: bytes

/-- The payload before the optional fields. -/
def handshakePrefix (value : Handshake) : Bytes :=
  [1, lowByte (roleByte value.role)] ++ prefixed value.identity ++ prefixed value.expectedPeer ++
    value.nonce ++ [lowByte value.profiles.length] ++ value.profiles.flatMap prefixed ++
    writeWord 2 value.ranges.minPayloadBytes ++ writeWord 2 value.ranges.maxPayloadBytes ++
    writeWord 4 value.epoch

/-- The whole payload. -/
def handshakeBytes (value : Handshake) : Bytes :=
  handshakePrefix value ++ optional value.echoedNonce ++
    optional (value.sessionId.map (writeWord 8))

/-- Encode a handshake. -/
def encodeHandshake (value : Handshake) : Except String Bytes :=
  if value.identity = [] ∨ value.expectedPeer = [] ∨ value.identity = value.expectedPeer ∨
      value.nonce.length ≠ 16 ∨ !nonZero value.nonce ∨ !validRange value.ranges ∨
      value.profiles.length < 1 ∨ value.profiles.length > maxProfiles ∨
      !validInteger value.epoch 0 uint32Max then
    invalid "handshake is invalid"
  else if value.identity.length > maxIdentityBytes ∨
      value.expectedPeer.length > maxIdentityBytes then
    invalid "identity is invalid"
  else if value.profiles.any (fun profile => profile.length < 1 || profile.length > maxProfileBytes) then
    invalid "profile set is invalid"
  else if value.echoedNonce.any (fun nonce => nonce.length ≠ 16) then
    invalid "echo nonce is invalid"
  else .ok (handshakeBytes value)

/-- State of the streaming UTF-8 decoder: continuation bytes still needed and
the bounds of the next one. -/
structure Utf8Decoder where
  /-- Continuation bytes still needed. -/
  needed : ℕ
  /-- Smallest next continuation byte. -/
  lower : ℕ
  /-- Largest next continuation byte. -/
  upper : ℕ

/-- One byte of a fatal UTF-8 decoder. -/
def utf8Byte (decoder : Utf8Decoder) (byte : UInt8) : Option Utf8Decoder :=
  let value := byte.toNat
  if decoder.needed = 0 then
    if value ≤ 0x7f then some ⟨0, 0x80, 0xbf⟩
    else if 0xc2 ≤ value ∧ value ≤ 0xdf then some ⟨1, 0x80, 0xbf⟩
    else if 0xe0 ≤ value ∧ value ≤ 0xef then
      some ⟨2, if value = 0xe0 then 0xa0 else 0x80, if value = 0xed then 0x9f else 0xbf⟩
    else if 0xf0 ≤ value ∧ value ≤ 0xf4 then
      some ⟨3, if value = 0xf0 then 0x90 else 0x80, if value = 0xf4 then 0x8f else 0xbf⟩
    else none
  else if value < decoder.lower ∨ value > decoder.upper then none
  else some ⟨decoder.needed - 1, 0x80, 0xbf⟩

/-- The bytes are a complete sequence of UTF-8 code points. -/
def wellFormedUtf8 (bytes : Bytes) : Bool :=
  match bytes.foldlM utf8Byte ⟨0, 0x80, 0xbf⟩ with
  | some decoder => decoder.needed = 0
  | none => false

/-- The text of fatally decoded bytes, without a leading byte-order mark. -/
def decodeText (bytes : Bytes) : Option Text :=
  if wellFormedUtf8 bytes then
    some (if bytes.take 3 = [0xef, 0xbb, 0xbf] then bytes.drop 3 else bytes)
  else none

/-- Read one byte. -/
def readByte : Bytes → Option (ℕ × Bytes)
  | [] => none
  | byte :: rest => some (byte.toNat, rest)

/-- Read a number of bytes. -/
def readBytes (count : ℕ) (input : Bytes) : Option (Bytes × Bytes) :=
  if count > input.length then none else some (input.take count, input.drop count)

/-- Read length-prefixed text. -/
def readText (maximum : ℕ) (input : Bytes) : Option (Text × Bytes) := do
  let (length, input) ← readByte input
  if length < 1 ∨ length > maximum then none
  else
    let (bytes, input) ← readBytes length input
    let value ← decodeText bytes
    return (value, input)

/-- Read a number of length-prefixed profile names. -/
def readProfiles : ℕ → Bytes → Option (List Text × Bytes)
  | 0, input => some ([], input)
  | count + 1, input => do
    let (profile, input) ← readText maxProfileBytes input
    let (profiles, input) ← readProfiles count input
    return (profile :: profiles, input)

/-- Read the echoed nonce, if its flag says so. -/
def readEcho (input : Bytes) : Option (Option Bytes × Bytes) := do
  let (echo, input) ← readByte input
  if echo = 1 then
    let (nonce, input) ← readBytes 16 input
    return (some nonce, input)
  else if echo = 0 then return (none, input)
  else none

/-- Read the session identifier, if its flag says so, and the end of input. -/
def readSessionId (input : Bytes) : Option (Option ℕ) := do
  let (hasSessionId, input) ← readByte input
  if hasSessionId = 1 then
    if input.length ≠ 8 ∨ readWord input = 0 then none else return some (readWord input)
  else if hasSessionId = 0 ∧ input = [] then return none
  else none

/-- Read a handshake front to back. -/
def readHandshake (input : Bytes) : Option Handshake := do
  let (version, input) ← readByte input
  if version ≠ 1 then none
  else
    let (roleValue, input) ← readByte input
    let role ← parseRole roleValue
    let (identity, input) ← readText maxIdentityBytes input
    let (expectedPeer, input) ← readText maxIdentityBytes input
    let (nonce, input) ← readBytes 16 input
    let (profileCount, input) ← readByte input
    if profileCount < 1 ∨ profileCount > maxProfiles then none
    else
      let (profiles, input) ← readProfiles profileCount input
      if input.length < 9 then none
      else
        let ranges : AcousticCapabilityRange := ⟨wordAt input 0 2, wordAt input 2 2⟩
        let epoch := wordAt input 4 4
        let (echoedNonce, input) ← readEcho (input.drop 8)
        let sessionId ← readSessionId input
        if identity = [] ∨ expectedPeer = [] ∨ identity = expectedPeer ∨ !nonZero nonce ∨
            !validRange ranges then none
        else
          return ⟨role, identity, expectedPeer, nonce, echoedNonce, profiles, ranges, epoch,
            sessionId⟩

/-- Decode a handshake; every failure has one text. -/
def decodeHandshake (input : Bytes) : Except String Handshake :=
  match readHandshake input with
  | some handshake => .ok handshake
  | none => invalid "handshake is invalid"

end Fipwave.AcousticHandshake
