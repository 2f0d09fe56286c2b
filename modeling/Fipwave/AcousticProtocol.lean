import Fipwave.ByteWords
import Fipwave.ScriptIntegers

/-!
# FAS1, the binary envelope of the acoustic modem

Units, their validation, the checksummed byte layout, directional settings
with their canonical bytes, and the fragmentation of packets. Text is kept as
its UTF-8 bytes and playback gains as exact rationals.
-/

namespace Fipwave.AcousticProtocol

open ByteWords ScriptIntegers

/-- UTF-8 text as its bytes. -/
abbrev Text := Bytes

/-- The bytes of `FAS1`. -/
def fas1Magic : Bytes := [0x46, 0x41, 0x53, 0x31]
/-- Envelope version. -/
def fas1Version : ℕ := 1
/-- Bytes before the body. -/
def fas1HeaderBytes : ℕ := 36
/-- Largest body of one unit. -/
def fas1MaxBodyBytes : ℕ := 217
/-- Largest unit on the wire. -/
def fas1MaxUnitBytes : ℕ := fas1HeaderBytes + fas1MaxBodyBytes
/-- Largest packet that may be fragmented. -/
def fas1MaxPacketBytes : ℕ := 1357
/-- Largest number of fragments of one packet. -/
def fas1MaxFragments : ℕ := 16
/-- Largest unsigned 32-bit integer. -/
def uint32Max : ℕ := 0xffffffff
/-- Largest unsigned 64-bit integer. -/
def uint64Max : ℕ := 0xffffffffffffffff

/-- Unit kinds, in the order of their wire codes. -/
inductive Fas1UnitType where
  | hello | helloAck | caps | probe | report | commit | commitAck | data | turnEnd | ack
  | heartbeat | reset
  deriving DecidableEq, Repr

/-- Wire code of a unit kind. -/
def Fas1UnitType.code : Fas1UnitType → ℕ
  | .hello => 1
  | .helloAck => 2
  | .caps => 3
  | .probe => 4
  | .report => 5
  | .commit => 6
  | .commitAck => 7
  | .data => 8
  | .turnEnd => 9
  | .ack => 10
  | .heartbeat => 11
  | .reset => 12

/-- The unit kind of a wire code; other codes are unsupported. -/
def unitTypeOf : ℕ → Option Fas1UnitType
  | 1 => some .hello
  | 2 => some .helloAck
  | 3 => some .caps
  | 4 => some .probe
  | 5 => some .report
  | 6 => some .commit
  | 7 => some .commitAck
  | 8 => some .data
  | 9 => some .turnEnd
  | 10 => some .ack
  | 11 => some .heartbeat
  | 12 => some .reset
  | _ => none

/-- The type of a unit is read back from its code. -/
@[simp] theorem unitTypeOf_code (type : Fas1UnitType) : unitTypeOf type.code = some type := by
  cases type <;> rfl

/-- Sender flag of role A. -/
def fas1SenderA : ℕ := 1
/-- Sender flag of role B. -/
def fas1SenderB : ℕ := 2

/-- One decoded FAS1 unit. -/
structure Fas1Unit where
  /-- Kind of the unit. -/
  type : Fas1UnitType
  /-- Sender flag bound by the checksum. -/
  flags : ℕ
  /-- Session the unit belongs to; zero only for the bootstrap HELLO. -/
  sessionId : ℕ
  /-- Transmission counter; the bitmap of an ACK. -/
  sequence : ℕ
  /-- Packet a DATA or ACK unit refers to. -/
  packetId : ℕ
  /-- Position of a DATA fragment. -/
  fragmentIndex : ℕ
  /-- Number of fragments of the packet. -/
  fragmentCount : ℕ
  /-- Declared length of the whole packet. -/
  packetLength : ℕ
  /-- Payload of the unit. -/
  body : Bytes
  deriving DecidableEq, Repr

/-- Kinds that never carry a body. -/
def bodylessTypes : List Fas1UnitType := [.turnEnd, .ack, .heartbeat, .reset]

/-- The protocol's exception. -/
def fail {α : Type} (message : String) : Except String α := .error ("FAS1 " ++ message)

/-- Range check of a non-negative integer field. -/
def assertInteger (value maximum : ℕ) (name : String) : Except String Unit :=
  if value > maximum then fail (name ++ " is out of range") else .ok ()

/-- Range check of a session identifier. -/
def assertSessionId (value : ℕ) : Except String Unit :=
  if value > uint64Max then fail "session ID is out of range" else .ok ()

/-- Length check of a unit body. -/
def assertBody (body : Bytes) : Except String Unit :=
  if body.length > fas1MaxBodyBytes then fail "body exceeds the 217-byte limit" else .ok ()

/-- Geometry rules of a DATA unit. -/
def validateData (input : Fas1Unit) : Except String Unit :=
  if input.sessionId = 0 then fail "DATA requires an active session"
  else if input.packetId = 0 then fail "DATA requires a packet ID"
  else if input.fragmentCount < 1 ∨ input.fragmentCount > fas1MaxFragments then
    fail "DATA fragment count is invalid"
  else if input.fragmentIndex ≥ input.fragmentCount then fail "DATA fragment index is invalid"
  else if input.packetLength < 1 ∨ input.packetLength > fas1MaxPacketBytes then
    fail "DATA packet length is invalid"
  else if input.body.length < 1 then fail "DATA body must not be empty"
  else if input.body.length > input.packetLength then
    fail "DATA body exceeds declared packet length"
  else .ok ()

/-- Geometry rules of every other unit. -/
def validateControl (input : Fas1Unit) : Except String Unit :=
  if input.type ≠ .hello ∧ input.sessionId = 0 then
    fail "only bootstrap HELLO may use session zero"
  else if (input.type ≠ .ack ∧ input.packetId ≠ 0) ∨ input.fragmentIndex ≠ 0 ∨
      input.fragmentCount ≠ 0 ∨ input.packetLength ≠ 0 then
    fail "control packet geometry must be zero"
  else if input.type = .ack ∧ input.packetId = 0 then fail "ACK requires a packet ID"
  else if input.type ∈ bodylessTypes then
    if input.body.length ≠ 0 then fail "bodyless control unit has a body" else .ok ()
  else if input.body.length = 0 then fail "control unit body must not be empty"
  else .ok ()

/-- The checks every unit passes before it is encoded and after it is decoded. -/
def validateUnit (input : Fas1Unit) : Except String Unit := do
  assertInteger input.flags fas1SenderB "flags"
  if input.flags ≠ fas1SenderA ∧ input.flags ≠ fas1SenderB then fail "sender flag is invalid"
  else
    assertSessionId input.sessionId
    assertInteger input.sequence uint32Max "sequence"
    assertInteger input.packetId uint32Max "packet ID"
    assertInteger input.fragmentIndex 0xffff "fragment index"
    assertInteger input.fragmentCount 0xffff "fragment count"
    assertInteger input.packetLength 0xffff "packet length"
    assertBody input.body
    if input.type = .data then validateData input else validateControl input

/-- One bit of the reflected CRC-32C division. -/
def crcBit (value : ℤ) : ℤ :=
  if bitAnd value 1 = 1 then bitXor (shiftRightUnsigned value 1) 0x82f63b78
  else shiftRightUnsigned value 1

/-- The 256 remainders of single bytes. -/
def createCrc32cTable : List ℤ :=
  (List.range 256).map fun index =>
    shiftRightUnsigned ((List.range 8).foldl (fun value _ => crcBit value) (index : ℤ)) 0

/-- CRC-32C, initialized and finalized with all bits set. -/
def crc32c (bytes : Bytes) : ℤ :=
  let value := bytes.foldl (fun value byte =>
    bitXor (createCrc32cTable.getD (bitAnd (bitXor value byte.toNat) 0xff).toNat 0)
      (shiftRightUnsigned value 8)) 0xffffffff
  shiftRightUnsigned (bitXor value 0xffffffff) 0

theorem crc32c_nonneg (bytes : Bytes) : 0 ≤ crc32c bytes := shiftRightUnsigned_nonneg _ _

theorem crc32c_lt (bytes : Bytes) : crc32c bytes < 2 ^ 32 := shiftRightUnsigned_lt _ _

/-- The bytes the checksum covers: the header before the checksum, then the body. -/
def crcProtectedBytes (header body : Bytes) : Bytes := header.take 32 ++ body

/-- The first 32 header bytes of a unit. -/
def headerFields (input : Fas1Unit) : Bytes :=
  fas1Magic ++ [lowByte fas1Version] ++ [lowByte input.type.code] ++ writeWord 2 input.flags ++
    writeWord 8 input.sessionId ++ writeWord 4 input.sequence ++ writeWord 4 input.packetId ++
    writeWord 2 input.fragmentIndex ++ writeWord 2 input.fragmentCount ++
    writeWord 2 input.packetLength ++ writeWord 2 input.body.length

/-- Encode a valid unit. -/
def encodeFas1 (input : Fas1Unit) : Except String Bytes := do
  validateUnit input
  let header := headerFields input
  return header ++ writeWord 4 (crc32c (crcProtectedBytes header input.body)).toNat ++ input.body

/-- The fields a view reads at their offsets. -/
def readUnit (type : Fas1UnitType) (input : Bytes) : Fas1Unit :=
  { type, flags := wordAt input 6 2, sessionId := wordAt input 8 8,
    sequence := wordAt input 16 4, packetId := wordAt input 20 4,
    fragmentIndex := wordAt input 24 2, fragmentCount := wordAt input 26 2,
    packetLength := wordAt input 28 2, body := input.drop fas1HeaderBytes }

/-- Fully validate raw bytes before a unit is returned. -/
def decodeFas1 (input : Bytes) : Except String Fas1Unit :=
  if input.length < fas1HeaderBytes ∨ input.length > fas1MaxUnitBytes then
    fail "unit length is invalid"
  else if sliceAt input 0 4 ≠ fas1Magic then fail "magic is invalid"
  else if wordAt input 4 1 ≠ fas1Version then fail "version is unsupported"
  else
    match unitTypeOf (wordAt input 5 1) with
    | none => fail "type is unsupported"
    | some type =>
      if wordAt input 6 2 ≠ fas1SenderA ∧ wordAt input 6 2 ≠ fas1SenderB then
        fail "sender flag is invalid"
      else if wordAt input 30 2 > fas1MaxBodyBytes ∨
          input.length ≠ fas1HeaderBytes + wordAt input 30 2 then
        fail "declared body length is invalid"
      else if crc32c (crcProtectedBytes input (input.drop fas1HeaderBytes)) ≠
          wordAt input 32 4 then
        fail "CRC-32C is invalid"
      else do
        validateUnit (readUnit type input)
        return readUnit type input

/-- What every unit that passes validation satisfies. -/
structure Fas1Unit.WellFormed (unit : Fas1Unit) : Prop where
  /-- The sender flag names one of the two roles. -/
  flags : unit.flags = fas1SenderA ∨ unit.flags = fas1SenderB
  /-- The session identifier fits eight bytes. -/
  sessionId : unit.sessionId ≤ uint64Max
  /-- The transmission counter fits four bytes. -/
  sequence : unit.sequence ≤ uint32Max
  /-- The packet identifier fits four bytes. -/
  packetId : unit.packetId ≤ uint32Max
  /-- The fragment index fits two bytes. -/
  fragmentIndex : unit.fragmentIndex ≤ 0xffff
  /-- The fragment count fits two bytes. -/
  fragmentCount : unit.fragmentCount ≤ 0xffff
  /-- The packet length fits two bytes. -/
  packetLength : unit.packetLength ≤ 0xffff
  /-- The body fits one modem frame. -/
  body : unit.body.length ≤ fas1MaxBodyBytes
  /-- DATA units carry packet geometry. -/
  data : unit.type = .data → validateData unit = .ok ()
  /-- Control units carry none. -/
  control : unit.type ≠ .data → validateControl unit = .ok ()

/-- A failing branch rules its condition out of every success. -/
theorem check_ok_iff {α : Type} {c : Prop} [Decidable c] {message : String}
    {rest : Except String α} {value : α} :
    (if c then fail message else rest) = .ok value ↔ ¬c ∧ rest = .ok value := by
  by_cases hc : c
  · simp [hc, fail]
  · simp [hc]

/-- A check followed by more work passes when both pass. -/
theorem check_bind_ok_iff {α : Type} {c : Prop} [Decidable c] {message : String}
    {rest : Except String α} {value : α} :
    ((if c then fail message else .ok ()) >>= fun _ => rest) = .ok value ↔
      ¬c ∧ rest = .ok value := by
  by_cases hc : c
  · simp [hc, fail, Bind.bind, Except.bind]
  · simp [hc, Bind.bind, Except.bind]

/-- Validation accepts exactly the well-formed units. -/
theorem validateUnit_ok_iff (unit : Fas1Unit) :
    validateUnit unit = .ok () ↔ unit.WellFormed := by
  unfold validateUnit assertInteger assertSessionId assertBody
  simp only [check_bind_ok_iff, check_ok_iff]
  constructor
  · rintro ⟨h0, hf, h1, h2, h3, h4, h5, h6, h7, h8⟩
    have hflags : unit.flags = fas1SenderA ∨ unit.flags = fas1SenderB := by tauto
    refine ⟨hflags, by omega, by omega, by omega, by omega, by omega, by omega, by omega, ?_, ?_⟩
    · intro ht
      rwa [if_pos ht] at h8
    · intro ht
      rwa [if_neg ht] at h8
  · rintro ⟨hf, h1, h2, h3, h4, h5, h6, h7, hd, hc⟩
    have hbound : ¬unit.flags > fas1SenderB := by
      rcases hf with h | h <;> rw [h] <;> decide
    refine ⟨hbound, by tauto, by omega, by omega, by omega, by omega, by omega, by omega,
      by omega, ?_⟩
    by_cases ht : unit.type = .data
    · rw [if_pos ht]
      exact hd ht
    · rw [if_neg ht]
      exact hc ht

theorem headerFields_length (unit : Fas1Unit) : (headerFields unit).length = 32 := by
  simp [headerFields, fas1Magic]

/-- A valid unit is encoded as header, checksum and body. -/
theorem encodeFas1_of_valid {unit : Fas1Unit} (h : validateUnit unit = .ok ()) :
    encodeFas1 unit = .ok (headerFields unit ++
      writeWord 4 (crc32c (headerFields unit ++ unit.body)).toNat ++ unit.body) := by
  have hp : crcProtectedBytes (headerFields unit) unit.body = headerFields unit ++ unit.body := by
    rw [crcProtectedBytes, List.take_of_length_le (headerFields_length unit).le]
  simp only [encodeFas1, h, hp]
  rfl

/-- Encoding succeeds exactly on well-formed units. -/
theorem encodeFas1_ok_iff (unit : Fas1Unit) :
    (∃ raw, encodeFas1 unit = .ok raw) ↔ unit.WellFormed := by
  rw [← validateUnit_ok_iff]
  constructor
  · rintro ⟨raw, h⟩
    unfold encodeFas1 at h
    cases hv : validateUnit unit with
    | ok _ => rfl
    | error e => simp [hv, Bind.bind, Except.bind] at h
  · intro h
    exact ⟨_, encodeFas1_of_valid h⟩

/-- The bytes of a unit before the checksum is compared: its header fields, four
checksum bytes and its body. -/
def frameBytes (unit : Fas1Unit) (checksum : ℕ) : Bytes :=
  headerFields unit ++ writeWord 4 checksum ++ unit.body

section FrameBytes

variable (unit : Fas1Unit) (checksum : ℕ)

theorem frameBytes_length : (frameBytes unit checksum).length = 36 + unit.body.length := by
  simp only [frameBytes, List.length_append, headerFields_length, writeWord_length]

theorem frameBytes_take : (frameBytes unit checksum).take 32 = headerFields unit := by
  simp [frameBytes, headerFields, fas1Magic, writeWord]

theorem frameBytes_drop : (frameBytes unit checksum).drop fas1HeaderBytes = unit.body := by
  simp [fas1HeaderBytes, frameBytes, headerFields, fas1Magic, writeWord]

/-- Every field of a frame is read back where its header has it. -/
theorem frameBytes_fields :
    sliceAt (frameBytes unit checksum) 0 4 = fas1Magic ∧
      sliceAt (frameBytes unit checksum) 4 1 = writeWord 1 fas1Version ∧
      sliceAt (frameBytes unit checksum) 5 1 = writeWord 1 unit.type.code ∧
      sliceAt (frameBytes unit checksum) 6 2 = writeWord 2 unit.flags ∧
      sliceAt (frameBytes unit checksum) 8 8 = writeWord 8 unit.sessionId ∧
      sliceAt (frameBytes unit checksum) 16 4 = writeWord 4 unit.sequence ∧
      sliceAt (frameBytes unit checksum) 20 4 = writeWord 4 unit.packetId ∧
      sliceAt (frameBytes unit checksum) 24 2 = writeWord 2 unit.fragmentIndex ∧
      sliceAt (frameBytes unit checksum) 26 2 = writeWord 2 unit.fragmentCount ∧
      sliceAt (frameBytes unit checksum) 28 2 = writeWord 2 unit.packetLength ∧
      sliceAt (frameBytes unit checksum) 30 2 = writeWord 2 unit.body.length ∧
      sliceAt (frameBytes unit checksum) 32 4 = writeWord 4 checksum := by
  refine ⟨?_, ?_, ?_, ?_, ?_, ?_, ?_, ?_, ?_, ?_, ?_, ?_⟩ <;>
    simp [sliceAt, frameBytes, headerFields, fas1Magic, writeWord]

end FrameBytes

/-- Every field of a well-formed unit is read back from its frame. -/
theorem readUnit_frameBytes {unit : Fas1Unit} (h : unit.WellFormed) (checksum : ℕ) :
    readUnit unit.type (frameBytes unit checksum) = unit := by
  obtain ⟨hf, hs, hq, hp, hi, hc, hl, -, -, -⟩ := h
  have hflags : unit.flags < 256 ^ 2 := by
    rcases hf with h | h <;> rw [h] <;> decide
  have hsession : unit.sessionId < 256 ^ 8 := by
    have hmax : uint64Max < 256 ^ 8 := by decide
    omega
  have hmax : uint32Max < 256 ^ 4 := by decide
  obtain ⟨-, -, -, hflagsAt, hsessionAt, hsequenceAt, hpacketAt, hindexAt, hcountAt, hlengthAt, -⟩ :=
    frameBytes_fields unit checksum
  simp only [readUnit, wordAt, hflagsAt, hsessionAt, hsequenceAt, hpacketAt, hindexAt, hcountAt,
    hlengthAt, frameBytes_drop]
  rw [readWord_writeWord_of_lt hflags, readWord_writeWord_of_lt hsession,
    readWord_writeWord_of_lt (by omega), readWord_writeWord_of_lt (by omega),
    readWord_writeWord_of_lt (by omega), readWord_writeWord_of_lt (by omega),
    readWord_writeWord_of_lt (by omega)]

/-- Decoding what encoding produced gives the unit back. -/
theorem decodeFas1_encodeFas1 {unit : Fas1Unit} {raw : Bytes} (h : encodeFas1 unit = .ok raw) :
    decodeFas1 raw = .ok unit := by
  have hw := (encodeFas1_ok_iff unit).mp ⟨raw, h⟩
  have hv := (validateUnit_ok_iff unit).mpr hw
  rw [encodeFas1_of_valid hv] at h
  have hraw : raw = frameBytes unit (crc32c (headerFields unit ++ unit.body)).toNat :=
    (Except.ok.inj h).symm
  have hlength := frameBytes_length unit (crc32c (headerFields unit ++ unit.body)).toNat
  have hbody := hw.body
  have hcode : readWord (writeWord 1 unit.type.code) = unit.type.code := by
    cases unit.type <;> rfl
  have hbodyLength : readWord (writeWord 2 unit.body.length) = unit.body.length :=
    readWord_writeWord_of_lt (by simp only [fas1MaxBodyBytes] at hbody; omega)
  have hflags : readWord (writeWord 2 unit.flags) = unit.flags := by
    rcases hw.flags with hf | hf <;> rw [hf] <;> rfl
  have hcrc := crc32c_nonneg (headerFields unit ++ unit.body)
  have hcrcLt := crc32c_lt (headerFields unit ++ unit.body)
  have hchecksum : readWord (writeWord 4 (crc32c (headerFields unit ++ unit.body)).toNat) =
      (crc32c (headerFields unit ++ unit.body)).toNat :=
    readWord_writeWord_of_lt (by norm_num at hcrcLt ⊢; omega)
  obtain ⟨hmagicAt, hversionAt, htypeAt, hflagsAt, -, -, -, -, -, -, hbodyAt, hchecksumAt⟩ :=
    frameBytes_fields unit (crc32c (headerFields unit ++ unit.body)).toNat
  rw [hraw]
  unfold decodeFas1
  rw [if_neg (by rw [hlength]; simp only [fas1HeaderBytes, fas1MaxUnitBytes]; omega),
    if_neg (by rw [hmagicAt]; simp),
    if_neg (by rw [wordAt, hversionAt]; decide)]
  simp only [wordAt, htypeAt, hcode, unitTypeOf_code, hflagsAt, hflags, hbodyAt, hbodyLength,
    frameBytes_drop, hchecksumAt, hchecksum]
  rw [if_neg (fun hn => hw.flags.elim hn.1 hn.2),
    if_neg (by rw [hlength]; simp only [fas1HeaderBytes]; omega), crcProtectedBytes,
    frameBytes_take, if_neg (by rw [Int.toNat_of_nonneg hcrc]; simp), readUnit_frameBytes hw, hv]
  rfl

/-- What is decoded is well formed. -/
theorem decodeFas1_wellFormed {raw : Bytes} {unit : Fas1Unit} (h : decodeFas1 raw = .ok unit) :
    unit.WellFormed := by
  unfold decodeFas1 at h
  simp only [check_ok_iff] at h
  obtain ⟨-, -, -, h⟩ := h
  split at h
  · cases h
  · simp only [check_ok_iff] at h
    obtain ⟨-, -, -, h⟩ := h
    cases hvalid : validateUnit (readUnit _ raw) with
    | error e =>
      rw [hvalid] at h
      cases h
    | ok value =>
      rw [hvalid] at h
      rw [← Except.ok.inj h]
      exact (validateUnit_ok_iff _).mp hvalid

end Fipwave.AcousticProtocol
