import Fipwave.QualificationSession
import Fipwave.StreamedHash

/-!
# The metadata of a native case

The worker writes the metadata of a case into a block of 256 bytes with fixed
offsets and sends it with the payload to the native process. The process
checks the block with a scan that ends at a zero byte and hashes the payload
itself. Both agree on every case whose identifier leaves room for that zero;
blocks of different cases are different.
-/

namespace Fipwave.CyrinxMetadata

open ByteWords StreamedHash QualificationSession

section Hash

/-- Round constants of `sha256_k`. -/
def sha256K : List UInt32 :=
  [0x428a2f98, 0x71374491, 0xb5c0fbcf, 0xe9b5dba5, 0x3956c25b, 0x59f111f1, 0x923f82a4, 0xab1c5ed5,
    0xd807aa98, 0x12835b01, 0x243185be, 0x550c7dc3, 0x72be5d74, 0x80deb1fe, 0x9bdc06a7, 0xc19bf174,
    0xe49b69c1, 0xefbe4786, 0x0fc19dc6, 0x240ca1cc, 0x2de92c6f, 0x4a7484aa, 0x5cb0a9dc, 0x76f988da,
    0x983e5152, 0xa831c66d, 0xb00327c8, 0xbf597fc7, 0xc6e00bf3, 0xd5a79147, 0x06ca6351, 0x14292967,
    0x27b70a85, 0x2e1b2138, 0x4d2c6dfc, 0x53380d13, 0x650a7354, 0x766a0abb, 0x81c2c92e, 0x92722c85,
    0xa2bfe8a1, 0xa81a664b, 0xc24b8b70, 0xc76c51a3, 0xd192e819, 0xd6990624, 0xf40e3585, 0x106aa070,
    0x19a4c116, 0x1e376c08, 0x2748774c, 0x34b0bcb5, 0x391c0cb3, 0x4ed8aa4a, 0x5b9cca4f, 0x682e6ff3,
    0x748f82ee, 0x78a5636f, 0x84c87814, 0x8cc70208, 0x90befffa, 0xa4506ceb, 0xbef9a3f7, 0xc67178f2]

/-- The words of `state`. -/
structure Words where
  /-- First word. -/
  a : UInt32
  /-- Second word. -/
  b : UInt32
  /-- Third word. -/
  c : UInt32
  /-- Fourth word. -/
  d : UInt32
  /-- Fifth word. -/
  e : UInt32
  /-- Sixth word. -/
  f : UInt32
  /-- Seventh word. -/
  g : UInt32
  /-- Eighth word. -/
  h : UInt32
  deriving DecidableEq, Repr

/-- Rotate a word right. -/
def rotr (value shift : UInt32) : UInt32 := (value >>> shift) ||| (value <<< (32 - shift))

/-- A word of a block, most significant byte first. -/
def blockWord (block : Bytes) (i : ℕ) : UInt32 :=
  ((block.getD (i * 4) 0).toUInt32 <<< 24) ||| ((block.getD (i * 4 + 1) 0).toUInt32 <<< 16) |||
    ((block.getD (i * 4 + 2) 0).toUInt32 <<< 8) ||| (block.getD (i * 4 + 3) 0).toUInt32

/-- The next word of the message schedule. -/
def nextWord (w : List UInt32) : UInt32 :=
  let i := w.length
  let early := w.getD (i - 15) 0
  let late := w.getD (i - 2) 0
  (rotr early 7 ^^^ rotr early 18 ^^^ (early >>> 3)) + w.getD (i - 16) 0 +
    (rotr late 17 ^^^ rotr late 19 ^^^ (late >>> 10)) + w.getD (i - 7) 0

/-- The message schedule of a block. -/
def schedule (block : Bytes) : List UInt32 :=
  (List.range 48).foldl (fun w _ => w ++ [nextWord w]) ((List.range 16).map (blockWord block))

/-- One round. -/
def round (w : List UInt32) (s : Words) (i : ℕ) : Words :=
  let t1 := s.h + (rotr s.e 6 ^^^ rotr s.e 11 ^^^ rotr s.e 25) +
    ((s.e &&& s.f) ^^^ (~~~s.e &&& s.g)) + sha256K.getD i 0 + w.getD i 0
  let t2 := (rotr s.a 2 ^^^ rotr s.a 13 ^^^ rotr s.a 22) +
    ((s.a &&& s.b) ^^^ (s.a &&& s.c) ^^^ (s.b &&& s.c))
  ⟨t1 + t2, s.a, s.b, s.c, s.d + t1, s.e, s.f, s.g⟩

/-- `sha256_transform`. -/
def sha256Transform (s : Words) (block : Bytes) : Words :=
  let t := (List.range 64).foldl (round (schedule block)) s
  ⟨s.a + t.a, s.b + t.b, s.c + t.c, s.d + t.d, s.e + t.e, s.f + t.f, s.g + t.g, s.h + t.h⟩

/-- The words before the first block. -/
def initialWords : Words :=
  ⟨0x6a09e667, 0xbb67ae85, 0x3c6ef372, 0xa54ff53a, 0x510e527f, 0x9b05688c, 0x1f83d9ab, 0x5be0cd19⟩

/-- The bytes of the words. -/
def wordBytes (s : Words) : Bytes :=
  [s.a, s.b, s.c, s.d, s.e, s.f, s.g, s.h].flatMap (fun word => bigEndian 4 word.toNat)

/-- `sha256_init`. -/
def sha256Init : Stream Words := start initialWords

/-- `sha256_update`. -/
def sha256Update (s : Stream Words) (data : Bytes) : Stream Words :=
  data.foldl (feed sha256Transform) s

/-- `sha256_final`. -/
def sha256Final (s : Stream Words) : Bytes := wordBytes (finish sha256Transform s)

/-- SHA-256 of a message. -/
def sha256 (message : Bytes) : Bytes := wordBytes (hash sha256Transform initialWords message)

/-- The hash the native process computes is SHA-256. -/
theorem sha256Final_update (message : Bytes) :
    sha256Final (sha256Update sha256Init message) = sha256 message := by
  have hfed : finish sha256Transform (message.foldl (feed sha256Transform) (start initialWords)) =
      hash sha256Transform initialWords message := finish_feed sha256Transform initialWords message
  unfold sha256Final sha256Update sha256Init sha256
  rw [hfed]

end Hash

section Block

/-- A case for the native codec; texts are their UTF-8 bytes. -/
structure CyrinxCase where
  /-- Identifier. -/
  id : Bytes
  /-- Direction. -/
  direction : LiteralDirection
  /-- Bytes to be sent. -/
  payload : Bytes
  /-- Digest of the payload in hexadecimal digits. -/
  digest : Bytes
  deriving DecidableEq, Repr

/-- Size of a metadata block. -/
def metadataBytes : ℕ := 256

/-- Bound of the payload. -/
def applicationMax : ℕ := 1536

/-- Value of a hexadecimal digit of either case. -/
def hexValue (digit : UInt8) : Option ℕ :=
  if 0x30 ≤ digit ∧ digit ≤ 0x39 then some (digit.toNat - 0x30)
  else if 0x61 ≤ digit ∧ digit ≤ 0x66 then some (digit.toNat - 0x61 + 10)
  else if 0x41 ≤ digit ∧ digit ≤ 0x46 then some (digit.toNat - 0x41 + 10)
  else none

/-- Sixty-four hexadecimal digits. -/
def isDigest (text : Bytes) : Bool :=
  text.length = 64 && text.all (fun byte => (hexValue byte).isSome)

/-- The bytes of hexadecimal digits, up to the first pair that is none. -/
def fromHex : Bytes → Bytes
  | high :: low :: rest =>
    match hexValue high, hexValue low with
    | some upper, some lower => lowByte (16 * upper + lower) :: fromHex rest
    | _, _ => []
  | _ => []

/-- A letter, a digit, a hyphen, an underscore or a full stop. -/
def isIdByte (byte : UInt8) : Bool :=
  (0x61 ≤ byte && byte ≤ 0x7a) || (0x41 ≤ byte && byte ≤ 0x5a) || (0x30 ≤ byte && byte ≤ 0x39) ||
    byte = 0x2d || byte = 0x5f || byte = 0x2e

/-- One to sixty-four bytes of an identifier. -/
def isCaseId (text : Bytes) : Bool := 1 ≤ text.length && text.length ≤ 64 && text.all isIdByte

/-- The letters at the front of a block. -/
def metadataMagic : Bytes := [0x43, 0x59, 0x52, 0x58]

/-- The byte of a direction. -/
def directionByte : LiteralDirection → UInt8
  | .aToB => 0
  | .bToA => 1

/-- What `metadata` accepts. -/
def metadataValid (input : CyrinxCase) (epoch : ℤ) : Bool :=
  input.payload.length ≤ applicationMax && isDigest input.digest && isCaseId input.id &&
    0 < epoch && epoch ≤ 0xffffffff

/-- The block of a case: the letters, a version, the epoch at 5, the direction at 9, the identifier
at 11, the length of the payload at 75, its digest at 79 and zeros elsewhere. -/
def metadataBlock (input : CyrinxCase) (epoch : ℕ) : Bytes :=
  metadataMagic ++ [1] ++ writeWord 4 epoch ++ [directionByte input.direction] ++ [0] ++
    (input.id ++ List.replicate (64 - input.id.length) 0) ++ writeWord 4 input.payload.length ++
    fromHex input.digest ++ List.replicate (metadataBytes - 79 - (fromHex input.digest).length) 0

/-- The metadata of a case. -/
def metadata (input : CyrinxCase) (epoch : ℤ) : Except String Bytes :=
  if metadataValid input epoch then .ok (metadataBlock input epoch.toNat)
  else .error "cyrinx case metadata is invalid"

/-- The request of an encoding. -/
def encodeRequest (block payload : Bytes) : Bytes := writeWord 4 payload.length ++ block ++ payload

end Block

section Native

/-- The scan of `valid_case_id` over the field of the identifier. -/
def scanCaseId : Bytes → Bool
  | [] => false
  | byte :: rest => if byte = 0 then true else isIdByte byte && scanCaseId rest

/-- `valid_case_id`. -/
def validCaseId (block : Bytes) : Bool := block.getD 11 0 ≠ 0 && scanCaseId (sliceAt block 11 64)

/-- `valid_metadata`. -/
def validMetadata (block application : Bytes) (applicationBytes : ℕ) : Bool :=
  sliceAt block 0 4 = metadataMagic && block.getD 4 0 = 1 && wordAt block 5 4 ≠ 0 &&
    block.getD 9 0 ≤ 1 && validCaseId block && wordAt block 75 4 = applicationBytes &&
    applicationBytes ≤ applicationMax &&
    sha256Final (sha256Update sha256Init (application.take applicationBytes)) = sliceAt block 79 32

/-- `read_all`: nothing if the input is longer than the buffer. -/
def readAll (input : Bytes) (cap : ℕ) : ℕ := if input.length > cap then 0 else input.length

/-- The checks of `encode` on its input. -/
def encodeAccepts (input : Bytes) : Bool :=
  let inputBytes := readAll input (4 + metadataBytes + applicationMax)
  let applicationBytes := wordAt input 0 4
  inputBytes ≥ 4 + metadataBytes && applicationBytes ≤ applicationMax &&
    inputBytes = 4 + metadataBytes + applicationBytes &&
    validMetadata (sliceAt input 4 metadataBytes) (input.drop (4 + metadataBytes)) applicationBytes

end Native

section Fields

variable {input : CyrinxCase} {epoch : ℕ}

/-- The slice at the offset of a middle part is that part. -/
theorem sliceAt_middle {front middle back : Bytes} {offset width : ℕ}
    (hoffset : front.length = offset) (hwidth : middle.length = width) :
    sliceAt (front ++ middle ++ back) offset width = middle := by
  subst hoffset hwidth
  simp [sliceAt]

/-- The field of the identifier. -/
def idField (id : Bytes) : Bytes := id ++ List.replicate (64 - id.length) 0

theorem idField_length {id : Bytes} (h : id.length ≤ 64) : (idField id).length = 64 := by
  unfold idField
  rw [List.length_append, List.length_replicate]
  omega

/-- The fields of a block. -/
structure Fields (input : CyrinxCase) (epoch : ℕ) (block : Bytes) : Prop where
  /-- The size. -/
  size : block.length = metadataBytes
  /-- The letters. -/
  magic : sliceAt block 0 4 = metadataMagic
  /-- The version. -/
  version : block.getD 4 0 = 1
  /-- The epoch. -/
  epoch : sliceAt block 5 4 = writeWord 4 epoch
  /-- The direction. -/
  direction : block.getD 9 0 = directionByte input.direction
  /-- The identifier. -/
  id : sliceAt block 11 64 = idField input.id
  /-- The length of the payload. -/
  length : sliceAt block 75 4 = writeWord 4 input.payload.length
  /-- The digest of the payload. -/
  digest : sliceAt block 79 32 = fromHex input.digest

/-- Every field stands where its offset says. -/
theorem metadataBlock_fields (hid : input.id.length ≤ 64)
    (hdigest : (fromHex input.digest).length = 32) :
    Fields input epoch (metadataBlock input epoch) := by
  have hfield := idField_length hid
  have hfront : (metadataMagic ++ [1] ++ writeWord 4 epoch ++ [directionByte input.direction] ++
      [(0 : UInt8)]).length = 11 := by
    simp [metadataMagic]
  have hblock : metadataBlock input epoch =
      (metadataMagic ++ [1] ++ writeWord 4 epoch ++ [directionByte input.direction] ++ [0]) ++
        idField input.id ++ (writeWord 4 input.payload.length ++ fromHex input.digest ++
          List.replicate (metadataBytes - 79 - (fromHex input.digest).length) 0) := by
    simp [metadataBlock, idField]
  refine ⟨?_, ?_, ?_, ?_, ?_, ?_, ?_, ?_⟩
  · rw [hblock]
    simp only [List.length_append, hfront, hfield, writeWord_length, List.length_replicate, hdigest,
      metadataBytes]
  · simp [metadataBlock, sliceAt, metadataMagic]
  · simp [metadataBlock, metadataMagic]
  · simp [metadataBlock, sliceAt, metadataMagic, writeWord]
  · simp [metadataBlock, metadataMagic, writeWord]
  · rw [hblock]
    exact sliceAt_middle hfront hfield
  · have hsplit : metadataBlock input epoch =
        ((metadataMagic ++ [1] ++ writeWord 4 epoch ++ [directionByte input.direction] ++ [0]) ++
          idField input.id) ++ writeWord 4 input.payload.length ++ (fromHex input.digest ++
            List.replicate (metadataBytes - 79 - (fromHex input.digest).length) 0) := by
      simp [metadataBlock, idField]
    rw [hsplit]
    refine sliceAt_middle ?_ (writeWord_length _ _)
    rw [List.length_append, hfront, hfield]
  · have hsplit : metadataBlock input epoch =
        ((metadataMagic ++ [1] ++ writeWord 4 epoch ++ [directionByte input.direction] ++ [0]) ++
          idField input.id ++ writeWord 4 input.payload.length) ++ fromHex input.digest ++
            List.replicate (metadataBytes - 79 - (fromHex input.digest).length) 0 := by
      simp [metadataBlock, idField]
    rw [hsplit]
    refine sliceAt_middle ?_ hdigest
    rw [List.length_append, List.length_append, hfront, hfield, writeWord_length]

/-- Pairs of digits are as many bytes. -/
theorem fromHex_length {count : ℕ} {text : Bytes} (hlength : text.length = 2 * count)
    (hdigits : text.all (fun byte => (hexValue byte).isSome)) : (fromHex text).length = count := by
  induction count generalizing text with
  | zero =>
    rw [List.length_eq_zero_iff.mp hlength]
    rfl
  | succ count ih =>
    match text, hlength, hdigits with
    | high :: low :: rest, hlength, hdigits =>
      simp only [List.all_cons, Bool.and_eq_true] at hdigits
      obtain ⟨hhigh, hlow, hrest⟩ := hdigits
      obtain ⟨upper, hupper⟩ := Option.isSome_iff_exists.mp hhigh
      obtain ⟨lower, hlower⟩ := Option.isSome_iff_exists.mp hlow
      have hshort : rest.length = 2 * count := by
        simp only [List.length_cons] at hlength
        omega
      simp only [fromHex, hupper, hlower, List.length_cons, ih hshort hrest]

/-- No byte of an identifier is zero, so the padding ends it. -/
theorem isIdByte_ne_zero {byte : UInt8} (h : isIdByte byte = true) : byte ≠ 0 := by
  rintro rfl
  revert h
  decide

/-- The scan of an identifier ends at the zero behind it, if there is one. -/
theorem scanCaseId_padded {id : Bytes} (h : id.all isIdByte) (count : ℕ) :
    scanCaseId (id ++ List.replicate count 0) = decide (0 < count) := by
  induction id with
  | nil =>
    cases count with
    | zero => rfl
    | succ count => simp [List.replicate_succ, scanCaseId]
  | cons byte rest ih =>
    rw [List.all_cons, Bool.and_eq_true] at h
    obtain ⟨hbyte, hrest⟩ := h
    rw [List.cons_append, scanCaseId, if_neg (isIdByte_ne_zero hbyte), hbyte, ih hrest]
    rfl

/-- The field of an identifier determines it. -/
theorem idField_injective {first second : Bytes} (hfirst : first.all isIdByte)
    (hsecond : second.all isIdByte) (h : idField first = idField second) : first = second := by
  have hread : ∀ id : Bytes, id.all isIdByte →
      (idField id).takeWhile (fun byte => byte ≠ 0) = id := by
    intro id hid
    have hnonzero : ∀ byte ∈ id, (decide (byte ≠ 0)) = true := fun byte hmem =>
      decide_eq_true (isIdByte_ne_zero (List.all_eq_true.mp hid byte hmem))
    unfold idField
    rw [List.takeWhile_append_of_pos hnonzero]
    cases 64 - id.length with
    | zero => simp
    | succ count => simp [List.replicate_succ]
  have htaken := congrArg (List.takeWhile (fun byte => byte ≠ 0)) h
  rwa [hread first hfirst, hread second hsecond] at htaken

end Fields

section Agreement

variable {input : CyrinxCase} {epoch : ℤ} {block : Bytes}

/-- What a case with metadata satisfies. -/
structure Described (input : CyrinxCase) (epoch : ℤ) : Prop where
  /-- The payload is within its bound. -/
  payload : input.payload.length ≤ applicationMax
  /-- The digest has 32 bytes. -/
  digest : (fromHex input.digest).length = 32
  /-- The identifier has one to sixty-four bytes. -/
  idLength : 1 ≤ input.id.length ∧ input.id.length ≤ 64
  /-- Every byte of it may stand in an identifier. -/
  idBytes : input.id.all isIdByte = true
  /-- The epoch is a positive word. -/
  epoch : 0 < epoch.toNat ∧ epoch.toNat < 256 ^ 4

/-- Metadata is given to described cases only, as a block with their fields. -/
theorem metadata_fields (h : metadata input epoch = .ok block) :
    Described input epoch ∧ Fields input epoch.toNat block := by
  unfold metadata at h
  split at h
  · next hvalid =>
    cases h
    simp only [metadataValid, isDigest, isCaseId, Bool.and_eq_true, decide_eq_true_eq] at hvalid
    obtain ⟨⟨⟨⟨hpayload, hlength, hdigits⟩, ⟨hshort, hlong⟩, hbytes⟩, hpositive⟩, hword⟩ := hvalid
    have hdigest : (fromHex input.digest).length = 32 := fromHex_length hlength hdigits
    have hepoch : 0 < epoch.toNat ∧ epoch.toNat < 256 ^ 4 := by omega
    exact ⟨⟨hpayload, hdigest, ⟨hshort, hlong⟩, hbytes, hepoch⟩, metadataBlock_fields hlong hdigest⟩
  · cases h

/-- The field of an identifier does not begin with a zero. -/
theorem idField_head {id : Bytes} (hlength : 1 ≤ id.length) (hbytes : id.all isIdByte) :
    (idField id).getD 0 0 ≠ 0 := by
  cases id with
  | nil => cases hlength
  | cons byte rest =>
    rw [List.all_cons, Bool.and_eq_true] at hbytes
    exact isIdByte_ne_zero hbytes.1

/-- The native process takes a block for valid exactly if the identifier leaves room for a zero. -/
theorem validMetadata_iff (hdescribed : Described input epoch)
    (hfields : Fields input epoch.toNat block)
    (hdigest : fromHex input.digest = sha256 input.payload) :
    validMetadata block input.payload input.payload.length = true ↔ input.id.length ≤ 63 := by
  have hword : wordAt block 5 4 = epoch.toNat := by
    unfold wordAt
    rw [hfields.epoch, readWord_writeWord_of_lt hdescribed.epoch.2]
  have hcount : wordAt block 75 4 = input.payload.length := by
    have hbound : applicationMax = 1536 := rfl
    have hpayload := hdescribed.payload
    unfold wordAt
    rw [hfields.length, readWord_writeWord_of_lt (by omega)]
  have hdirection : block.getD 9 0 ≤ 1 := by
    rw [hfields.direction]
    cases input.direction <;> decide
  have hhead : block.getD 11 0 ≠ 0 := by
    have hsame : (sliceAt block 11 64).getD 0 0 = block.getD 11 0 := by
      simp [sliceAt, List.getD_eq_getElem?_getD, List.getElem?_drop]
    rw [← hsame, hfields.id]
    exact idField_head hdescribed.idLength.1 hdescribed.idBytes
  have hscan : scanCaseId (sliceAt block 11 64) = decide (0 < 64 - input.id.length) := by
    rw [hfields.id]
    exact scanCaseId_padded hdescribed.idBytes _
  have hhash : sha256Final (sha256Update sha256Init (input.payload.take input.payload.length)) =
      sliceAt block 79 32 := by
    rw [List.take_length, sha256Final_update, hfields.digest, hdigest]
  have hepoch : epoch.toNat ≠ 0 := by
    have hpositive := hdescribed.epoch.1
    omega
  unfold validMetadata validCaseId
  rw [hword, hcount, hhash, hscan, hfields.magic, hfields.version]
  simp only [hdirection, hhead, hepoch, hdescribed.payload, decide_true, Bool.true_and,
    Bool.and_true, decide_eq_true_eq, ne_eq, not_false_eq_true]
  omega

/-- The request of a case passes the checks of the encoding exactly if the identifier leaves room
for a zero. -/
theorem encodeAccepts_iff (hdescribed : Described input epoch)
    (hfields : Fields input epoch.toNat block)
    (hdigest : fromHex input.digest = sha256 input.payload) :
    encodeAccepts (encodeRequest block input.payload) = true ↔ input.id.length ≤ 63 := by
  have hbound : applicationMax = 1536 := rfl
  have hsize : metadataBytes = 256 := rfl
  have hpayload := hdescribed.payload
  have hlength : (encodeRequest block input.payload).length =
      4 + metadataBytes + input.payload.length := by
    unfold encodeRequest
    rw [List.length_append, List.length_append, writeWord_length, hfields.size]
  have hread : readAll (encodeRequest block input.payload) (4 + metadataBytes + applicationMax) =
      4 + metadataBytes + input.payload.length := by
    have hfits : ¬(encodeRequest block input.payload).length >
        4 + metadataBytes + applicationMax := by omega
    unfold readAll
    rw [if_neg hfits, hlength]
  have hcount : wordAt (encodeRequest block input.payload) 0 4 = input.payload.length := by
    have hslice : sliceAt (encodeRequest block input.payload) 0 4 =
        writeWord 4 input.payload.length := by
      simp [encodeRequest, sliceAt]
    unfold wordAt
    rw [hslice, readWord_writeWord_of_lt (by omega)]
  have hblock : sliceAt (encodeRequest block input.payload) 4 metadataBytes = block :=
    sliceAt_middle (writeWord_length _ _) hfields.size
  have hrest : (encodeRequest block input.payload).drop (4 + metadataBytes) = input.payload := by
    unfold encodeRequest
    refine List.drop_left' ?_
    rw [List.length_append, writeWord_length, hfields.size]
  unfold encodeAccepts
  dsimp only
  rw [hread, hcount, hblock, hrest, ← validMetadata_iff hdescribed hfields hdigest]
  simp [hpayload]

/-- Blocks of described cases determine identifier, direction, epoch and payload, if their digests
belong to one payload only. -/
theorem fields_injective {other : CyrinxCase} {otherEpoch : ℤ} (hdescribed : Described input epoch)
    (hother : Described other otherEpoch) (hfields : Fields input epoch.toNat block)
    (hsame : Fields other otherEpoch.toNat block)
    (hdigest : fromHex input.digest = sha256 input.payload)
    (hotherDigest : fromHex other.digest = sha256 other.payload)
    (hcollision : sha256 input.payload = sha256 other.payload → input.payload = other.payload) :
    input.id = other.id ∧ input.direction = other.direction ∧ epoch = otherEpoch ∧
      input.payload = other.payload := by
  have hid : idField input.id = idField other.id := hfields.id.symm.trans hsame.id
  have hdirection : directionByte input.direction = directionByte other.direction :=
    hfields.direction.symm.trans hsame.direction
  have hword : writeWord 4 epoch.toNat = writeWord 4 otherEpoch.toNat :=
    hfields.epoch.symm.trans hsame.epoch
  have hhash : sha256 input.payload = sha256 other.payload := by
    rw [← hdigest, ← hotherDigest]
    exact hfields.digest.symm.trans hsame.digest
  have hepoch := writeWord_injective hdescribed.epoch.2 hother.epoch.2 hword
  have hpositive := hdescribed.epoch.1
  refine ⟨idField_injective hdescribed.idBytes hother.idBytes hid, ?_, by omega, hcollision hhash⟩
  cases hleft : input.direction <;> cases hright : other.direction <;>
    simp [hleft, hright, directionByte] at hdirection ⊢

end Agreement

/-- For cases with metadata and the right digest: the native process takes the request of the first
and blocks of different cases differ, exactly if the first identifier has at most 63 bytes. -/
theorem metadata_agrees_iff {first second : CyrinxCase} {firstEpoch secondEpoch : ℤ}
    {firstBlock secondBlock : Bytes} (hfirst : metadata first firstEpoch = .ok firstBlock)
    (hsecond : metadata second secondEpoch = .ok secondBlock)
    (hfirstDigest : fromHex first.digest = sha256 first.payload)
    (hsecondDigest : fromHex second.digest = sha256 second.payload)
    (hcollision : sha256 first.payload = sha256 second.payload → first.payload = second.payload) :
    (encodeAccepts (encodeRequest firstBlock first.payload) = true ∧
      (¬(first.id = second.id ∧ first.direction = second.direction ∧ firstEpoch = secondEpoch ∧
        first.payload = second.payload) → firstBlock ≠ secondBlock)) ↔ first.id.length ≤ 63 := by
  obtain ⟨hdescribed, hfields⟩ := metadata_fields hfirst
  obtain ⟨hother, hotherFields⟩ := metadata_fields hsecond
  have haccepts := encodeAccepts_iff hdescribed hfields hfirstDigest
  constructor
  · intro h
    exact haccepts.mp h.1
  · intro hshort
    refine ⟨haccepts.mpr hshort, fun hdifferent hsame => hdifferent ?_⟩
    rw [← hsame] at hotherFields
    exact fields_injective hdescribed hother hfields hotherFields hfirstDigest hsecondDigest
      hcollision

/-- The hexadecimal digits of the hash of nothing. -/
def benchDigest : Bytes :=
  [0x65, 0x33, 0x62, 0x30, 0x63, 0x34, 0x34, 0x32, 0x39, 0x38, 0x66, 0x63, 0x31, 0x63, 0x31, 0x34,
    0x39, 0x61, 0x66, 0x62, 0x66, 0x34, 0x63, 0x38, 0x39, 0x39, 0x36, 0x66, 0x62, 0x39, 0x32, 0x34,
    0x32, 0x37, 0x61, 0x65, 0x34, 0x31, 0x65, 0x34, 0x36, 0x34, 0x39, 0x62, 0x39, 0x33, 0x34, 0x63,
    0x61, 0x34, 0x39, 0x35, 0x39, 0x39, 0x31, 0x62, 0x37, 0x38, 0x35, 0x32, 0x62, 0x38, 0x35, 0x35]

/-- An empty case under an identifier. -/
def benchCase (id : Bytes) : CyrinxCase := ⟨id, .aToB, [], benchDigest⟩

/-- Two cases whose identifiers differ have different metadata. -/
theorem metadata_agrees_iff_bench :
    (encodeAccepts (encodeRequest (metadataBlock (benchCase [0x61]) 1)
        (benchCase [0x61]).payload) = true ∧
      (¬((benchCase [0x61]).id = (benchCase [0x62]).id ∧
        (benchCase [0x61]).direction = (benchCase [0x62]).direction ∧ (1 : ℤ) = 2 ∧
        (benchCase [0x61]).payload = (benchCase [0x62]).payload) →
        metadataBlock (benchCase [0x61]) 1 ≠ metadataBlock (benchCase [0x62]) 2)) ↔
      (benchCase [0x61]).id.length ≤ 63 := by
  have hdigest : ∀ id, fromHex (benchCase id).digest = sha256 (benchCase id).payload := by
    intro id
    change fromHex benchDigest = sha256 []
    decide +kernel
  have hfirst : metadata (benchCase [0x61]) 1 = .ok (metadataBlock (benchCase [0x61]) 1) := by
    decide +kernel
  have hsecond : metadata (benchCase [0x62]) 2 = .ok (metadataBlock (benchCase [0x62]) 2) := by
    decide +kernel
  exact metadata_agrees_iff hfirst hsecond (hdigest _) (hdigest _) (fun _ => rfl)

/-- An identifier of sixty-four letters has metadata, but the native process refuses the request. -/
theorem not_metadata_agrees : ¬∀ (input : CyrinxCase) (epoch : ℤ) (block : Bytes),
    metadata input epoch = .ok block → fromHex input.digest = sha256 input.payload →
      encodeAccepts (encodeRequest block input.payload) = true := by
  intro h
  have hblock : metadata (benchCase (List.replicate 64 0x61)) 1 =
      .ok (metadataBlock (benchCase (List.replicate 64 0x61)) 1) := by decide +kernel
  have hdigest : fromHex (benchCase (List.replicate 64 0x61)).digest =
      sha256 (benchCase (List.replicate 64 0x61)).payload := by
    change fromHex benchDigest = sha256 []
    decide +kernel
  have haccepts := h _ _ _ hblock hdigest
  revert haccepts
  decide +kernel

end Fipwave.CyrinxMetadata
